import FilterQuery.Command

/-!
The command line: which command its arguments ask for, which configuration file the command
reads, and what the program then prints.

Options stand in any order around the other arguments, each at most once. An argument that
starts with a hyphen is an option, unless it is only a hyphen or comes after `--`.
-/
namespace FilterQuery

inductive Action where
  | compile (backend : Backend) (dialect : Sql.Dialect) (json : Bool) (query : String)
  | fields (depth : Nat) (json : Bool)
  | tags (json : Bool)
  deriving DecidableEq

structure Invocation where
  verbose : Bool
  /-- The configuration file, where one is given. -/
  config : Option String
  action : Action
  deriving DecidableEq

namespace CommandLine

/-- Why no command runs. -/
inductive Ending where
  | usage | help | version
  deriving DecidableEq, Repr

/-- What a command accepts. -/
structure Accepted where
  /-- Options with a value, each with the test that its value has to pass. -/
  options : List (String × (String → Bool))
  /-- Options without one. -/
  flags : List String
  /-- How many other arguments there may be. -/
  positionals : Nat

/-- What the arguments of a command gave. -/
structure Given where
  options : List (String × String) := []
  flags : List String := []
  positionals : List String := []

namespace Given

def setFlag (g : Given) (name : String) : Except Ending Given :=
  if name ∈ g.flags then .error .usage else .ok { g with flags := name :: g.flags }

def setOption (g : Given) (name value : String) (passes : String → Bool) : Except Ending Given :=
  if name ∈ g.options.map (·.1) ∨ !passes value then .error .usage
  else .ok { g with options := (name, value) :: g.options }

def addPositional (g : Given) (limit : Nat) (value : String) : Except Ending Given :=
  if g.positionals.length < limit then .ok { g with positionals := g.positionals ++ [value] }
  else .error .usage

def option? (g : Given) (name : String) : Option String :=
  (g.options.find? (·.1 = name)).map (·.2)

def flag (g : Given) (name : String) : Bool := name ∈ g.flags

end Given

/-- Whether an argument is an option by its form. -/
def isOption (a : String) : Bool :=
  match a.toList with
  | '-' :: _ :: _ => true
  | _ => false

/-- The name and the value of a long option; a value may follow after an equals sign. -/
def splitLong (cs : List Char) : String × Option String :=
  let name := String.ofList (cs.takeWhile (· != '='))
  match cs.dropWhile (· != '=') with
  | [] => (name, none)
  | _ :: value => (name, some (String.ofList value))

/-- A run of one-letter options of a command. -/
def readLetters (g : Given) : List Char → Except Ending Given
  | [] => .ok g
  | 'v' :: cs => do
    let g ← g.setFlag "verbose"
    readLetters g cs
  | 'h' :: _ => .error .help
  | _ => .error .usage

/-- Reads the arguments of a command. Help ends the reading where it is asked for, and so does
the first argument that does not fit. -/
def readArguments (accepted : Accepted) (g : Given) : List String → Except Ending Given
  | [] => .ok g
  | a :: rest =>
    match a.toList with
    | ['-', '-'] => rest.foldlM (fun g v => g.addPositional accepted.positionals v) g
    | '-' :: '-' :: cs =>
      let (name, value) := splitLong cs
      match accepted.options.lookup name, value, rest with
      | some passes, some value, rest => do
        let g ← g.setOption name value passes
        readArguments accepted g rest
      | some passes, none, value :: rest =>
        if isOption value then .error .usage
        else do
          let g ← g.setOption name value passes
          readArguments accepted g rest
      | some _, none, [] => .error .usage
      | none, some _, _ => .error .usage
      | none, none, rest =>
        if name ∈ accepted.flags then do
          let g ← g.setFlag name
          readArguments accepted g rest
        else if name = "help" then .error .help
        else .error .usage
    | '-' :: c :: cs => do
      let g ← readLetters g (c :: cs)
      readArguments accepted g rest
    | _ => do
      let g ← g.addPositional accepted.positionals a
      readArguments accepted g rest

def backend? : String → Option Backend
  | "ast" => some .tree
  | "sql" => some .sql
  | "mongo" => some .mongo
  | _ => none

def dialect? : String → Option Sql.Dialect
  | "postgres" => some .postgres
  | "mysql" => some .mysql
  | _ => none

/-- An unsigned number of at most 64 bits, perhaps with a plus in front. -/
def depth? (s : String) : Option Nat :=
  let digits :=
    match s.toList with
    | '+' :: cs => cs
    | cs => cs
  (Digits.read? digits).filter (· < UInt64.size)

/-- The value of an option, or a default where it is not given. -/
def optionOr (default : α) (read? : String → Option α) : Option String → Except Ending α
  | none => .ok default
  | some s =>
    match read? s with
    | some a => .ok a
    | none => .error .usage

/-- How many references a listing of field paths follows unless told. -/
def defaultDepth : Nat := 2

def anyText (_ : String) : Bool := true

/-- Options for the configuration file, the backend and the dialect. -/
def compileOptions : List (String × (String → Bool)) :=
  [("config", anyText), ("backend", fun s => (backend? s).isSome),
    ("dialect", fun s => (dialect? s).isSome)]

def fieldsOptions : List (String × (String → Bool)) :=
  [("config", anyText), ("depth", fun s => (depth? s).isSome)]

def tagsOptions : List (String × (String → Bool)) := [("config", anyText)]

/-- Help is given on the program, or on one of its commands. -/
def hasHelp (topic : List String) : Bool :=
  topic ∈ [[], ["compile"], ["fields"], ["tags"], ["help"]]

/-- The command with this name. `verbose` tells whether the flag stood before it. -/
def readCommand (verbose : Bool) (name : String) (args : List String) :
    Except Ending Invocation := do
  let flags := ["json", "verbose"]
  match name with
  | "compile" =>
    let g ← readArguments ⟨compileOptions, flags, 1⟩ {} args
    let backend ← optionOr .tree backend? (g.option? "backend")
    let dialect ← optionOr .postgres dialect? (g.option? "dialect")
    match g.positionals with
    | [query] =>
      return ⟨verbose || g.flag "verbose", g.option? "config",
        .compile backend dialect (g.flag "json") query⟩
    | _ => throw .usage
  | "fields" =>
    let g ← readArguments ⟨fieldsOptions, flags, 0⟩ {} args
    let depth ← optionOr defaultDepth depth? (g.option? "depth")
    return ⟨verbose || g.flag "verbose", g.option? "config", .fields depth (g.flag "json")⟩
  | "tags" =>
    let g ← readArguments ⟨tagsOptions, flags, 0⟩ {} args
    return ⟨verbose || g.flag "verbose", g.option? "config", .tags (g.flag "json")⟩
  | "help" => throw (if hasHelp args then .help else .usage)
  | _ => throw .usage

/-- A run of one-letter options before the command. -/
def readLeadingLetters (verbose : Bool) : List Char → Except Ending Bool
  | [] => .ok verbose
  | 'v' :: cs => if verbose then .error .usage else readLeadingLetters true cs
  | 'h' :: _ => .error .help
  | 'V' :: _ => .error .version
  | _ => .error .usage

/-- Reads the arguments before the command, and then the command. -/
def readLeading (verbose : Bool) : List String → Except Ending Invocation
  | [] => .error .usage
  | a :: rest =>
    match a.toList with
    | '-' :: '-' :: cs =>
      if cs = "verbose".toList then
        if verbose then .error .usage else readLeading true rest
      else if cs = "version".toList then .error .version
      else if cs = "help".toList then .error .help
      else .error .usage
    | '-' :: c :: cs => do
      let verbose ← readLeadingLetters verbose (c :: cs)
      readLeading verbose rest
    | _ => readCommand verbose a rest

def read (args : List String) : Except Ending Invocation := readLeading false args

end CommandLine

/-- Why a file was not read. -/
structure ReadFailure where
  code : Nat
  kind : String
  message : String
  deriving DecidableEq

def ReadFailure.notFound : ReadFailure := ⟨2, "NotFound", "No such file or directory"⟩

/-- A part of the path that should be a directory is a file. -/
def ReadFailure.notDirectory : ReadFailure := ⟨20, "NotADirectory", "Not a directory"⟩

/-- The path leads to a directory. -/
def ReadFailure.isDirectory : ReadFailure := ⟨21, "IsADirectory", "Is a directory"⟩

def ReadFailure.label (f : ReadFailure) : String :=
  Text.labelledParts "Os"
    [("code", String.ofList (Digits.write f.code)), ("kind", f.kind),
     ("message", Text.quoted f.message)]

inductive RunError where
  | noHome
  | unreadableConfig (f : ReadFailure)
  | command (e : CommandError)
  deriving DecidableEq

namespace RunError

def label : RunError → String
  | .noHome => Text.labelled "Config" [Text.quoted "Could not determine home directory"]
  | .unreadableConfig f => Text.labelled "ConfigFileRead" [f.label]
  | .command e => e.label

end RunError

/-- What a run of the program leaves behind. -/
structure Outcome where
  code : Nat
  stdout : String
  /-- The error line of a command that failed. -/
  stderr : Option String
  remarks : List Remark

namespace Outcome

def ofError (remarks : List Remark) (e : RunError) : Outcome :=
  ⟨1, "", some ("Error: " ++ e.label), remarks⟩

def ofEnding : CommandLine.Ending → Outcome
  | .usage => ⟨2, "", none, []⟩
  | .help => ⟨0, "", none, []⟩
  | .version => ⟨0, "filterc 0.1.0\n", none, []⟩

end Outcome

namespace Invocation

/-- The configuration file: the one given, else the one the environment names, else the one
in the home directory. -/
def configPath (i : Invocation) (environment home : Option String) : Option String :=
  i.config.or (environment.or (home.map (· ++ "/.filterc/filter.json")))

/-- Runs the command on a configuration. -/
def report (i : Invocation) (config : Config) : Report :=
  match i.action with
  | .compile backend dialect json query => Command.compile config query backend dialect json
  | .fields depth json => Command.fields config depth json
  | .tags json => Command.tags config json

/-- Runs the command, given where the configuration is and what reading it gave. -/
def run (i : Invocation) (path : String) (source : Except ReadFailure String) : Outcome :=
  let loading := Remark.loading path
  match source with
  | .error f => .ofError [loading] (.unreadableConfig f)
  | .ok source =>
    match Command.readConfig source with
    | (remarks, .error e) => .ofError (loading :: remarks) (.command (.config e))
    | (remarks, .ok config) =>
      let report := i.report config
      let remarks := loading :: remarks ++ report.remarks
      match report.output with
      | .error e => .ofError remarks (.command e)
      | .ok text => ⟨0, text ++ "\n", none, remarks⟩

end Invocation

/-- Runs a command line over the files that `files` gives. -/
def runCommandLine (files : String → Except ReadFailure String) (environment home : Option String)
    (args : List String) : Outcome :=
  match CommandLine.read args with
  | .error ending => .ofEnding ending
  | .ok i =>
    match i.configPath environment home with
    | none => .ofError [] .noHome
    | some path => i.run path (files path)

end FilterQuery
