import FilterQuery.CommandLine

/-!
The program. It reads the configuration file that its arguments ask for, prints the result,
and writes remarks and errors to the error stream.
-/
namespace FilterQuery

def usage : String :=
  "Usage: filterc [-v] compile [--config FILE] [--backend ast|sql|mongo] " ++
    "[--dialect postgres|mysql] [--json] QUERY\n" ++
    "       filterc [-v] fields [--config FILE] [--depth N] [--json]\n" ++
    "       filterc [-v] tags [--config FILE] [--json]\n"

/-- Why the system did not give the contents of a file. -/
def ReadFailure.ofError (e : IO.Error) : ReadFailure :=
  match e with
  | .noFileOrDirectory _ _ _ => .notFound
  | .inappropriateType _ code _ =>
    if code.toNat = ReadFailure.isDirectory.code then .isDirectory else .notDirectory
  | .permissionDenied _ code details => ⟨code.toNat, "PermissionDenied", details⟩
  | e => ⟨0, "Other", toString e⟩

def readSource (path : String) : IO (Except ReadFailure String) := do
  try
    return .ok (← IO.FS.readFile path)
  catch e =>
    return .error (.ofError e)

/-- Prints what a run leaves behind. Without `verbose` only warnings are shown. -/
def Outcome.print (o : Outcome) (verbose : Bool) : IO UInt32 := do
  for r in o.remarks do
    if verbose || r.level == .warn then IO.eprintln r.line
  IO.print o.stdout
  if let some line := o.stderr then IO.eprintln line
  return o.code.toUInt32

end FilterQuery

open FilterQuery

def main (args : List String) : IO UInt32 := do
  match CommandLine.read args with
  | .error ending => do
    match ending with
    | .usage => IO.eprint usage
    | .help => IO.print usage
    | .version => pure ()
    Outcome.print (.ofEnding ending) false
  | .ok i => do
    match i.configPath (← IO.getEnv "FILTERC_CONFIG") (← IO.getEnv "HOME") with
    | none => (Outcome.ofError [] .noHome).print i.verbose
    | some path => (i.run path (← readSource path)).print i.verbose
