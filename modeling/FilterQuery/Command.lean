import FilterQuery.Config
import FilterQuery.Filter.CallText
import FilterQuery.Filter.Json
import FilterQuery.Mongo.Document
import FilterQuery.Query.Compiler
import FilterQuery.Sql.Statement

/-!
The commands of the program over a configuration: compiling a query for a backend, listing
field paths and listing tag types. Each gives the text that it prints.
-/
namespace FilterQuery

inductive Backend where
  /-- The filter tree. -/
  | tree
  /-- An SQL condition with parameters. -/
  | sql
  /-- A document filter. -/
  | mongo
  deriving DecidableEq, Repr

/-- The name of a backend in messages. -/
def Backend.label : Backend → String
  | .tree => "Ast"
  | .sql => "Sql"
  | .mongo => "Mongo"

inductive CommandError where
  | config (e : ConfigError)
  | compile (e : Query.CompileError)
  deriving DecidableEq

namespace CommandError

def message : CommandError → String
  | .config e => e.message
  | .compile e => "Invalid query: " ++ e.message

def label : CommandError → String
  | .config e => e.label
  | .compile e => Text.labelled "Compile" [e.label]

end CommandError

/-- What the program notes about its work. -/
inductive Remark where
  | loading (path : String)
  | configured (root : String) (searchFields tags : Nat)
  | backend (b : Backend)
  | query (n : Query.Note)
  deriving DecidableEq

namespace Remark

def level : Remark → Query.Level
  | .loading _ => .info
  | .configured _ _ _ => .debug
  | .backend _ => .info
  | .query n => n.level

def message : Remark → String
  | .loading path => "Loading filter configuration from " ++ path
  | .configured root searchFields tags =>
    "Configuration for '" ++ root ++ "' has " ++ String.ofList (Digits.write searchFields) ++
      " search fields and " ++ String.ofList (Digits.write tags) ++ " tags"
  | .backend b => "Compiling query for the " ++ b.label ++ " backend"
  | .query n => n.message

/-- A remark as a line of a log. -/
def line (r : Remark) : String := r.level.name ++ " " ++ r.message

end Remark

/-- What a command prints, and its remarks in order. -/
structure Report where
  remarks : List Remark
  output : Except CommandError String

namespace Command

/-- Reads a configuration. One that is accepted is remarked on. -/
def readConfig (source : String) : List Remark × Except ConfigError Config :=
  match Config.read source with
  | .error e => ([], .error e)
  | .ok c => ([.configured c.root c.searchFields.length c.tags.size], .ok c)

/-- Compiles a query with the factory of a backend. -/
def compileWith (F : Factory C) (config : Config) (query : String) :
    List Remark × Except CommandError (Option C) :=
  match config.rootEntity with
  | .error e => ([], .error (.config e))
  | .ok root =>
    let run := Query.compile F ⟨config.schema, root, config.searchFields, config.tagRegistry⟩ query
    (run.notes.map .query, run.result.mapError .compile)

/-- The text for a query that asks for nothing. -/
def noConstraint : String := "(no constraint)"

def printTree (json : Bool) (t : Option FilterTree) : String :=
  if json then ((t.map FilterTree.toJson).getD .null).pretty
  else (t.map FilterTree.display).getD noConstraint

def printStatement (json : Bool) (s : Option Sql.Statement) : String :=
  if json then ((s.map Sql.Statement.toJson).getD .null).pretty
  else (s.map Sql.Statement.display).getD noConstraint

/-- A document filter is always printed as JSON. The empty one matches everything. -/
def printDocument (d : Option Json) : String := (d.getD (.object [])).pretty

/-- One entry a line, or a JSON array. -/
def printList (json : Bool) (items : List String) : String :=
  if json then (Json.array (items.map .string)).pretty else "\n".intercalate items

/-- Compiles a query and prints the result of one backend. The dialect matters for SQL. -/
def compile (config : Config) (query : String) (backend : Backend) (dialect : Sql.Dialect)
    (json : Bool) : Report :=
  match backend with
  | .tree =>
    let (remarks, result) := compileWith FilterTree.factory config query
    ⟨.backend backend :: remarks, result.map (printTree json)⟩
  | .sql =>
    let (remarks, result) := compileWith Sql.Condition.factory config query
    ⟨.backend backend :: remarks,
      result.map fun c => printStatement json (c.map (Sql.Statement.render dialect))⟩
  | .mongo =>
    let (remarks, result) := compileWith Mongo.factory config query
    ⟨.backend backend :: remarks, result.map printDocument⟩

/-- Lists the field paths of the root entity. -/
def fields (config : Config) (depth : Nat) (json : Bool) : Report :=
  ⟨[], (config.rootEntity.mapError .config).map fun root =>
    printList json (config.schema.fieldPaths depth root)⟩

/-- Lists the registered tag types. -/
def tags (config : Config) (json : Bool) : Report :=
  ⟨[], .ok (printList json config.tagRegistry.types)⟩

end Command
end FilterQuery
