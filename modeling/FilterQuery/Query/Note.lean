import FilterQuery.Text.Quoted
import FilterQuery.Value.DataType

/-!
The error that ends a compilation, and what the compiler notes on its way.
-/
namespace FilterQuery

namespace Query

/-- An operator was expected after a field. The position counts characters from 0. -/
structure CompileError where
  field : String
  /-- The character found instead; none at the end of the query. -/
  found : Option Char
  position : Nat
  deriving DecidableEq

namespace CompileError

def foundText (e : CompileError) : String :=
  match e.found with
  | none => "end of input"
  | some c => "'" ++ String.ofList [c] ++ "'"

def message (e : CompileError) : String :=
  "Expected a comparison operator after field '" ++ e.field ++ "' at position " ++
    String.ofList (Digits.write e.position) ++ ", found " ++ e.foundText

def label (e : CompileError) : String :=
  Text.labelledParts "UnexpectedOperator"
    [("field", Text.quoted e.field), ("found", Text.quoted e.foundText),
     ("position", String.ofList (Digits.write e.position))]

end CompileError

inductive Level where
  | debug | info | warn
  deriving DecidableEq, Repr

def Level.name : Level → String
  | .debug => "DEBUG"
  | .info => "INFO"
  | .warn => "WARN"

inductive Note where
  | compiling (query : String)
  | rejected (query : String) (error : CompileError)
  | malformedTag (payload : String)
  | unhandledTag (type : String)
  | unresolvedTagField (field : String)
  | unknownField (term : String)
  | nothingToSearch (term : String)
  | keptText (entity property : String) (error : ValueError)
  deriving DecidableEq

namespace Note

def level : Note → Level
  | .unresolvedTagField _ => .warn
  | .keptText _ _ _ => .warn
  | _ => .debug

def message : Note → String
  | .compiling query => "Compiling query '" ++ query ++ "'"
  | .rejected query error => "Rejected query '" ++ query ++ "': " ++ error.message
  | .malformedTag payload => "Ignoring malformed tag '" ++ payload ++ "'"
  | .unhandledTag type => "No handler for tag type '" ++ type ++ "', ignoring tag"
  | .unresolvedTagField field => "Tag field '" ++ field ++ "' does not resolve, ignoring tag"
  | .unknownField term => "'" ++ term ++ "' is not a known field, searching it as text"
  | .nothingToSearch term => "No default search fields, ignoring '" ++ term ++ "'"
  | .keptText entity property error =>
    "Keeping raw text for " ++ entity ++ "." ++ property ++ ": " ++ error.message

end Note
end Query
end FilterQuery
