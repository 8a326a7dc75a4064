import FilterQuery.Calendar.Timestamp
import FilterQuery.Number.Decimal
import FilterQuery.Number.FloatText

/-!
The values that fields are compared with, and their text.
-/
namespace FilterQuery

inductive Value where
  | int (i : Int64)
  | float (x : Float)
  | decimal (d : Decimal)
  | string (s : String)
  | boolean (b : Bool)
  | date (d : Date)
  | timestamp (t : Timestamp)
  /-- A constant of an enumeration. -/
  | constant (name : String)
  | null
  deriving DecidableEq

/-- Quotes a text with apostrophes. Those inside get a backslash in front. -/
def apostrophed (s : String) : String :=
  String.ofList ('\'' :: s.toList.flatMap (fun c => if c = '\'' then ['\\', c] else [c]) ++ ['\''])

namespace Value

def isNull : Value → Bool
  | .null => true
  | _ => false

/-- The bare text of a value; null has none. -/
def text? : Value → Option String
  | .int i => some (String.ofList (Digits.writeInt64 i))
  | .float x => some (String.ofList (Number.floatText x))
  | .decimal d => some (String.ofList d.write)
  | .string s => some s
  | .boolean b => some (if b then "true" else "false")
  | .date d => some (String.ofList d.write)
  | .timestamp t => some (String.ofList t.write)
  | .constant name => some name
  | .null => none

/-- The text of a value in messages and listings. -/
def display : Value → String
  | .string s => apostrophed s
  | .constant name => apostrophed name
  | v => v.text?.getD "null"

end Value
end FilterQuery
