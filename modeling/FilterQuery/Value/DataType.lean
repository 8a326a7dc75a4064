import FilterQuery.Calendar.Format
import FilterQuery.Text.Lower
import FilterQuery.Text.Quoted
import FilterQuery.Value.Basic

/-!
The types of fields, and how each reads the text of a value.
-/
namespace FilterQuery

inductive DataType where
  | string | int | float | decimal | boolean | date | timestamp
  | enumeration (constants : List String)
  deriving DecidableEq

/-- Why a text is no value of a type. -/
inductive ValueError where
  | unconvertible (raw : String) (expected : DataType)
  | unknownConstant (raw : String) (allowed : List String)
  deriving DecidableEq

namespace DataType

def name : DataType → String
  | .string => "string"
  | .int => "int"
  | .float => "float"
  | .decimal => "decimal"
  | .boolean => "boolean"
  | .date => "date"
  | .timestamp => "timestamp"
  | .enumeration constants => "enum(" ++ "|".intercalate constants ++ ")"

/-- The name of a type in error messages. -/
def label : DataType → String
  | .string => "String"
  | .int => "Int"
  | .float => "Float"
  | .decimal => "Decimal"
  | .boolean => "Boolean"
  | .date => "Date"
  | .timestamp => "Timestamp"
  | .enumeration constants => "Enum(" ++ Text.quotedList constants ++ ")"

/-- A truth value has three spellings, in any case. -/
def readBoolean? (s : String) : Option Bool :=
  let s := Text.lower s
  if s = "true" ∨ s = "1" ∨ s = "yes" then some true
  else if s = "false" ∨ s = "0" ∨ s = "no" then some false
  else none

/-- The value a trimmed text denotes, for the types other than texts and enumerations. -/
def readTrimmed? (t : DataType) (s : String) : Option Value :=
  match t with
  | .int => (Digits.readInt64? s.toList).map .int
  | .float => (Number.readFloat? s.toList).map .float
  | .decimal => (Decimal.read? s.toList).map .decimal
  | .boolean => (readBoolean? s).map .boolean
  | .date => (Date.read? s.toList).map .date
  | .timestamp => (Timestamp.read? s.toList).map .timestamp
  | _ => none

/-- The value a text denotes. A text stands for itself, and of an enumeration the first
constant that is the same up to ASCII case is taken. -/
def read (t : DataType) (raw : String) : Except ValueError Value :=
  match t with
  | .string => .ok (.string raw)
  | .enumeration constants =>
    match constants.find? (Text.sameIgnoringAsciiCase · (Text.trim raw)) with
    | some name => .ok (.constant name)
    | none => .error (.unknownConstant raw constants)
  | t =>
    match t.readTrimmed? (Text.trim raw) with
    | some v => .ok v
    | none => .error (.unconvertible raw t)

end DataType

def ValueError.message : ValueError → String
  | .unconvertible raw expected => "Cannot convert '" ++ raw ++ "' to " ++ expected.label
  | .unknownConstant raw allowed => "'" ++ raw ++ "' is not one of " ++ Text.quotedList allowed

end FilterQuery
