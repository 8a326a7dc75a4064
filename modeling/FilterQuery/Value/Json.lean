import FilterQuery.Json.Shape
import FilterQuery.Value.DataType

/-!
The JSON form of values and of data types.
-/
namespace FilterQuery

namespace Value

/-- The field name that stands for the kind of a value. -/
def toJson : Value → Json
  | .int i => .object [("Int", .number (.integer i.toInt))]
  | .float x => .object [("Float", .number (.real x))]
  | .decimal d => .object [("Decimal", .string (String.ofList d.write))]
  | .string s => .object [("String", .string s)]
  | .boolean b => .object [("Boolean", .bool b)]
  | .date d => .object [("Date", .string (String.ofList d.write))]
  | .timestamp t => .object [("Timestamp", .string (String.ofList t.writeZulu))]
  | .constant name => .object [("Enum", .string name)]
  | .null => .string "Null"

def floatOfJson? : Json → Option Float
  | .number (.integer i) => some (if i < 0 then -Float.ofNat i.natAbs else Float.ofNat i.natAbs)
  | .number (.real x) => some x
  | _ => none

/-- The reserved name of the only field of an object that stands for the number in it. -/
def numberName : FieldName := "$serde_json::private::Number"

/-- A decimal is written as a text. Numbers are read as well, by their exact value, and so is
an object that stands for a number. -/
def decimalOfJson? : Json → Option Decimal
  | .string s => Decimal.read? s.toList
  | .number (.integer i) => some (Decimal.ofInt i)
  | .number (.real x) => Decimal.ofFloat? x
  | .object [(name, j)] => if name = numberName then decimalOfJson? j else none
  | _ => none

def intOfJson? : Json → Option Int64
  | .number (.integer i) => Digits.int64? i
  | _ => none

/-- What a value's name carries, by the name. -/
def ofNamedJson? (name : String) (j : Json) : Option Value :=
  match name with
  | "Int" => (intOfJson? j).map .int
  | "Float" => (floatOfJson? j).map .float
  | "Decimal" => (decimalOfJson? j).map .decimal
  | "String" => j.string?.map .string
  | "Boolean" => j.bool?.map .boolean
  | "Date" => (j.string?.bind fun s => Date.readTolerant? s.toList).map .date
  | "Timestamp" => (j.string?.bind fun s => Timestamp.readTolerant? s.toList).map .timestamp
  | "Enum" => j.string?.map .constant
  | "Null" =>
    match j with
    | .null => some .null
    | .object [] => some .null
    | _ => none
  | _ => none

def ofJson? (j : Json) : Option Value :=
  match j.variant? with
  | some ("Null", none) => some .null
  | some (name, some payload) => ofNamedJson? name payload
  | _ => none

end Value

namespace DataType

def toJson : DataType → Json
  | .enumeration constants => .object [("enum", .array (constants.map .string))]
  | t => .string t.name

def ofName? : String → Option DataType
  | "string" => some .string
  | "int" => some .int
  | "float" => some .float
  | "decimal" => some .decimal
  | "boolean" => some .boolean
  | "date" => some .date
  | "timestamp" => some .timestamp
  | _ => none

def ofJson? (j : Json) : Option DataType :=
  match j.variant? with
  | some ("enum", some constants) => (constants.list? Json.string?).map .enumeration
  | _ => j.plainVariant?.bind ofName?

end DataType
end FilterQuery
