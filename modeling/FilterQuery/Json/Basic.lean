/-!
JSON values and the tokens of their text.
-/
namespace FilterQuery

/-- A number as a document gives it. Integers of at most 64 bits keep their value. -/
inductive Numeral where
  | integer (i : Int)
  | real (x : Float)
  deriving DecidableEq

/-- The name of a field, and whether the text of the document has escapes in it. -/
structure FieldName where
  text : String
  escaped : Bool
  deriving DecidableEq, Repr

/-- A text as a name that is written without escapes. -/
instance : Coe String FieldName := ⟨fun text => ⟨text, false⟩⟩

/-- A JSON value. The fields of an object keep their order and may repeat a name. -/
inductive Json where
  | null
  | bool (b : Bool)
  | number (n : Numeral)
  | string (s : String)
  | array (items : List Json)
  | object (fields : List (FieldName × Json))
  /-- A value that is well formed and denotes nothing, such as half of a surrogate pair or
  a number beyond all doubles. It may be skipped and not be used. -/
  | unreadable

namespace Json

inductive Token where
  | openArray | closeArray | openObject | closeObject | comma | colon
  | null
  | bool (b : Bool)
  | number (n : Numeral)
  /-- A text, and whether it is written with escapes. -/
  | string (s : String) (escaped : Bool)
  /-- A number that denotes nothing. -/
  | unreadableNumber
  /-- A string that denotes nothing. -/
  | unreadableString
  deriving DecidableEq

mutual

/-- How many arrays and objects lie around the innermost value, its own included. -/
def depth : Json → Nat
  | .array items => depthItems items + 1
  | .object fields => depthFields fields + 1
  | _ => 0

def depthItems : List Json → Nat
  | [] => 0
  | j :: js => max (depth j) (depthItems js)

def depthFields : List (FieldName × Json) → Nat
  | [] => 0
  | (_, j) :: fs => max (depth j) (depthFields fs)

end

mutual

/-- Whether every part of the value denotes something. -/
def isReadable : Json → Bool
  | .array items => readableItems items
  | .object fields => readableFields fields
  | .unreadable => false
  | _ => true

def readableItems : List Json → Bool
  | [] => true
  | j :: js => isReadable j && readableItems js

def readableFields : List (FieldName × Json) → Bool
  | [] => true
  | (_, j) :: fs => isReadable j && readableFields fs

end

end Json
end FilterQuery
