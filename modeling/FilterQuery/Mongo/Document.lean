import FilterQuery.Json.Basic
import FilterQuery.Query.Factory

/-!
Filter documents of a document database. Fields of an object are in the order of their names.
-/
namespace FilterQuery.Mongo

/-- A value in extended JSON. A double that is not finite has no JSON form and becomes
null. -/
def ofValue : Value → Json
  | .int i => .number (.integer i.toInt)
  | .float x =>
    match Number.parts x with
    | .finite _ _ _ => .number (.real x)
    | _ => .null
  | .decimal d => .object [("$numberDecimal", .string (String.ofList d.write))]
  | .string s => .string s
  | .constant name => .string name
  | .boolean b => .bool b
  | .date d => .string (String.ofList d.write)
  | .timestamp t => .object [("$date", .string (String.ofList t.writeMillis))]
  | .null => .null

/-- A condition on one field. -/
def fieldCondition (field : FieldPath) (op : String) (operand : Json) : Json :=
  .object [(field.text, .object [(op, operand)])]

/-- A pattern match without regard to letter case. -/
def matching (field : FieldPath) (pattern : List Char) : Json :=
  .object [(field.text,
    .object [("$options", .string "i"), ("$regex", .string (String.ofList pattern))])]

/-- The characters with a meaning in patterns. -/
def isPatternSign (c : Char) : Bool :=
  "\\^$.|?*+()[]\x7b\x7d/".toList.contains c

/-- A word as a pattern that only the word itself matches. -/
def literalPattern (word : List Char) : List Char :=
  word.flatMap fun c => if isPatternSign c then ['\\', c] else [c]

/-- Puts `.*` for every `\*`, from the left. -/
def openStars : List Char → List Char
  | '\\' :: '*' :: cs => '.' :: '*' :: openStars cs
  | c :: cs => c :: openStars cs
  | [] => []

/-- A word as a pattern in which asterisks stand for any run of characters. -/
def globPattern (word : List Char) : List Char := openStars (literalPattern word)

def searching (field : FieldPath) (mode : SearchMode) (word : String) : Json :=
  match mode with
  | .equal => fieldCondition field "$eq" (.string word)
  | .beginning => matching field ('^' :: literalPattern word.toList)
  | .like => matching field ('^' :: globPattern word.toList ++ ['$'])
  | .contains => matching field (literalPattern word.toList)

def factory : Factory Json where
  all := fun cs => .object [("$and", .array cs)]
  any := fun cs => .object [("$or", .array cs)]
  negate := fun c => .object [("$nor", .array [c])]
  eq := fun field v => fieldCondition field "$eq" (ofValue v)
  ne := fun field v => fieldCondition field "$ne" (ofValue v)
  gt := fun field v => fieldCondition field "$gt" (ofValue v)
  ge := fun field v => fieldCondition field "$gte" (ofValue v)
  lt := fun field v => fieldCondition field "$lt" (ofValue v)
  le := fun field v => fieldCondition field "$lte" (ofValue v)
  search := searching

end FilterQuery.Mongo
