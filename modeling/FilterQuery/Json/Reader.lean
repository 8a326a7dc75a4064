import FilterQuery.Json.Scanner

/-!
From tokens to JSON values, by a machine whose stack holds the arrays and objects that are
still open.
-/
namespace FilterQuery.Json

/-- An open container that waits for a value: an array with its items so far, or an object
with its fields so far and the name the value belongs to. Latest first; a name that denotes
nothing is `none`. -/
inductive Frame where
  | items (done : List Json)
  | field (done : List (Option FieldName × Json)) (name : Option FieldName)

/-- What may come next. -/
inductive State where
  | awaitValue (stack : List Frame)
  | openedArray (stack : List Frame)
  | afterItem (done : List Json) (stack : List Frame)
  | openedObject (stack : List Frame)
  | awaitName (done : List (Option FieldName × Json)) (stack : List Frame)
  | awaitColon (done : List (Option FieldName × Json)) (name : Option FieldName) (stack : List Frame)
  | afterField (done : List (Option FieldName × Json)) (stack : List Frame)
  | finished (value : Json)

/-- Hands a complete value to the container around it. -/
def give (value : Json) : List Frame → State
  | [] => .finished value
  | .items done :: stack => .afterItem (value :: done) stack
  | .field done name :: stack => .afterField ((name, value) :: done) stack

/-- The object with these fields. If one name denotes nothing, neither does the object. -/
def ofFields (fields : List (Option FieldName × Json)) : Json :=
  let named? : Option (List (FieldName × Json)) := fields.mapM fun f => f.1.map fun name => (name, f.2)
  (named?.map Json.object).getD .unreadable

/-- The first token of a value. -/
def startValue (stack : List Frame) : Token → Option State
  | .null => some (give .null stack)
  | .bool b => some (give (.bool b) stack)
  | .number n => some (give (.number n) stack)
  | .string s _ => some (give (.string s) stack)
  | .unreadableNumber => some (give .unreadable stack)
  | .unreadableString => some (give .unreadable stack)
  | .openArray => some (.openedArray stack)
  | .openObject => some (.openedObject stack)
  | _ => none

def readName (done : List (Option FieldName × Json)) (stack : List Frame) : Token → Option State
  | .string s escaped => some (.awaitColon done (some ⟨s, escaped⟩) stack)
  | .unreadableString => some (.awaitColon done none stack)
  | _ => none

def step : State → Token → Option State
  | .awaitValue stack, t => startValue stack t
  | .openedArray stack, .closeArray => some (give (.array []) stack)
  | .openedArray stack, t => startValue (.items [] :: stack) t
  | .afterItem done stack, .comma => some (.awaitValue (.items done :: stack))
  | .afterItem done stack, .closeArray => some (give (.array done.reverse) stack)
  | .openedObject stack, .closeObject => some (give (.object []) stack)
  | .openedObject stack, t => readName [] stack t
  | .awaitName done stack, t => readName done stack t
  | .awaitColon done name stack, .colon => some (.awaitValue (.field done name :: stack))
  | .afterField done stack, .comma => some (.awaitName done stack)
  | .afterField done stack, .closeObject => some (give (ofFields done.reverse) stack)
  | _, _ => none

def ofTokens? (ts : List Token) : Option Json :=
  match ts.foldlM step (.awaitValue []) with
  | some (.finished value) => some value
  | _ => none

/-- Reads a text that holds one value. -/
def read? (s : String) : Option Json := (scan s.toList).bind ofTokens?

end FilterQuery.Json
