import FilterQuery.Json.Basic

/-!
How JSON values stand for lists, records and variants. A record is an object in which no
known field repeats and unknown fields are passed over, or an array of its fields in order,
of which the last may be missing. A variant is its name, or an object with that name as its
only field.
-/
namespace FilterQuery.Json

def string? : Json → Option String
  | .string s => some s
  | _ => none

def bool? : Json → Option Bool
  | .bool b => some b
  | _ => none

def items? : Json → Option (List Json)
  | .array items => some items
  | _ => none

def fields? : Json → Option (List (FieldName × Json))
  | .object fields => some fields
  | _ => none

def list? (item? : Json → Option α) (j : Json) : Option (List α) := j.items?.bind (·.mapM item?)

/-- The value of a field that may be missing and may not repeat. -/
def uniqueField? (fields : List (FieldName × Json)) (name : String) : Option (Option Json) :=
  match fields.filter (·.1.text = name) with
  | [] => some none
  | [f] => some (some f.2)
  | _ => none

/-- The values of the named fields in order; `none` for a field that is missing. -/
def record? (names : List String) : Json → Option (List (Option Json))
  | .object fields => names.mapM (uniqueField? fields)
  | .array items =>
    if items.length ≤ names.length then
      some (items.map some ++ List.replicate (names.length - items.length) none)
    else none
  | _ => none

/-- The name of a variant and what it carries. -/
def variant? : Json → Option (String × Option Json)
  | .string name => some (name, none)
  | .object [(name, j)] => some (name.text, some j)
  | _ => none

/-- A variant that carries nothing. Its object form has `null` for a value. -/
def plainVariant? (j : Json) : Option String :=
  match j.variant? with
  | some (name, none) => some name
  | some (name, some .null) => some name
  | _ => none

/-- Reads a field that has a default. -/
def orDefault (value : α) (read? : Json → Option α) : Option Json → Option α
  | none => some value
  | some j => read? j

end FilterQuery.Json
