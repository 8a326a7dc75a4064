import FilterQuery.Filter.Tree
import FilterQuery.Json.Printer
import FilterQuery.Json.Reader
import FilterQuery.Value.Json

/-!
The JSON form of filter trees. Every node is an object with its kind beside its parts. A node
is also read from an array that starts with the kind; inside another node the kind may be
given by its number.
-/
namespace FilterQuery.FilterTree

mutual

def toJson : FilterTree → Json
  | .all children => .object [("kind", .string "and"), ("children", .array (toJsonList children))]
  | .any children => .object [("kind", .string "or"), ("children", .array (toJsonList children))]
  | .negate child => .object [("kind", .string "not"), ("child", toJson child)]
  | .compare field op value =>
    .object [("kind", .string "compare"), ("field", .string field.text),
      ("operator", .string op.name), ("value", value.toJson)]
  | .search field mode word =>
    .object [("kind", .string "search"), ("field", .string field.text),
      ("mode", .string mode.name), ("word", .string word)]

def toJsonList : List FilterTree → List Json
  | [] => []
  | t :: ts => toJson t :: toJsonList ts

end

inductive Kind where
  | all | any | negate | compare | search
  deriving DecidableEq, Repr

def Kind.ofName? : String → Option Kind
  | "and" => some .all
  | "or" => some .any
  | "not" => some .negate
  | "compare" => some .compare
  | "search" => some .search
  | _ => none

def Kind.ofNumber? : Int → Option Kind
  | 0 => some .all
  | 1 => some .any
  | 2 => some .negate
  | 3 => some .compare
  | 4 => some .search
  | _ => none

/-- The kind of a node; `inner` tells whether another node holds it. -/
def Kind.ofJson? (inner : Bool) : Json → Option Kind
  | .string name => ofName? name
  | .number (.integer i) => if inner then ofNumber? i else none
  | _ => none

/-- A node's kind, and the object or array of its parts. -/
def splitKind? (inner : Bool) : Json → Option (Kind × Json)
  | .object fields =>
    match fields.filter (·.1.text = "kind") with
    | [(_, kind)] =>
      (Kind.ofJson? inner kind).map fun k => (k, .object (fields.filter (·.1.text ≠ "kind")))
    | _ => none
  | .array (kind :: parts) => (Kind.ofJson? inner kind).map fun k => (k, .array parts)
  | _ => none

/-- The name of a variant that carries nothing: `null` or an empty object may stand for the
nothing. -/
def emptyVariant? (j : Json) : Option String :=
  match j.variant? with
  | some (name, none) => some name
  | some (name, some .null) => some name
  | some (name, some (.object [])) => some name
  | _ => none

def compareOfJson? (parts : Json) : Option FilterTree :=
  match parts.record? ["field", "operator", "value"] with
  | some [some field, some op, some value] => do
    let field ← field.string?
    let op ← (emptyVariant? op).bind Operator.ofName?
    let value ← Value.ofJson? value
    return .compare ⟨field⟩ op value
  | _ => none

def searchOfJson? (parts : Json) : Option FilterTree :=
  match parts.record? ["field", "mode", "word"] with
  | some [some field, some mode, some word] => do
    let field ← field.string?
    let mode ← (emptyVariant? mode).bind SearchMode.ofName?
    let word ← word.string?
    return .search ⟨field⟩ mode word
  | _ => none

/-- Reads a tree of at most `levels` nested nodes. -/
def ofJsonWithin? : Nat → Bool → Json → Option FilterTree
  | 0, _, _ => none
  | levels + 1, inner, j => do
    let (kind, parts) ← splitKind? inner j
    match kind with
    | .all =>
      match parts.record? ["children"] with
      | some [some children] => (children.list? (ofJsonWithin? levels true)).map .all
      | _ => none
    | .any =>
      match parts.record? ["children"] with
      | some [some children] => (children.list? (ofJsonWithin? levels true)).map .any
      | _ => none
    | .negate =>
      match parts.record? ["child"] with
      | some [some child] => (ofJsonWithin? levels true child).map .negate
      | _ => none
    | .compare => compareOfJson? parts
    | .search => searchOfJson? parts

/-- Containers of a document may be nested this deep. -/
def depthLimit : Nat := 127

/-- Reads a tree. Every part of the document has to denote something, also one that is
passed over. -/
def ofJson? (j : Json) : Option FilterTree :=
  if j.isReadable && j.depth ≤ depthLimit then ofJsonWithin? (depthLimit + 1) false j else none

def read? (source : String) : Option FilterTree := (Json.read? source).bind ofJson?

end FilterQuery.FilterTree
