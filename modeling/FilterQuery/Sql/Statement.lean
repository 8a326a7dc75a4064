import FilterQuery.Json.Printer
import FilterQuery.Sql.Condition
import FilterQuery.Sql.Dialect
import FilterQuery.Value.Json

/-!
The text of SQL conditions. Values do not appear in it: each leaves a placeholder and is
listed as a parameter, in the order of the text.
-/
namespace FilterQuery.Sql

/-- A piece of text with the parameters of its placeholders. -/
structure Fragment where
  text : List Char
  params : List Value
  deriving DecidableEq

namespace Fragment

def ofText (text : List Char) : Fragment := ⟨text, []⟩

def append (a b : Fragment) : Fragment := ⟨a.text ++ b.text, a.params ++ b.params⟩

instance : Append Fragment := ⟨append⟩

@[simp] theorem text_append (a b : Fragment) : (a ++ b).text = a.text ++ b.text := rfl
@[simp] theorem params_append (a b : Fragment) : (a ++ b).params = a.params ++ b.params := rfl

end Fragment

/-- Whether a condition needs parentheses inside another one: it joins several others. -/
def Condition.isGroup : Condition → Bool
  | .all children => 1 < children.length
  | .any children => 1 < children.length
  | _ => false

def Column.write (d : Dialect) (c : Column) : List Char :=
  match c.qualifier with
  | none => d.quote c.name
  | some q => d.quote q ++ '.' :: d.quote c.name

def parenthesize (needed : Bool) (f : Fragment) : Fragment :=
  if needed then .ofText ['('] ++ f ++ .ofText [')'] else f

mutual

/-- The text of a condition, when `index` parameters stand before it. -/
def Condition.render (d : Dialect) (index : Nat) : Condition → Fragment
  | .column c => .ofText (c.write d)
  | .value v => ⟨d.placeholder index, [v]⟩
  | .comparison left op right =>
    let l := Condition.render d index left
    l ++ .ofText (' ' :: op.symbol.toList ++ [' ']) ++
      Condition.render d (index + l.params.length) right
  | .like child pattern =>
    let l := Condition.render d index child
    l ++ .ofText (' ' :: d.likeOperator.toList ++ [' ']) ++
      Condition.render d (index + l.params.length) pattern
  | .isNull child negated =>
    Condition.render d index child ++
      .ofText (if negated then " IS NOT NULL" else " IS NULL").toList
  | .all children => renderList d " AND ".toList index children
  | .any children => renderList d " OR ".toList index children
  | .negate child =>
    .ofText "NOT ".toList ++ parenthesize child.isGroup (Condition.render d index child)

/-- The texts of joined conditions with a word between them. -/
def renderList (d : Dialect) (separator : List Char) (index : Nat) : List Condition → Fragment
  | [] => .ofText []
  | [c] => parenthesize c.isGroup (Condition.render d index c)
  | c :: cs =>
    let first := parenthesize c.isGroup (Condition.render d index c)
    first ++ .ofText separator ++ renderList d separator (index + first.params.length) cs

end

/-- A rendered condition with the values to bind, in order. -/
structure Statement where
  sql : String
  params : List Value
  deriving DecidableEq

namespace Statement

def render (d : Dialect) (c : Condition) : Statement :=
  let f := c.render d 0
  ⟨String.ofList f.text, f.params⟩

def toJson (s : Statement) : Json :=
  .object [("sql", .string s.sql), ("params", .array (s.params.map Value.toJson))]

/-- The statement, and a comment line for each value. -/
def display (s : Statement) : String :=
  "\n".intercalate
    (s.sql ::
      s.params.zipIdx.map fun (v, i) =>
        "-- " ++ String.ofList (Digits.write (i + 1)) ++ ": " ++ v.display)

end Statement
end FilterQuery.Sql
