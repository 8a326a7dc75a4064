import FilterQuery.Proofs.Sql.Token

/-!
A parser of SQL conditions. Comparisons, pattern matches and null tests bind tighter than NOT,
NOT tighter than AND, and AND tighter than OR. It reads a template, a condition with
placeholders for its values, and the values are filled in afterwards.
-/
namespace FilterQuery.Sql

/-- A condition with placeholders in place of its values. -/
inductive Template where
  | column (c : Column)
  | parameter (number : Option Nat)
  | comparison (left : Template) (op : Operator) (right : Template)
  | like (child pattern : Template)
  | isNull (child : Template) (negated : Bool)
  | all (children : List Template)
  | any (children : List Template)
  | negate (child : Template)

/-- Several parts joined; a single part stands for itself. -/
def group {α : Type} (join : List α → α) : List α → α
  | [part] => part
  | parts => join parts

def takeColumn : List Token → Option (Column × List Token)
  | .identifier q :: .point :: .identifier name :: ts => some (⟨some q, name⟩, ts)
  | .identifier name :: ts => some (⟨none, name⟩, ts)
  | _ => none

def takeOperand : List Token → Option (Template × List Token)
  | .parameter number :: ts => some (.parameter number, ts)
  | ts => (takeColumn ts).map fun (c, ts) => (.column c, ts)

/-- Takes what stands after the left operand of a leaf. -/
def takePredicate (left : Template) : List Token → Option (Template × List Token)
  | .operator op :: ts => (takeOperand ts).map fun (right, ts) => (.comparison left op right, ts)
  | .like :: ts => (takeOperand ts).map fun (pattern, ts) => (.like left pattern, ts)
  | .is :: .null :: ts => some (.isNull left false, ts)
  | .is :: .not :: .null :: ts => some (.isNull left true, ts)
  | _ => none

def takeLeaf (ts : List Token) : Option (Template × List Token) :=
  (takeOperand ts).bind fun (left, ts) => takePredicate left ts

mutual

/-- Takes alternatives between `OR`s. The guard states for the recursion that each takes
something off the tokens. -/
def takeAny (ts : List Token) : Option (List Template × List Token) :=
  match takeAll ts with
  | none => none
  | some (parts, .or :: rest) =>
    if _shorter : rest.length < ts.length then
      (takeAny rest).map fun (others, rest) => (group .all parts :: others, rest)
    else none
  | some (parts, rest) => some ([group .all parts], rest)
termination_by (ts.length, 2)
decreasing_by
  · exact Prod.Lex.right _ (by decide)
  · exact Prod.Lex.left _ _ _shorter

/-- Takes units between `AND`s, with the same guard. -/
def takeAll (ts : List Token) : Option (List Template × List Token) :=
  match takeUnit ts with
  | none => none
  | some (part, .and :: rest) =>
    if _shorter : rest.length < ts.length then
      (takeAll rest).map fun (others, rest) => (part :: others, rest)
    else none
  | some (part, rest) => some ([part], rest)
termination_by (ts.length, 1)
decreasing_by
  · exact Prod.Lex.right _ (by decide)
  · exact Prod.Lex.left _ _ _shorter

def takeUnit : List Token → Option (Template × List Token)
  | .not :: ts => (takeUnit ts).map fun (part, rest) => (.negate part, rest)
  | .opening :: ts =>
    match takeAny ts with
    | some (parts, .closing :: rest) => some (group .any parts, rest)
    | _ => none
  | ts => takeLeaf ts
termination_by ts => (ts.length, 0)
decreasing_by
  · exact Prod.Lex.left _ _ (Nat.lt_succ_self _)
  · exact Prod.Lex.left _ _ (Nat.lt_succ_self _)

end

variable {ts rest after : List Token} {t : Template} {parts others : List Template}

theorem takeAll_last (h : takeUnit ts = some (t, rest)) (hr : rest.head? ≠ some .and) :
    takeAll ts = some ([t], rest) := by
  rw [takeAll, h]
  split
  · simp_all
  · simp_all
  · simp_all

theorem takeAll_and (h : takeUnit ts = some (t, .and :: rest)) (hl : rest.length < ts.length)
    (hn : takeAll rest = some (others, after)) : takeAll ts = some (t :: others, after) := by
  rw [takeAll, h]
  simp [hl, hn]

theorem takeAny_last (h : takeAll ts = some (parts, rest)) (hr : rest.head? ≠ some .or) :
    takeAny ts = some ([group .all parts], rest) := by
  rw [takeAny, h]
  split
  · simp_all
  · simp_all
  · simp_all

theorem takeAny_or (h : takeAll ts = some (parts, .or :: rest)) (hl : rest.length < ts.length)
    (hn : takeAny rest = some (others, after)) :
    takeAny ts = some (group .all parts :: others, after) := by
  rw [takeAny, h]
  simp [hl, hn]

theorem takeUnit_not (h : takeUnit ts = some (t, rest)) :
    takeUnit (.not :: ts) = some (.negate t, rest) := by
  rw [takeUnit, h]
  rfl

theorem takeUnit_opening (h : takeAny ts = some (parts, .closing :: rest)) :
    takeUnit (.opening :: ts) = some (group .any parts, rest) := by
  rw [takeUnit, h]

/-- A column starts a leaf. -/
theorem takeUnit_column (c : Column) (hp : ts.head? ≠ some .point) :
    takeUnit (c.tokens ++ ts) = takePredicate (.column c) ts := by
  have hc : takeColumn (c.tokens ++ ts) = some (c, ts) := by
    obtain ⟨qualifier, name⟩ := c
    cases qualifier with
    | some q => rfl
    | none =>
      rw [Column.tokens, List.singleton_append, takeColumn]
      intro q us he
      rw [he] at hp
      exact hp rfl
  obtain ⟨name, us, he⟩ : ∃ name us, c.tokens ++ ts = .identifier name :: us := by
    rw [Column.tokens]
    cases c.qualifier <;> exact ⟨_, _, rfl⟩
  rw [he] at hc ⊢
  have ho : takeOperand (.identifier name :: us) = some (.column c, ts) := by
    simp [takeOperand, hc]
  simp [takeUnit, takeLeaf, ho]

/-- Reads a whole list of tokens as one condition. -/
def parse (ts : List Token) : Option Template :=
  match takeAny ts with
  | some (parts, []) => some (group .any parts)
  | _ => none

/-- The value of a placeholder with `index` others before it: the one with its number, counted
from 1, or the next one if it has no number. -/
def parameter? (params : List Value) (index : Nat) : Option Nat → Option Value
  | none => params[index]?
  | some 0 => none
  | some (n + 1) => params[n]?

mutual

/-- Puts values in place of placeholders, and counts the placeholders so far. -/
def Template.fill (params : List Value) (index : Nat) : Template → Option (Condition × Nat)
  | .column c => some (.column c, index)
  | .parameter number => (parameter? params index number).map fun v => (.value v, index + 1)
  | .comparison left op right => do
    let (left, index) ← Template.fill params index left
    let (right, index) ← Template.fill params index right
    return (.comparison left op right, index)
  | .like child pattern => do
    let (child, index) ← Template.fill params index child
    let (pattern, index) ← Template.fill params index pattern
    return (.like child pattern, index)
  | .isNull child negated =>
    (Template.fill params index child).map fun (child, index) => (.isNull child negated, index)
  | .all children =>
    (fillList params index children).map fun (children, index) => (.all children, index)
  | .any children =>
    (fillList params index children).map fun (children, index) => (.any children, index)
  | .negate child =>
    (Template.fill params index child).map fun (child, index) => (.negate child, index)

def fillList (params : List Value) (index : Nat) :
    List Template → Option (List Condition × Nat)
  | [] => some ([], index)
  | t :: ts => do
    let (c, index) ← Template.fill params index t
    let (cs, index) ← fillList params index ts
    return (c :: cs, index)

end

mutual

/-- The values of a condition, in order. -/
def Condition.values : Condition → List Value
  | .column _ => []
  | .value v => [v]
  | .comparison left _ right => Condition.values left ++ Condition.values right
  | .like child pattern => Condition.values child ++ Condition.values pattern
  | .isNull child _ => Condition.values child
  | .all children => valuesList children
  | .any children => valuesList children
  | .negate child => Condition.values child

def valuesList : List Condition → List Value
  | [] => []
  | c :: cs => Condition.values c ++ valuesList cs

end

mutual

/-- The condition with placeholders for its values, when `index` values stand before it. -/
def Condition.template (d : Dialect) (index : Nat) : Condition → Template
  | .column c => .column c
  | .value _ => .parameter (d.number index)
  | .comparison left op right =>
    .comparison (Condition.template d index left) op
      (Condition.template d (index + left.values.length) right)
  | .like child pattern =>
    .like (Condition.template d index child)
      (Condition.template d (index + child.values.length) pattern)
  | .isNull child negated => .isNull (Condition.template d index child) negated
  | .all children => .all (templateList d index children)
  | .any children => .any (templateList d index children)
  | .negate child => .negate (Condition.template d index child)

def templateList (d : Dialect) (index : Nat) : List Condition → List Template
  | [] => []
  | c :: cs =>
    Condition.template d index c :: templateList d (index + c.values.length) cs

end

theorem prefix_drop_of_append {α : Type} {a b l : List α} {index : Nat}
    (h : a ++ b <+: l.drop index) :
    a <+: l.drop index ∧ b <+: l.drop (index + a.length) := by
  obtain ⟨tail, ht⟩ := h
  rw [List.append_assoc] at ht
  refine ⟨⟨b ++ tail, ht⟩, tail, ?_⟩
  rw [← List.drop_drop, ← ht, List.drop_left]

theorem parameter?_number (d : Dialect) {params : List Value} {index : Nat} {v : Value}
    (h : [v] <+: params.drop index) : parameter? params index (d.number index) = some v := by
  obtain ⟨tail, ht⟩ := h
  have hv : params[index]? = some v := by
    rw [← Nat.add_zero index, ← List.getElem?_drop, ← ht]
    rfl
  cases d <;> exact hv

mutual

/-- Values go back where they came from, if they are the ones due. -/
theorem fill_template (d : Dialect) {params : List Value} {index : Nat} (c : Condition)
    (h : c.values <+: params.drop index) :
    (c.template d index).fill params index = some (c, index + c.values.length) := by
  match c with
  | .column c => rfl
  | .value v => simp [Condition.template, Template.fill, Condition.values, parameter?_number d h]
  | .comparison left op right =>
    obtain ⟨hl, hr⟩ := prefix_drop_of_append h
    simp [Condition.template, Template.fill, Condition.values, fill_template d left hl,
      fill_template d right hr, Nat.add_assoc]
  | .like child pattern =>
    obtain ⟨hc, hp⟩ := prefix_drop_of_append h
    simp [Condition.template, Template.fill, Condition.values, fill_template d child hc,
      fill_template d pattern hp, Nat.add_assoc]
  | .isNull child negated =>
    have hc := fill_template d child h
    simp [Condition.template, Template.fill, Condition.values, hc]
  | .all children =>
    have hc := fillList_templateList d children h
    simp [Condition.template, Template.fill, Condition.values, hc]
  | .any children =>
    have hc := fillList_templateList d children h
    simp [Condition.template, Template.fill, Condition.values, hc]
  | .negate child =>
    have hc := fill_template d child h
    simp [Condition.template, Template.fill, Condition.values, hc]

theorem fillList_templateList (d : Dialect) {params : List Value} {index : Nat}
    (cs : List Condition) (h : valuesList cs <+: params.drop index) :
    fillList params index (templateList d index cs) =
      some (cs, index + (valuesList cs).length) := by
  match cs with
  | [] => rfl
  | c :: cs =>
    obtain ⟨hc, hcs⟩ := prefix_drop_of_append h
    simp [templateList, fillList, valuesList, fill_template d c hc,
      fillList_templateList d cs hcs, Nat.add_assoc]

end

/-- Reads a statement back: its whole text is one condition, and its values take the places of
the placeholders, each value once. -/
def Statement.read? (d : Dialect) (s : Statement) : Option Condition :=
  (lex d s.sql.toList).bind fun ts =>
    (parse ts).bind fun t =>
      match t.fill s.params 0 with
      | some (c, used) => if used = s.params.length then some c else none
      | none => none

end FilterQuery.Sql
