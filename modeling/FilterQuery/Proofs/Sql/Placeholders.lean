import FilterQuery.Proofs.Query.Translation
import FilterQuery.Proofs.Sql.RoundTrip

/-!
Values stay out of the text of a condition. The text is assembled from pieces: what the condition
says itself, and one placeholder for each value, numbered from the left. So conditions that differ
in their values only have one text, and so have queries that ask the same of other values and words.
-/
namespace FilterQuery.Sql

/-- A piece of the text of a condition. A value is written as a placeholder. -/
inductive Piece where
  | text (cs : List Char)
  | value (v : Value)

/-- The text of some pieces, when `index` values stand before them. -/
def assemble (d : Dialect) : Nat → List Piece → List Char
  | _, [] => []
  | index, .text cs :: ps => cs ++ assemble d index ps
  | index, .value _ :: ps => d.placeholder index ++ assemble d (index + 1) ps

/-- The values among some pieces. -/
def bound : List Piece → List Value
  | [] => []
  | .text _ :: ps => bound ps
  | .value v :: ps => v :: bound ps

theorem bound_append (ps qs : List Piece) : bound (ps ++ qs) = bound ps ++ bound qs := by
  induction ps with
  | nil => rfl
  | cons p ps ih => cases p <;> simp [bound, ih]

theorem assemble_append (d : Dialect) (index : Nat) (ps qs : List Piece) :
    assemble d index (ps ++ qs) =
      assemble d index ps ++ assemble d (index + (bound ps).length) qs := by
  induction ps generalizing index with
  | nil => rfl
  | cons p ps ih =>
    cases p with
    | text cs => simp [assemble, bound, ih]
    | value v => simp [assemble, bound, ih, Nat.add_assoc, Nat.add_comm 1]

def enclose (needed : Bool) (ps : List Piece) : List Piece :=
  if needed then .text ['('] :: ps ++ [.text [')']] else ps

theorem bound_enclose (needed : Bool) (ps : List Piece) : bound (enclose needed ps) = bound ps := by
  cases needed <;> simp [enclose, bound, bound_append]

/-- Parentheses around pieces are parentheses around their text. -/
theorem assemble_enclose (d : Dialect) (index : Nat) (needed : Bool) {ps : List Piece}
    {f : Fragment} (h : f.text = assemble d index ps) :
    (parenthesize needed f).text = assemble d index (enclose needed ps) := by
  cases needed with
  | false => exact h
  | true => simp [parenthesize, enclose, Fragment.ofText, assemble, assemble_append, h]

mutual

/-- The pieces of a condition, in order. -/
def Condition.pieces (d : Dialect) : Condition → List Piece
  | .column c => [.text (c.write d)]
  | .value v => [.value v]
  | .comparison left op right =>
    Condition.pieces d left ++
      .text (' ' :: op.symbol.toList ++ [' ']) :: Condition.pieces d right
  | .like child pattern =>
    Condition.pieces d child ++
      .text (' ' :: d.likeOperator.toList ++ [' ']) :: Condition.pieces d pattern
  | .isNull child negated =>
    Condition.pieces d child ++ [.text (if negated then " IS NOT NULL" else " IS NULL").toList]
  | .all children => piecesList d " AND ".toList children
  | .any children => piecesList d " OR ".toList children
  | .negate child => .text "NOT ".toList :: enclose child.isGroup (Condition.pieces d child)

def piecesList (d : Dialect) (separator : List Char) : List Condition → List Piece
  | [] => []
  | [c] => enclose c.isGroup (Condition.pieces d c)
  | c :: cs =>
    enclose c.isGroup (Condition.pieces d c) ++ .text separator :: piecesList d separator cs

end

theorem piecesList_more (d : Dialect) (separator : List Char) (c c' : Condition)
    (cs : List Condition) :
    piecesList d separator (c :: c' :: cs) =
      enclose c.isGroup (c.pieces d) ++ .text separator :: piecesList d separator (c' :: cs) := by
  rw [piecesList]
  simp

mutual

theorem bound_pieces (d : Dialect) (c : Condition) : bound (c.pieces d) = c.values := by
  match c with
  | .column c => rfl
  | .value v => rfl
  | .comparison left op right =>
    simp [Condition.pieces, Condition.values, bound, bound_append, bound_pieces d left,
      bound_pieces d right]
  | .like child pattern =>
    simp [Condition.pieces, Condition.values, bound, bound_append, bound_pieces d child,
      bound_pieces d pattern]
  | .isNull child negated =>
    simp [Condition.pieces, Condition.values, bound, bound_append, bound_pieces d child]
  | .all children => exact bound_piecesList d _ children
  | .any children => exact bound_piecesList d _ children
  | .negate child =>
    simp [Condition.pieces, Condition.values, bound, bound_enclose, bound_pieces d child]

theorem bound_piecesList (d : Dialect) (separator : List Char) (cs : List Condition) :
    bound (piecesList d separator cs) = valuesList cs := by
  match cs with
  | [] => rfl
  | [c] => simp [piecesList, valuesList, bound_enclose, bound_pieces d c]
  | c :: c' :: cs =>
    have hcs := bound_piecesList d separator (c' :: cs)
    simp [piecesList_more, hcs, valuesList, bound, bound_append, bound_enclose, bound_pieces d c]

end

mutual

/-- The text of a condition is that of its pieces. -/
theorem render_text (d : Dialect) (index : Nat) (c : Condition) :
    (c.render d index).text = assemble d index (c.pieces d) := by
  match c with
  | .column c => simp [Condition.render, Condition.pieces, Fragment.ofText, assemble]
  | .value v => simp [Condition.render, Condition.pieces, assemble]
  | .comparison left op right =>
    simp [Condition.render, Condition.pieces, Fragment.ofText, assemble, assemble_append,
      bound_pieces, render_params, render_text d _ left, render_text d _ right]
  | .like child pattern =>
    simp [Condition.render, Condition.pieces, Fragment.ofText, assemble, assemble_append,
      bound_pieces, render_params, render_text d _ child, render_text d _ pattern]
  | .isNull child negated =>
    simp [Condition.render, Condition.pieces, Fragment.ofText, assemble, assemble_append,
      render_text d _ child]
  | .all children => exact renderList_text d _ index children
  | .any children => exact renderList_text d _ index children
  | .negate child =>
    have hc := assemble_enclose d index child.isGroup (render_text d index child)
    simp [Condition.render, Condition.pieces, Fragment.ofText, assemble, hc]

theorem renderList_text (d : Dialect) (separator : List Char) (index : Nat)
    (cs : List Condition) :
    (renderList d separator index cs).text = assemble d index (piecesList d separator cs) := by
  match cs with
  | [] => rfl
  | [c] =>
    rw [renderList, piecesList]
    exact assemble_enclose d index c.isGroup (render_text d index c)
  | c :: c' :: cs =>
    have hc := assemble_enclose d index c.isGroup (render_text d index c)
    have hcs := renderList_text d separator (index + c.values.length) (c' :: cs)
    rw [renderList_more, Condition.nested, hc, hcs, piecesList_more]
    simp [assemble, assemble_append, bound_enclose, bound_pieces]

end

/-- A value stands in the text as the placeholder for the number of values before it. -/
theorem assemble_value (d : Dialect) {ps before after : List Piece} {v : Value}
    (h : ps = before ++ .value v :: after) :
    assemble d 0 ps = assemble d 0 before ++
        (d.placeholder (bound before).length ++ assemble d ((bound before).length + 1) after) ∧
      (bound ps)[(bound before).length]? = some v := by
  subst h
  simp [assemble_append, assemble, bound_append, bound]

mutual

/-- The condition with null in place of every value. -/
def Condition.erase : Condition → Condition
  | .column c => .column c
  | .value _ => .value .null
  | .comparison left op right => .comparison (Condition.erase left) op (Condition.erase right)
  | .like child pattern => .like (Condition.erase child) (Condition.erase pattern)
  | .isNull child negated => .isNull (Condition.erase child) negated
  | .all children => .all (eraseList children)
  | .any children => .any (eraseList children)
  | .negate child => .negate (Condition.erase child)

def eraseList : List Condition → List Condition
  | [] => []
  | c :: cs => Condition.erase c :: eraseList cs

end

theorem eraseList_eq_map (cs : List Condition) : eraseList cs = cs.map Condition.erase := by
  induction cs with
  | nil => rfl
  | cons c cs ih => simp [eraseList, ih]

@[simp] theorem isGroup_erase (c : Condition) : c.erase.isGroup = c.isGroup := by
  cases c <;> simp [Condition.erase, Condition.isGroup, eraseList_eq_map]

def Piece.erase : Piece → Piece
  | .text cs => .text cs
  | .value _ => .value .null

theorem assemble_erase (d : Dialect) (index : Nat) (ps : List Piece) :
    assemble d index (ps.map Piece.erase) = assemble d index ps := by
  induction ps generalizing index with
  | nil => rfl
  | cons p ps ih => cases p <;> simp [Piece.erase, assemble, ih]

theorem enclose_erase (needed : Bool) (ps : List Piece) :
    enclose needed (ps.map Piece.erase) = (enclose needed ps).map Piece.erase := by
  cases needed <;> simp [enclose, Piece.erase]

mutual

/-- Erasing values leaves all other pieces as they are. -/
theorem pieces_erase (d : Dialect) (c : Condition) :
    c.erase.pieces d = (c.pieces d).map Piece.erase := by
  match c with
  | .column c => rfl
  | .value v => rfl
  | .comparison left op right =>
    simp [Condition.erase, Condition.pieces, Piece.erase, pieces_erase d left,
      pieces_erase d right]
  | .like child pattern =>
    simp [Condition.erase, Condition.pieces, Piece.erase, pieces_erase d child,
      pieces_erase d pattern]
  | .isNull child negated =>
    simp [Condition.erase, Condition.pieces, Piece.erase, pieces_erase d child]
  | .all children => exact piecesList_erase d _ children
  | .any children => exact piecesList_erase d _ children
  | .negate child =>
    simp [Condition.erase, Condition.pieces, Piece.erase, enclose_erase, pieces_erase d child]

theorem piecesList_erase (d : Dialect) (separator : List Char) (cs : List Condition) :
    piecesList d separator (eraseList cs) = (piecesList d separator cs).map Piece.erase := by
  match cs with
  | [] => rfl
  | [c] => simp [eraseList, piecesList, enclose_erase, pieces_erase d c]
  | c :: c' :: cs =>
    have hcs := piecesList_erase d separator (c' :: cs)
    rw [eraseList] at hcs
    rw [eraseList, eraseList, piecesList_more, piecesList_more, hcs]
    simp [Piece.erase, enclose_erase, pieces_erase d c]

end

theorem length_bound_erase (ps : List Piece) :
    (bound (ps.map Piece.erase)).length = (bound ps).length := by
  induction ps with
  | nil => rfl
  | cons p ps ih => cases p <;> simp [Piece.erase, bound, ih]

theorem render_erase (d : Dialect) (c : Condition) :
    (Statement.render d c.erase).sql = (Statement.render d c).sql ∧
      (Statement.render d c.erase).params.length = (Statement.render d c).params.length := by
  refine ⟨?_, ?_⟩
  · simp only [Statement.render]
    rw [render_text, render_text, pieces_erase, assemble_erase]
  · simp only [Statement.render]
    rw [render_params, render_params, ← bound_pieces d, ← bound_pieces d, pieces_erase,
      length_bound_erase]

/-- Conditions that differ in their values only have the same text, and as many parameters. -/
theorem render_of_erase_eq (d : Dialect) {c c' : Condition} (h : c.erase = c'.erase) :
    (Statement.render d c).sql = (Statement.render d c').sql ∧
      (Statement.render d c).params.length = (Statement.render d c').params.length := by
  have hc := render_erase d c
  have hc' := render_erase d c'
  rw [h] at hc
  exact ⟨hc.1.symm.trans hc'.1, hc.2.symm.trans hc'.2⟩

end FilterQuery.Sql

namespace FilterQuery

/-- A value without its text: null, or any other one. -/
def Value.outline (v : Value) : Value :=
  if v.isNull then .null else .string ""

theorem Value.isNull_outline (v : Value) : v.outline.isNull = v.isNull := by
  cases v <;> rfl

namespace FilterTree

mutual

/-- The tree without the values that are not null, and without the search words. -/
def outline : FilterTree → FilterTree
  | .all children => .all (outlineList children)
  | .any children => .any (outlineList children)
  | .negate child => .negate (outline child)
  | .compare field op value => .compare field op value.outline
  | .search field mode _ => .search field mode ""

def outlineList : List FilterTree → List FilterTree
  | [] => []
  | t :: ts => outline t :: outlineList ts

end

end FilterTree

namespace Sql

theorem equality_erase (field : FieldPath) (negated : Bool) (v : Value) :
    (Condition.equality field negated v.outline).erase =
      (Condition.equality field negated v).erase := by
  rw [Condition.equality, Condition.equality, v.isNull_outline]
  split <;> rfl

theorem compare_erase (field : FieldPath) (op : Operator) (v : Value) :
    (Condition.factory.compare field op v.outline).erase =
      (Condition.factory.compare field op v).erase := by
  cases op
  case equal => exact equality_erase field false v
  case notEqual => exact equality_erase field true v
  all_goals rfl

theorem searching_erase (field : FieldPath) (mode : SearchMode) (word : String) :
    (Condition.searching field mode "").erase = (Condition.searching field mode word).erase := by
  cases mode <;> rfl

mutual

/-- The condition of a tree without its values is that of its outline. -/
theorem fold_outline_erase (t : FilterTree) :
    (t.outline.fold Condition.factory).erase = (t.fold Condition.factory).erase := by
  match t with
  | .all children => exact congrArg Condition.all (foldList_outline_erase children)
  | .any children => exact congrArg Condition.any (foldList_outline_erase children)
  | .negate child => exact congrArg Condition.negate (fold_outline_erase child)
  | .compare field op value => exact compare_erase field op value
  | .search field mode word => exact searching_erase field mode word

theorem foldList_outline_erase (ts : List FilterTree) :
    eraseList (FilterTree.foldList Condition.factory (FilterTree.outlineList ts)) =
      eraseList (FilterTree.foldList Condition.factory ts) := by
  match ts with
  | [] => rfl
  | t :: ts =>
    rw [FilterTree.outlineList, FilterTree.foldList, FilterTree.foldList, eraseList, eraseList,
      fold_outline_erase t, foldList_outline_erase ts]

end

end Sql

/-- The statement a compiled tree is printed as. -/
theorem Command.compile_sql_output {config : Config} {query : String} {t : FilterTree}
    (h : Command.outcome config query = .ok (some t)) (d : Sql.Dialect) (json : Bool) :
    (Command.compile config query .sql d json).output =
      .ok (Command.printStatement json
        (some (Sql.Statement.render d (t.fold Sql.Condition.factory)))) := by
  have hc := Command.compileWith_fold Sql.Condition.factory config query
  rw [h] at hc
  simp only [Command.compile, hc]
  rfl

namespace Sql

/-- Values never reach the text of a condition. Its parameters are its values in order, its text
is assembled from its pieces with one placeholder for each of them, and the values have no other
part in it. So queries whose trees have the same outline are printed with the same text. -/
theorem render_binds :
    (∀ (d : Dialect) (c : Condition),
      (Statement.render d c).params = c.values ∧
      (Statement.render d c).sql = String.ofList (assemble d 0 (c.pieces d)) ∧
      bound (c.pieces d) = (Statement.render d c).params ∧
      ∀ before v after, c.pieces d = before ++ .value v :: after →
        (Statement.render d c).sql.toList = assemble d 0 before ++
          (d.placeholder (bound before).length ++
            assemble d ((bound before).length + 1) after) ∧
        (Statement.render d c).params[(bound before).length]? = some v) ∧
    (∀ (d : Dialect) (c c' : Condition), c.erase = c'.erase →
      (Statement.render d c).sql = (Statement.render d c').sql) ∧
    ∀ (config : Config) (query query' : String) (t t' : FilterTree),
      Command.outcome config query = .ok (some t) →
      Command.outcome config query' = .ok (some t') → t.outline = t'.outline →
      ∀ (d : Dialect) (json : Bool), ∃ s s' : Statement,
        (Command.compile config query .sql d json).output =
          .ok (Command.printStatement json (some s)) ∧
        (Command.compile config query' .sql d json).output =
          .ok (Command.printStatement json (some s')) ∧
        s = Statement.render d (t.fold Condition.factory) ∧
        s' = Statement.render d (t'.fold Condition.factory) ∧
        s.sql = s'.sql ∧ s.params.length = s'.params.length := by
  refine ⟨?_, fun d c c' h => (render_of_erase_eq d h).1, ?_⟩
  · intro d c
    have hparams : (Statement.render d c).params = c.values := render_params d 0 c
    have hsql : (Statement.render d c).sql = String.ofList (assemble d 0 (c.pieces d)) :=
      congrArg String.ofList (render_text d 0 c)
    refine ⟨hparams, hsql, by rw [hparams, bound_pieces], ?_⟩
    intro before v after h
    rw [hsql, hparams, ← bound_pieces d, String.toList_ofList]
    exact assemble_value d h
  · intro config query query' t t' h h' ho d json
    have he : (t.fold Condition.factory).erase = (t'.fold Condition.factory).erase := by
      rw [← fold_outline_erase t, ho, fold_outline_erase]
    exact ⟨_, _, Command.compile_sql_output h d json, Command.compile_sql_output h' d json, rfl,
      rfl, render_of_erase_eq d he⟩

/-- The tree of a query for an age and a name. -/
def ageAndName (age : Int64) (name : String) : FilterTree :=
  .all [.compare ⟨"age"⟩ .greaterThan (.int age), .all [.any [.search ⟨"name"⟩ .like name]]]

theorem render_sampleQueries :
    (Statement.render .postgres ((ageAndName 5 "bo").fold Condition.factory)).params[1]? =
        some (.string "bo") ∧
      (Statement.render .mysql ((ageAndName 5 "bo").fold Condition.factory)).sql =
        (Statement.render .mysql ((ageAndName 70 "a_*").fold Condition.factory)).sql ∧
      Command.outcome sampleConfig "age>5 bo" = .ok (some (ageAndName 5 "bo")) ∧
      Command.outcome sampleConfig "age > 70 and a_*" = .ok (some (ageAndName 70 "a_*")) ∧
      ∃ s s' : Statement,
        (Command.compile sampleConfig "age>5 bo" .sql .postgres false).output =
          .ok (Command.printStatement false (some s)) ∧
        (Command.compile sampleConfig "age > 70 and a_*" .sql .postgres false).output =
          .ok (Command.printStatement false (some s')) ∧
        s.sql = s'.sql := by
  have h₁ : Command.outcome sampleConfig "age>5 bo" = .ok (some (ageAndName 5 "bo")) := by cbv
  have h₂ : Command.outcome sampleConfig "age > 70 and a_*" =
      .ok (some (ageAndName 70 "a_*")) := by cbv
  obtain ⟨s, s', hs, hs', -, -, he, -⟩ :=
    render_binds.2.2 sampleConfig _ _ _ _ h₁ h₂ rfl .postgres false
  have hslot := (render_binds.1 .postgres ((ageAndName 5 "bo").fold Condition.factory)).2.2.2
    [.text "\"age\"".toList, .text " > ".toList, .value (.int 5), .text " AND ".toList,
      .text "\"name\"".toList, .text " ILIKE ".toList] (.string "bo") [] rfl
  exact ⟨hslot.2, render_binds.2.1 .mysql _ _ rfl, h₁, h₂, s, s', hs, hs', he⟩

end Sql
end FilterQuery
