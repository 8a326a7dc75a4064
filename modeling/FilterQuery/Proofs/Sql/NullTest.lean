import FilterQuery.Proofs.Config.Origin
import FilterQuery.Proofs.Sql.Placeholders
import FilterQuery.Proofs.Sql.RoundTrip

/-!
Null in SQL conditions. A comparison of a field with null for equality becomes a null test in the
text, and no other part of a tree becomes one. An ordering with null binds the null as a parameter
instead, which no row satisfies; a query has to write a lone minus sign behind an ordering operator
for that.
-/
namespace FilterQuery

namespace FilterTree

/-- A comparison with null. -/
def comparesNull : FilterTree → Bool
  | .compare _ _ value => value.isNull
  | _ => false

/-- A comparison with null for equality or inequality. -/
def testsNull : FilterTree → Bool
  | .compare _ .equal value => value.isNull
  | .compare _ .notEqual value => value.isNull
  | _ => false

/-- A comparison with null by its order. -/
def ordersNull (t : FilterTree) : Bool := t.comparesNull && !t.testsNull

theorem countP_comparesNull (ts : List FilterTree) :
    ts.countP comparesNull = ts.countP testsNull + ts.countP ordersNull := by
  have htests : ∀ t : FilterTree, t.testsNull = true → t.comparesNull = true := by
    intro t
    fun_cases testsNull t with
    | case1 => exact id
    | case2 => exact id
    | case3 => nofun
  induction ts with
  | nil => rfl
  | cons t ts ih =>
    simp only [List.countP_cons, ih, ordersNull]
    by_cases hn : t.testsNull = true
    · simp only [hn, htests t hn, Bool.not_true, Bool.and_false, Bool.false_eq_true, ↓reduceIte]
      omega
    · simp only [hn, Bool.not_false, Bool.and_true, Bool.false_eq_true, ↓reduceIte]
      omega

theorem countP_postOrderList (p : FilterTree → Bool) (ts : List FilterTree) :
    (postOrderList ts).countP p = (ts.map fun t => t.postOrder.countP p).sum := by
  induction ts with
  | nil => rfl
  | cons t ts ih => simp [ih]

end FilterTree

namespace Sql

open FilterTree

/-- The number of null tests, with and without a negation, in a list of tokens. -/
def nullTests : List Token → Nat
  | .is :: .null :: ts => nullTests ts + 1
  | .is :: .not :: .null :: ts => nullTests ts + 1
  | _ :: ts => nullTests ts
  | [] => 0

theorem nullTests_cons {t : Token} (h : t ≠ .is) (ts : List Token) :
    nullTests (t :: ts) = nullTests ts := by
  rw [nullTests]
  · rintro us rfl
    exact absurd rfl h
  · rintro us rfl
    exact absurd rfl h

/-- The text is cut into tokens with `n` null tests, whatever stands after it. -/
def Tests (d : Dialect) (text : List Char) (n : Nat) : Prop :=
  ∃ ts, Lexes d text ts ∧ ∀ us, nullTests (ts ++ us) = n + nullTests us

variable {d : Dialect} {text more : List Char} {m n : Nat}

theorem Tests.append (h : Tests d text m) (h' : Tests d (' ' :: more) n) :
    Tests d (text ++ ' ' :: more) (m + n) := by
  obtain ⟨ts, hl, hts⟩ := h
  obtain ⟨us, hl', hus⟩ := h'
  refine ⟨ts ++ us, hl.append hl', ?_⟩
  intro vs
  rw [List.append_assoc, hts, hus, Nat.add_assoc]

/-- A text behind a token that starts no null test. -/
theorem Tests.cons {t : Token} (h : Tests d text n) (ht : t ≠ .is)
    (hl : ∀ {ts}, Lexes d text ts → Lexes d more (t :: ts)) : Tests d more n := by
  obtain ⟨ts, hts, hn⟩ := h
  refine ⟨t :: ts, hl hts, ?_⟩
  intro us
  rw [List.cons_append, nullTests_cons ht, hn]

theorem tests_nil (d : Dialect) : Tests d [] 0 :=
  ⟨[], fun rest _ => by simp, fun us => by simp⟩

theorem tests_column (d : Dialect) (c : Column) : Tests d (c.write d) 0 := by
  refine ⟨c.tokens, lexes_column d c, ?_⟩
  intro us
  rw [Column.tokens]
  cases c.qualifier <;> simp [nullTests_cons]

theorem tests_placeholder (d : Dialect) (index : Nat) : Tests d (d.placeholder index) 0 := by
  refine ⟨_, lexes_placeholder d index, ?_⟩
  intro us
  simp [nullTests_cons]

theorem tests_null (d : Dialect) (negated : Bool) :
    Tests d (if negated then " IS NOT NULL" else " IS NULL").toList 1 := by
  refine ⟨nullTokens negated, lexes_null d negated, ?_⟩
  intro us
  cases negated <;> simp [nullTokens, nullTests, Nat.add_comm]

theorem Tests.like (h : Tests d text n) :
    Tests d (' ' :: (d.likeOperator.toList ++ ' ' :: text)) n :=
  h.cons (t := .like) (by decide) Lexes.like

theorem Tests.operator (op : Operator) (h : Tests d text n) :
    Tests d (' ' :: (op.symbol.toList ++ ' ' :: text)) n :=
  h.cons (t := .operator op) (by simp) fun hl => ((lexes_operator d op).append hl.space).space

theorem Tests.not (h : Tests d text n) : Tests d ("NOT ".toList ++ text) n :=
  h.cons (t := .not) (by decide) Lexes.not

theorem Tests.and (h : Tests d text m) (h' : Tests d more n) :
    Tests d (text ++ (" AND ".toList ++ more)) (m + n) :=
  h.append (h'.cons (t := .and) (by decide) Lexes.and)

theorem Tests.or (h : Tests d text m) (h' : Tests d more n) :
    Tests d (text ++ (" OR ".toList ++ more)) (m + n) :=
  h.append (h'.cons (t := .or) (by decide) Lexes.or)

theorem Tests.parenthesize {f : Fragment} (needed : Bool) (h : Tests d f.text n) :
    Tests d (parenthesize needed f).text n := by
  cases needed with
  | false => exact h
  | true =>
    obtain ⟨ts, hl, hts⟩ := h
    have hl' : Lexes d (Sql.parenthesize true f).text (.opening :: (ts ++ [.closing])) := by
      simpa [Sql.parenthesize, Fragment.ofText] using hl.parenthesized
    have hopening : ∀ us, nullTests (.opening :: us) = nullTests us := nullTests_cons (by decide)
    have hclosing : ∀ us, nullTests (.closing :: us) = nullTests us := nullTests_cons (by decide)
    refine ⟨_, hl', ?_⟩
    intro us
    rw [List.cons_append, hopening, List.append_assoc, hts, List.singleton_append, hclosing]

theorem tests_compare (d : Dialect) (index : Nat) (field : FieldPath) (op : Operator)
    (value : Value) : Tests d ((Condition.compare field op value).render d index).text 0 := by
  have hrest := (tests_placeholder d index).operator op
  simpa [Condition.compare, Condition.ofField, Condition.render, Fragment.ofText] using
    (tests_column d (.ofField field)).append hrest

theorem tests_matching (d : Dialect) (index : Nat) (field : FieldPath) (pattern : List Char) :
    Tests d ((Condition.matching field pattern).render d index).text 0 := by
  have hrest := (tests_placeholder d index).like
  simpa [Condition.matching, Condition.ofField, Condition.render, Fragment.ofText] using
    (tests_column d (.ofField field)).append hrest

theorem tests_equality (d : Dialect) (index : Nat) (field : FieldPath) (negated : Bool)
    (value : Value) :
    Tests d ((Condition.equality field negated value).render d index).text value.isNull.toNat := by
  rw [Condition.equality]
  cases hv : value.isNull with
  | true =>
    have hnull := tests_null d negated
    have hcolumn := tests_column d (.ofField field)
    cases negated with
    | false => exact hcolumn.append hnull
    | true => exact hcolumn.append hnull
  | false => exact tests_compare d index field _ value

/-- A comparison of a tree is a null test where it compares with null for equality. -/
theorem tests_factory_compare (d : Dialect) (index : Nat) (field : FieldPath) (op : Operator)
    (value : Value) :
    Tests d ((Condition.factory.compare field op value).render d index).text
      (FilterTree.compare field op value).testsNull.toNat := by
  cases op with
  | equal => exact tests_equality d index field false value
  | notEqual => exact tests_equality d index field true value
  | _ => exact tests_compare d index field _ value

theorem tests_searching (d : Dialect) (index : Nat) (field : FieldPath) (mode : SearchMode)
    (word : String) : Tests d ((Condition.searching field mode word).render d index).text 0 := by
  cases mode with
  | equal => exact tests_compare d index field .equal (.string word)
  | _ => exact tests_matching d index field _

/-- The text of the condition has `n` null tests, wherever it stands. -/
def Condition.TestsNull (d : Dialect) (c : Condition) (n : Nat) : Prop :=
  ∀ index, Tests d (c.render d index).text n

/-- Parts with a separator between them have the null tests of all parts. -/
theorem tests_list {separator : List Char}
    (hmore : ∀ {a b : List Char} {m n : Nat}, Tests d a m → Tests d b n →
      Tests d (a ++ (separator ++ b)) (m + n))
    {cs : List Condition} {ns : List Nat} (h : List.Forall₂ (Condition.TestsNull d) cs ns)
    (index : Nat) : Tests d (renderList d separator index cs).text ns.sum := by
  induction h generalizing index with
  | nil => exact tests_nil d
  | @cons c n cs ns hc hcs ih =>
    have hpart : Tests d (c.nested d index) n := (hc index).parenthesize c.isGroup
    cases cs with
    | nil =>
      cases hcs
      rw [renderList_one]
      simpa using hpart
    | cons c' cs =>
      rw [renderList_more, List.sum_cons]
      exact hmore hpart (ih _)

theorem testsNull_all {cs : List Condition} {ns : List Nat}
    (h : List.Forall₂ (Condition.TestsNull d) cs ns) : (Condition.all cs).TestsNull d ns.sum :=
  fun index => tests_list .and h index

theorem testsNull_any {cs : List Condition} {ns : List Nat}
    (h : List.Forall₂ (Condition.TestsNull d) cs ns) : (Condition.any cs).TestsNull d ns.sum :=
  fun index => tests_list .or h index

theorem Condition.TestsNull.negate {c : Condition} (h : c.TestsNull d n) :
    (Condition.negate c).TestsNull d n :=
  fun index => ((h index).parenthesize c.isGroup).not

/-- What is counted in a junction is counted in its parts. -/
theorem countP_junction {p : FilterTree → Bool} {t : FilterTree} (ht : p t = false)
    (ts : List FilterTree) :
    (postOrderList ts ++ [t]).countP p = (ts.map fun u => u.postOrder.countP p).sum := by
  rw [List.countP_append, countP_postOrderList, List.countP_singleton, ht]
  rfl

theorem countP_leaf (p : FilterTree → Bool) (t : FilterTree) : [t].countP p = (p t).toNat := by
  rw [List.countP_singleton]
  cases p t <;> rfl

mutual

/-- The text of a tree has a null test for each comparison with null for equality. -/
theorem fold_testsNull (d : Dialect) : ∀ t : FilterTree,
    (t.fold Condition.factory).TestsNull d (t.postOrder.countP testsNull)
  | .all children => by
    rw [postOrder, countP_junction rfl]
    exact testsNull_all (foldList_testsNull d children)
  | .any children => by
    rw [postOrder, countP_junction rfl]
    exact testsNull_any (foldList_testsNull d children)
  | .negate child => by
    rw [postOrder, List.countP_append]
    exact (fold_testsNull d child).negate
  | .compare field op value => by
    rw [postOrder, countP_leaf]
    exact fun index => tests_factory_compare d index field op value
  | .search field mode word => fun index => tests_searching d index field mode word

theorem foldList_testsNull (d : Dialect) : ∀ ts : List FilterTree,
    List.Forall₂ (Condition.TestsNull d) (foldList Condition.factory ts)
      (ts.map fun t => t.postOrder.countP testsNull)
  | [] => .nil
  | t :: ts => .cons (fold_testsNull d t) (foldList_testsNull d ts)

end

theorem lex_render (d : Dialect) {c : Condition} {n : Nat} (h : c.TestsNull d n) :
    ∃ ts, lex d (Statement.render d c).sql.toList = some ts ∧ nullTests ts = n := by
  obtain ⟨ts, hl, hts⟩ := h 0
  refine ⟨ts, ?_, ?_⟩
  · have hlex := hl [] ends_nil
    simpa [Statement.render] using hlex
  · simpa [nullTests] using hts []

theorem values_factory_compare (field : FieldPath) (op : Operator) (value : Value) :
    (Condition.factory.compare field op value).values.countP Value.isNull =
      (FilterTree.compare field op value).ordersNull.toNat := by
  cases op <;> cases value <;> rfl

theorem values_searching (field : FieldPath) (mode : SearchMode) (word : String) :
    (Condition.searching field mode word).values.countP Value.isNull = 0 := by
  cases mode <;> rfl

mutual

/-- A null is bound for each comparison with null by its order. -/
theorem values_fold : ∀ t : FilterTree,
    (t.fold Condition.factory).values.countP Value.isNull = t.postOrder.countP ordersNull
  | .all children => by
    rw [postOrder, countP_junction rfl]
    exact valuesList_fold children
  | .any children => by
    rw [postOrder, countP_junction rfl]
    exact valuesList_fold children
  | .negate child => by
    rw [postOrder, List.countP_append]
    exact values_fold child
  | .compare field op value => by
    rw [postOrder, countP_leaf]
    exact values_factory_compare field op value
  | .search field mode word => values_searching field mode word

theorem valuesList_fold : ∀ ts : List FilterTree,
    (valuesList (foldList Condition.factory ts)).countP Value.isNull =
      (ts.map fun t => t.postOrder.countP ordersNull).sum
  | [] => rfl
  | t :: ts => by
    rw [foldList, valuesList, List.countP_append, values_fold t, valuesList_fold ts]
    rfl

end

theorem ordersNull_compare {field : FieldPath} {op : Operator} {value : Value} :
    (FilterTree.compare field op value).ordersNull = true ↔
      value = .null ∧ op ≠ .equal ∧ op ≠ .notEqual := by
  cases op <;> cases value <;> simp [ordersNull, comparesNull, testsNull, Value.isNull]

theorem null_not_mem_iff {vs : List Value} : Value.null ∉ vs ↔ vs.countP Value.isNull = 0 := by
  rw [List.countP_eq_zero]
  constructor
  · rintro h v hv hnull
    cases v with
    | null => exact h hv
    | _ => cases hnull
  · intro h hm
    exact h .null hm rfl

/-- The statement of a query that compiles to a tree tests for null where the tree compares with
null for equality, and binds null where the tree compares with it by its order. So no null is bound
and every comparison with null is a null test just when nothing is ordered by null, and a query has
to write an ordering operator with a lone minus sign behind it for that. -/
theorem nulls_of_query (config : Config) (query : String) {t : FilterTree}
    (ht : Command.outcome config query = .ok (some t)) (d : Dialect) :
    ∃ c ts, (Command.compileWith Condition.factory config query).2 = .ok (some c) ∧
      lex d (Statement.render d c).sql.toList = some ts ∧
      nullTests ts = t.postOrder.countP testsNull ∧
      (Statement.render d c).params.countP Value.isNull = t.postOrder.countP ordersNull ∧
      (Value.null ∉ (Statement.render d c).params ∧
          nullTests ts = t.postOrder.countP comparesNull ↔
        ∀ n ∈ t.postOrder, n.ordersNull = false) ∧
      ∀ field op value, FilterTree.compare field op value ∈ t.postOrder →
        (FilterTree.compare field op value).ordersNull = true →
        ∃ after width, after <:+ query.toList ∧ Operator.at? after = some (op, width) ∧
          (Query.takeValue (after.drop width)).1 = ⟨Query.nullSign, false⟩ := by
  obtain ⟨ts, hlex, htests⟩ := lex_render d (fold_testsNull d t)
  have hparams : (Statement.render d (t.fold Condition.factory)).params.countP Value.isNull =
      t.postOrder.countP ordersNull := by
    rw [← values_fold, ← render_params d 0]
    rfl
  refine ⟨t.fold Condition.factory, ts, ?_, hlex, htests, hparams, ?_, ?_⟩
  · rw [Command.compileWith_fold, ht]
    rfl
  · have hall : (∀ n ∈ t.postOrder, n.ordersNull = false) ↔ t.postOrder.countP ordersNull = 0 := by
      simp [List.countP_eq_zero]
    rw [null_not_mem_iff, hparams, htests, countP_comparesNull, hall]
    omega
  · intro field op value hm horder
    obtain ⟨rfl, -, -⟩ := ordersNull_compare.mp horder
    obtain ⟨root, -, hasked⟩ := Command.asked_of_outcome ht
    exact (hasked.compare hm).null

/-- Users without a name, users with an age, and those of age. -/
def sampleNulls : FilterTree :=
  .any [.compare ⟨"name"⟩ .equal .null,
    .negate (.all [.compare ⟨"age"⟩ .notEqual .null, .compare ⟨"age"⟩ .lessThan (.int 21)])]

theorem nulls_sampleNulls :
    Command.outcome sampleConfig "name:- or !(age<>- age<21)" = .ok (some sampleNulls) ∧
      (∀ n ∈ sampleNulls.postOrder, n.ordersNull = false) ∧
      ∃ c ts, (Command.compileWith Condition.factory sampleConfig "name:- or !(age<>- age<21)").2 =
          .ok (some c) ∧
        lex .mysql (Statement.render .mysql c).sql.toList = some ts ∧ nullTests ts = 2 ∧
        Value.null ∉ (Statement.render .mysql c).params := by
  have ht : Command.outcome sampleConfig "name:- or !(age<>- age<21)" = .ok (some sampleNulls) := by
    cbv
  have horder : ∀ n ∈ sampleNulls.postOrder, n.ordersNull = false := by
    simp [sampleNulls, postOrder, ordersNull, comparesNull, testsNull, Value.isNull]
  obtain ⟨c, ts, hc, hlex, htests, -, hiff, -⟩ :=
    nulls_of_query sampleConfig "name:- or !(age<>- age<21)" ht .mysql
  exact ⟨ht, horder, c, ts, hc, hlex, htests, (hiff.mpr horder).1⟩

/-- An ordering with null binds the null, and the condition tests for none. -/
theorem not_tests_every_null :
    Config.read sampleSource = .ok sampleConfig ∧
      Command.outcome sampleConfig "age>=-" =
        .ok (some (.compare ⟨"age"⟩ .greaterOrEqual .null)) ∧
      (Statement.render .postgres (Condition.compare ⟨"age"⟩ .greaterOrEqual .null)).params =
        [.null] ∧
      ¬∀ source config query t c d ts, Config.read source = .ok config →
        Command.outcome config query = .ok (some t) →
        (Command.compileWith Condition.factory config query).2 = .ok (some c) →
        lex d (Statement.render d c).sql.toList = some ts →
          Value.null ∉ (Statement.render d c).params ∧
            nullTests ts = t.postOrder.countP comparesNull := by
  have ht : Command.outcome sampleConfig "age>=-" =
      .ok (some (.compare ⟨"age"⟩ .greaterOrEqual .null)) := by cbv
  have hc : (Command.compileWith Condition.factory sampleConfig "age>=-").2 =
      .ok (some (.compare ⟨"age"⟩ .greaterOrEqual .null)) := by cbv
  obtain ⟨ts, hlex, -⟩ :=
    lex_render .postgres (fold_testsNull .postgres (.compare ⟨"age"⟩ .greaterOrEqual .null))
  refine ⟨read_sampleSource, ht, rfl, ?_⟩
  intro h
  exact (h _ _ _ _ _ _ ts read_sampleSource ht hc hlex).1 (.head [])

end Sql

end FilterQuery
