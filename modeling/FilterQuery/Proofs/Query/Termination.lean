import FilterQuery.Filter.Tree
import FilterQuery.Proofs.Query.Loops

/-!
Compiling comes to an end. The rules call one another, and the guards of their recursion are never
needed: what a rule says without them, with any functions in place of the rules, is the rule again
once it has been said often enough for the length of the text. Of the calls that a unit makes each
is on a shorter text, and so is each call for the parts that follow one.
-/
namespace FilterQuery.Query

open Build

variable {C Handler : Type} [TagHandler Handler C] {F : Factory C} {st : Setting Handler}

/-- Functions in place of the rules. -/
structure Rules (C : Type) where
  any : List Char → Build C (Option C × List Char)
  anyParts : List Char → Build C (List C × List Char)
  all : List Char → Build C (Option C × List Char)
  allParts : List Char → Build C (List C × List Char)
  unit : List Char → Build C (Option C × List Char)

namespace Rules

variable (F st) in
/-- The rules of the compiler. -/
def compiler : Rules C :=
  ⟨compileAny F st, Query.anyParts F st, compileAll F st, Query.allParts F st, compileUnit F st⟩

variable (F st) in
/-- What the rules say without guards, with calls of `R` in place of their own. -/
def unfold (R : Rules C) : Rules C where
  any cs := do
    let (parts, rest) ← R.anyParts cs
    let c ← combine F.any parts
    pure (c, rest)
  anyParts cs :=
    if atClose cs then pure ([], cs)
    else do
      let (part, rest) ← R.all cs
      if atOr rest then do
        let (parts, rest) ← R.anyParts (rest.drop 2)
        pure (part.toList ++ parts, rest)
      else pure (part.toList, rest)
  all cs := do
    let (parts, rest) ← R.allParts cs
    let c ← combine F.all parts
    pure (c, rest)
  allParts cs :=
    if atClose cs then pure ([], cs)
    else do
      let (part, rest) ← R.unit cs
      if atOr (Text.skipBlanks rest) then pure (part.toList, Text.skipBlanks rest)
      else do
        let (parts, rest) ← R.allParts (skipAnd (Text.skipBlanks rest))
        pure (part.toList ++ parts, rest)
  unit cs :=
    match Text.skipBlanks cs with
    | '!' :: rest => do
      let (c, rest) ← R.unit rest
      match c with
      | none => pure (none, rest)
      | some c => do
        let c ← .make (F.negate c)
        pure (some c, rest)
    | '(' :: rest => do
      let (c, rest) ← R.any rest
      pure (c, dropClose rest)
    | '|' :: '|' :: rest => do
      let c ← compileTag F st (takePayload rest).1
      pure (c, (takePayload rest).2)
    | rest => compileTerm F st rest

variable {R R' : Rules C}

/-- A unit calls for shorter texts only. -/
theorem unfold_unit_congr {cs : List Char}
    (h : ∀ ds : List Char, ds.length < cs.length → R.unit ds = R'.unit ds ∧ R.any ds = R'.any ds) :
    (R.unfold F st).unit cs = (R'.unfold F st).unit cs := by
  simp only [unfold]
  split
  · next rest hs => rw [(h rest (length_lt_of_skipBlanks_eq hs)).1]
  · next rest hs => rw [(h rest (length_lt_of_skipBlanks_eq hs)).2]
  · rfl
  · rfl

theorem unfold_unit (cs : List Char) :
    ((compiler F st).unfold F st).unit cs = compileUnit F st cs := by
  simp only [unfold]
  split
  · next rest hs => exact (compileUnit_not hs).symm
  · next rest hs => exact (compileUnit_group hs).symm
  · next rest hs => exact (compileUnit_tag hs).symm
  · next h₁ h₂ h₃ => exact (compileUnit_term h₁ h₂ h₃).symm

theorem unfold_allParts (cs : List Char) :
    ((compiler F st).unfold F st).allParts cs = Query.allParts F st cs := by
  by_cases hc : atClose cs = true
  · rw [Query.allParts, if_pos hc]
    exact if_pos hc
  · rw [allParts_eq hc]
    exact if_neg hc

theorem unfold_anyParts (cs : List Char) :
    ((compiler F st).unfold F st).anyParts cs = Query.anyParts F st cs := by
  by_cases hc : atClose cs = true
  · rw [Query.anyParts, if_pos hc]
    exact if_pos hc
  · rw [anyParts_eq hc]
    exact if_neg hc

/-- The rules of the compiler are what they say without guards. -/
theorem unfold_compiler : (compiler F st).unfold F st = compiler F st := by
  have hany : ((compiler F st).unfold F st).any = compileAny F st := by
    funext cs
    rw [compileAny]
    rfl
  have hall : ((compiler F st).unfold F st).all = compileAll F st := by
    funext cs
    rw [compileAll]
    rfl
  exact (mk.injEq ..).mpr
    ⟨hany, funext unfold_anyParts, hall, funext unfold_allParts, funext unfold_unit⟩

variable (F st) in
/-- Calls of `R` that go `n` deep find the rules: each character may take a call of every rule. -/
structure Knows (R : Rules C) (n : Nat) : Prop where
  unit : ∀ cs : List Char, 5 * cs.length + 1 ≤ n → R.unit cs = compileUnit F st cs
  allParts : ∀ cs : List Char, 5 * cs.length + 2 ≤ n → R.allParts cs = Query.allParts F st cs
  all : ∀ cs : List Char, 5 * cs.length + 3 ≤ n → R.all cs = compileAll F st cs
  anyParts : ∀ cs : List Char, 5 * cs.length + 4 ≤ n → R.anyParts cs = Query.anyParts F st cs
  any : ∀ cs : List Char, 5 * cs.length + 5 ≤ n → R.any cs = compileAny F st cs

theorem knows_zero (R : Rules C) : R.Knows F st 0 := by
  constructor <;> intro cs h <;> exact absurd h (Nat.not_succ_le_zero _)

theorem Knows.unfold_unit {n : Nat} (h : R.Knows F st n) {cs : List Char}
    (hn : 5 * cs.length + 1 ≤ n + 1) : (R.unfold F st).unit cs = compileUnit F st cs := by
  rw [← Rules.unfold_unit]
  refine unfold_unit_congr fun ds hd => ⟨?_, ?_⟩
  · exact h.unit ds (by omega)
  · exact h.any ds (by omega)

theorem Knows.unfold_allParts {n : Nat} (h : R.Knows F st n) {cs : List Char}
    (hn : 5 * cs.length + 2 ≤ n + 1) :
    (R.unfold F st).allParts cs = Query.allParts F st cs := by
  by_cases hc : atClose cs = true
  · rw [Query.allParts, if_pos hc]
    exact if_pos hc
  · rw [allParts_eq hc]
    simp only [Rules.unfold, hc, Bool.false_eq_true, ↓reduceIte, h.unit cs (by omega)]
    refine bind_congr_of_ok ?_
    rintro ⟨part, rest⟩ hr
    have hlt : rest.length < cs.length := compileUnit_rest_lt hc hr
    have hb := Text.skipBlanks_length_le rest
    have ha := skipAnd_length_le (Text.skipBlanks rest)
    simp only
    rw [h.allParts (skipAnd (Text.skipBlanks rest)) (by omega)]

theorem Knows.unfold_anyParts {n : Nat} (h : R.Knows F st n) {cs : List Char}
    (hn : 5 * cs.length + 4 ≤ n + 1) :
    (R.unfold F st).anyParts cs = Query.anyParts F st cs := by
  by_cases hc : atClose cs = true
  · rw [Query.anyParts, if_pos hc]
    exact if_pos hc
  · rw [anyParts_eq hc]
    simp only [Rules.unfold, hc, Bool.false_eq_true, ↓reduceIte, h.all cs (by omega)]
    refine bind_congr_of_ok ?_
    rintro ⟨part, rest⟩ hr
    have hle : rest.length ≤ cs.length := compileAll_rest_le hr
    by_cases ho : atOr rest = true
    · have hlt := drop_length_lt_of_atOr ho
      simp only [ho, ↓reduceIte]
      rw [h.anyParts (rest.drop 2) (by omega)]
    · simp only [ho, Bool.false_eq_true, ↓reduceIte]

/-- One more call deep. -/
theorem Knows.unfold {n : Nat} (h : R.Knows F st n) : (R.unfold F st).Knows F st (n + 1) where
  unit := fun _ hn => h.unfold_unit hn
  allParts := fun _ hn => h.unfold_allParts hn
  all := by
    intro cs hn
    rw [compileAll, ← h.allParts cs (by omega)]
    rfl
  anyParts := fun _ hn => h.unfold_anyParts hn
  any := by
    intro cs hn
    rw [compileAny, ← h.anyParts cs (by omega)]
    rfl

theorem knows_iterate (R : Rules C) (n : Nat) : ((unfold F st)^[n] R).Knows F st n := by
  induction n with
  | zero => exact knows_zero R
  | succ n ih =>
    rw [Function.iterate_succ_apply']
    exact ih.unfold

end Rules

/-- Reading a query makes progress. No scanner and no rule goes back; a unit takes something where
a group does not end, every pass of a loop does, and what stands behind a negation or an opening
bracket is shorter than what the unit began with. So compiling comes to an end: saying what the
rules say without guards as often as the length of the query asks for is all that is needed,
whatever would be called after that. -/
theorem compile_progresses (F : Factory C) (st : Setting Handler) :
    (∀ (routine : Routine) (cs : List Char), routine.unread F st cs <:+ cs) ∧
      (∀ (cs : List Char) (r : Option C × List Char), atClose cs = false →
        (compileUnit F st cs).result = .ok r → r.2.length < cs.length) ∧
      (∀ (loop : Loop) (cs : List Char), loop.goesOn cs = true →
        (loop.pass F st cs).1.length < cs.length) ∧
      (∀ cs, EndsByLoops F st cs) ∧
      (∀ cs rest : List Char, Text.skipBlanks cs = '!' :: rest ∨ Text.skipBlanks cs = '(' :: rest →
        rest.length < cs.length) ∧
      (∀ (R R' : Rules C) (cs : List Char),
        (∀ ds : List Char, ds.length < cs.length → R.unit ds = R'.unit ds ∧ R.any ds = R'.any ds) →
        (R.unfold F st).unit cs = (R'.unfold F st).unit cs) ∧
      (Rules.compiler F st).unfold F st = Rules.compiler F st ∧
      ∀ (R : Rules C) (query : String),
        ((Rules.unfold F st)^[5 * (query.toList.length + 1)] R).any query.toList =
          compileAny F st query.toList := by
  refine ⟨Routine.unread_suffix, ?_, fun _ _ => Loop.pass_length_lt, endsByLoops, ?_,
    fun _ _ _ => Rules.unfold_unit_congr, Rules.unfold_compiler, ?_⟩
  · intro cs r hc hr
    exact compileUnit_rest_lt (by simp [hc]) hr
  · rintro cs rest (hs | hs)
    · exact length_lt_of_skipBlanks_eq hs
    · exact length_lt_of_skipBlanks_eq hs
  · intro R query
    exact (Rules.knows_iterate R _).any _ (by omega)

/-- Functions that read nothing. -/
def stuckRules : Rules FilterTree where
  any cs := .stop "any" cs
  anyParts cs := .stop "anyParts" cs
  all cs := .stop "all" cs
  allParts cs := .stop "allParts" cs
  unit cs := .stop "unit" cs

/-- The rules, but no unit of two or more characters. -/
def sampleRules : Rules FilterTree :=
  { Rules.compiler FilterTree.factory sampleSetting with
    unit := fun cs =>
      if cs.length < 2 then compileUnit FilterTree.factory sampleSetting cs else .stop "unit" cs }

theorem progresses_sampleSetting :
    (∃ r, (compileUnit FilterTree.factory sampleSetting "!)".toList).result = .ok r ∧
        r.2.length < 2) ∧
      (Loop.units.pass FilterTree.factory sampleSetting "\\".toList).1.length < 1 ∧
      "a)".toList.length < " (a)".toList.length ∧
      (sampleRules.unfold FilterTree.factory sampleSetting).unit "!a".toList =
        ((Rules.compiler FilterTree.factory sampleSetting).unfold FilterTree.factory
          sampleSetting).unit "!a".toList ∧
      (((Rules.unfold FilterTree.factory sampleSetting)^[20] stuckRules).any "!bo".toList).result =
        .ok (some (.negate (.all [.any [.search ⟨"name"⟩ .like "bo"]])), []) := by
  obtain ⟨-, hunit, hpass, -, hcall, hcongr, -, hany⟩ :=
    compile_progresses FilterTree.factory sampleSetting
  have hr : (compileUnit FilterTree.factory sampleSetting "!)".toList).result =
      .ok (none, ")".toList) := by cbv
  refine ⟨⟨_, hr, hunit _ _ (by decide) hr⟩, hpass .units _ (by decide), hcall _ _ (.inr rfl),
    ?_, ?_⟩
  · refine hcongr _ _ _ fun ds hd => ⟨?_, rfl⟩
    exact if_pos hd
  · have h := hany stuckRules "!bo"
    have hc : (compileAny FilterTree.factory sampleSetting "!bo".toList).result =
        .ok (some (.negate (.all [.any [.search ⟨"name"⟩ .like "bo"]])), []) := by cbv
    exact (congrArg Build.result h).trans hc

end FilterQuery.Query
