import FilterQuery.Proofs.Query.Reading
import FilterQuery.Proofs.Query.Shape

/-!
Operators that stand in front of a unit and compare nothing. They drop out, together with the
blanks behind them, and what follows is always read as a comparison or a search term: a negation,
a group or a tag behind such an operator loses its meaning.
-/
namespace FilterQuery.Query

open Build

/-- The operators that may stand in front of a unit. A `!=` there is the start of a negation. -/
def looseOperators : List String := ["=", ":", "<", ">", "<=", ">=", "<>"]

/-- Characters that are skipped whatever follows them. -/
def isStray (c : Char) : Bool := Text.isBlank c || (startsOperator c && c != '!')

theorem skipStray_cons {c : Char} (h : isStray c = true) (cs : List Char) :
    skipStray (c :: cs) = skipStray cs := by
  simp only [isStray, Bool.or_eq_true, Bool.and_eq_true, bne_iff_ne] at h
  have hw : inWord (c :: cs) = false := by
    rcases h with hb | ⟨ho, hm⟩
    · simp [inWord, hb]
    · simp [inWord, atOperator_of_startsOperator ho hm]
  have hc : c ≠ ')' := by
    rintro rfl
    revert h
    decide
  rw [skipStray, if_neg (by simp [hw, atClose, hc])]

theorem skipStray_stray {p : List Char} (hp : ∀ c ∈ p, isStray c = true) (cs : List Char) :
    skipStray (p ++ cs) = skipStray cs := by
  induction p with
  | nil => rfl
  | cons c p ih =>
    rw [List.cons_append, skipStray_cons (hp c List.mem_cons_self)]
    exact ih fun d hd => hp d (List.mem_cons_of_mem c hd)

theorem skipStray_skipBlanks (cs : List Char) : skipStray (Text.skipBlanks cs) = skipStray cs := by
  conv_rhs => rw [← List.takeWhile_append_dropWhile (p := Text.isBlank) (l := cs)]
  refine (skipStray_stray (fun c hc => ?_) _).symm
  simp [isStray, List.mem_takeWhile_imp hc]

variable {C Handler : Type} (F : Factory C) (st : Setting Handler)

theorem compileTerm_congr {cs ds : List Char} (h : skipStray cs = skipStray ds) :
    compileTerm F st cs = compileTerm F st ds := by
  rw [compileTerm, compileTerm, h]

variable [TagHandler Handler C]

/-- Behind an operator that compares nothing a term is read. -/
theorem compileUnit_loose {o : String} (ho : o ∈ looseOperators) (cs : List Char) :
    compileUnit F st (o.toList ++ ' ' :: cs) = compileTerm F st cs := by
  obtain ⟨hstray, hm⟩ : (∀ c ∈ o.toList ++ [' '], isStray c = true) ∧
      isMarked (Text.skipBlanks (o.toList ++ ' ' :: cs)) = false := by
    simp only [looseOperators, List.mem_cons, List.not_mem_nil, or_false] at ho
    rcases ho with rfl | rfl | rfl | rfl | rfl | rfl | rfl <;>
      exact ⟨by simp [isStray, startsOperator, Text.isBlank], rfl⟩
  rw [compileUnit_of_not_isMarked F st hm]
  apply compileTerm_congr
  rw [skipStray_skipBlanks, List.append_cons]
  exact skipStray_stray hstray cs

theorem compileUnit_unmarked {cs : List Char} (h : isMarked (Text.skipBlanks cs) = false) :
    compileUnit F st cs = compileTerm F st cs := by
  rw [compileUnit_of_not_isMarked F st h]
  exact compileTerm_congr F st (skipStray_skipBlanks cs)

theorem exists_of_isMarked {ds : List Char} (h : isMarked ds = true) :
    ∃ c cs, ds = c :: cs ∧ (c = '!' ∨ c = '(' ∨ c = '|') := by
  fun_cases isMarked ds <;> simp_all [isMarked]

/-- A sign that may be read as part of a word is so behind a backslash. -/
theorem compileUnit_backslash {ds : List Char} (hm : isMarked ds = true) (hw : inWord ds = true) :
    compileUnit F st ('\\' :: ds) = compileTerm F st ds := by
  have hl : isLeading '\\' = true := rfl
  have hw' : inWord ('\\' :: ds) = true := inWord_of_isLeading hl ds
  have ht : takeTerm ('\\' :: ds) = takeTerm ds := by
    obtain ⟨c, cs, rfl, rfl | rfl | rfl⟩ := exists_of_isMarked hm <;> rfl
  rw [compileUnit_of_isLeading F st hl (Text.skipBlanks_cons (by decide) _), compileTerm,
    compileTerm, skipStray_of_inWord hw', skipStray_of_inWord hw, ht]
  simp only [atClose_of_inWord hw, atClose_of_inWord hw', Bool.false_eq_true, ↓reduceIte]

/-- The first unit of a query is all that tells one query from another. -/
theorem compileAny_congr {cs ds : List Char} (hc : ¬atClose cs = true) (hd : ¬atClose ds = true)
    (h : compileUnit F st cs = compileUnit F st ds) : compileAny F st cs = compileAny F st ds := by
  rw [compileAny, compileAny, anyParts_eq hc, anyParts_eq hd, compileAll, compileAll,
    allParts_eq hc, allParts_eq hd, h]

theorem compile_eq_ok_congr {q q' : String}
    (h : compileAny F st q.toList = compileAny F st q'.toList) (c : Option C) :
    (compile F st q).result = .ok c ↔ (compile F st q').result = .ok c := by
  rw [compile, compile, h]
  cases (compileAny F st q'.toList).result <;> simp

variable {F st} {o : String} {query : List Char}

theorem not_atClose_loose (ho : o ∈ looseOperators) (cs : List Char) :
    ¬atClose (o.toList ++ ' ' :: cs) = true := by
  simp only [looseOperators, List.mem_cons, List.not_mem_nil, or_false] at ho
  rcases ho with rfl | rfl | rfl | rfl | rfl | rfl | rfl <;> simp [atClose]

/-- A text whose first unit is nothing and ends where a group does. -/
theorem compileAny_of_nothing {cs rest : List Char} (hc : ¬atClose cs = true)
    (h : compileUnit F st cs = pure (none, rest)) (hr : atClose rest = true) :
    compileAny F st cs = pure (none, rest) := by
  rw [compileAny, anyParts_eq hc, compileAll, allParts_eq hc, h]
  simp only [pure_bind, skipBlanks_of_atClose hr, atOr_of_atClose hr, skipAnd_of_atClose hr,
    Bool.false_eq_true, ↓reduceIte]
  rw [allParts, if_pos hr]
  simp [combine, atOr_of_atClose hr]

theorem compileAny_loose_unmarked (ho : o ∈ looseOperators)
    (hm : isMarked (Text.skipBlanks query) = false) :
    compileAny F st (o.toList ++ ' ' :: query) = compileAny F st query := by
  have hu := compileUnit_loose F st ho query
  by_cases hc : atClose query = true
  · have hs : skipStray query = query := by
      rcases eq_nil_or_cons_of_atClose hc with rfl | ⟨tail, rfl⟩ <;> rfl
    rw [compileTerm, hs, if_pos hc] at hu
    rw [compileAny_of_nothing (not_atClose_loose ho query) hu hc, compileAny, anyParts, if_pos hc]
    rfl
  · refine compileAny_congr F st (not_atClose_loose ho query) hc ?_
    rw [hu, compileUnit_unmarked F st hm]

theorem compileAny_loose_marked (ho : o ∈ looseOperators)
    (hm : isMarked (Text.skipBlanks query) = true)
    (hn : ¬"!=".toList <+: Text.skipBlanks query) :
    compileAny F st (o.toList ++ ' ' :: query) =
      compileAny F st ('\\' :: Text.skipBlanks query) := by
  have hw : inWord (Text.skipBlanks query) = true := by
    obtain ⟨c, cs, hs, rfl | rfl | rfl⟩ := exists_of_isMarked hm
    · rw [hs] at hn ⊢
      have he : cs.head? ≠ some '=' := by
        intro he
        obtain ⟨tail, rfl⟩ := List.head?_eq_some_iff.mp he
        exact hn ⟨tail, rfl⟩
      have ho : atOperator ('!' :: cs) = false := by
        rw [atOperator, Operator.at?, matchAt_mark he]
        rfl
      simp [inWord, ho, Text.isBlank]
    · rw [hs]
      exact inWord_of_not_startsOperator (by decide) (by decide) (by decide) cs
    · rw [hs]
      exact inWord_of_not_startsOperator (by decide) (by decide) (by decide) cs
  refine compileAny_congr F st (not_atClose_loose ho query) (by simp [atClose]) ?_
  rw [compileUnit_loose F st ho, compileUnit_backslash F st hm hw]
  exact compileTerm_congr F st (skipStray_skipBlanks query).symm

theorem compileAny_loose_unequal (ho : o ∈ looseOperators) {rest : List Char}
    (hs : Text.skipBlanks query = '!' :: '=' :: rest) :
    compileAny F st (o.toList ++ ' ' :: query) = compileAny F st (o.toList ++ ' ' :: rest) := by
  refine compileAny_congr F st (not_atClose_loose ho query) (not_atClose_loose ho rest) ?_
  rw [compileUnit_loose F st ho, compileUnit_loose F st ho]
  apply compileTerm_congr
  rw [← skipStray_skipBlanks, hs]
  show skipStray ('=' :: rest) = skipStray rest
  exact skipStray_cons (by decide) rest

/-- An operator in front of a query drops out unless a negation, a group or a tag comes next. Of
these the sign is read as the first character of a word, as if it stood behind a backslash, except
that a `!=` drops out as well. -/
theorem compile_loose (F : Factory C) (st : Setting Handler) {o : String} (ho : o ∈ looseOperators)
    (query : String) (c : Option C) :
    (isMarked (Text.skipBlanks query.toList) = false →
        ((compile F st (o ++ " " ++ query)).result = .ok c ↔
          (compile F st query).result = .ok c)) ∧
      (isMarked (Text.skipBlanks query.toList) = true →
        ¬"!=".toList <+: Text.skipBlanks query.toList →
          ((compile F st (o ++ " " ++ query)).result = .ok c ↔
            (compile F st (String.ofList ('\\' :: Text.skipBlanks query.toList))).result = .ok c)) ∧
      ∀ rest, Text.skipBlanks query.toList = '!' :: '=' :: rest →
        ((compile F st (o ++ " " ++ query)).result = .ok c ↔
          (compile F st (o ++ " " ++ String.ofList rest)).result = .ok c) := by
  have htext (q : String) : (o ++ " " ++ q).toList = o.toList ++ ' ' :: q.toList := by simp
  refine ⟨fun hm => ?_, fun hm hn => ?_, fun rest hs => ?_⟩
  · refine compile_eq_ok_congr F st ?_ c
    rw [htext, compileAny_loose_unmarked ho hm]
  · refine compile_eq_ok_congr F st ?_ c
    rw [htext, String.toList_ofList, compileAny_loose_marked ho hm hn]
  · refine compile_eq_ok_congr F st ?_ c
    rw [htext, htext, String.toList_ofList, compileAny_loose_unequal ho hs]

/-- A negation behind an operator that compares nothing is lost. -/
theorem not_compile_loose :
    "=" ∈ looseOperators ∧
      (compile FilterTree.factory sampleSetting "!bo").result =
        .ok (some (.negate sampleWords)) ∧
      (compile FilterTree.factory sampleSetting "= !bo").result =
        .ok (some (.all [.any [.search ⟨"name"⟩ .like "!bo"]])) ∧
      ¬∀ o ∈ looseOperators, ∀ query c,
        (compile FilterTree.factory sampleSetting query).result = .ok c →
          (compile FilterTree.factory sampleSetting (o ++ " " ++ query)).result = .ok c := by
  have ho : "=" ∈ looseOperators := by decide
  have hq : (compile FilterTree.factory sampleSetting "!bo").result =
      .ok (some (.negate sampleWords)) := by cbv
  have hl : (compile FilterTree.factory sampleSetting "= !bo").result =
      .ok (some (.all [.any [.search ⟨"name"⟩ .like "!bo"]])) := by cbv
  refine ⟨ho, hq, hl, fun h => ?_⟩
  cases hl.symm.trans (h "=" ho "!bo" _ hq)

/-- What stands behind a loose operator: an alternative, a group, and one more operator. -/
theorem compile_sampleLoose :
    "<=" ∈ looseOperators ∧ isMarked (Text.skipBlanks " bo or !age<9".toList) = false ∧
      (compile FilterTree.factory sampleSetting "<=  bo or !age<9").result = .ok (some
        (.any [sampleWords, .negate (.compare ⟨"age"⟩ .lessThan (.int 9))])) ∧
      isMarked (Text.skipBlanks " (bo age<9".toList) = true ∧
      (compile FilterTree.factory sampleSetting "<=  (bo age<9").result = .ok (some
        (.all [.all [.any [.search ⟨"name"⟩ .like "(bo"]], .compare ⟨"age"⟩ .lessThan (.int 9)])) ∧
      (compile FilterTree.factory sampleSetting "<= != bo").result = .ok (some sampleWords) := by
  have ho : "<=" ∈ looseOperators := by decide
  have h₁ : (compile FilterTree.factory sampleSetting " bo or !age<9").result = .ok (some
      (.any [sampleWords, .negate (.compare ⟨"age"⟩ .lessThan (.int 9))])) := by cbv
  have h₂ : (compile FilterTree.factory sampleSetting "\\(bo age<9").result = .ok (some
      (.all [.all [.any [.search ⟨"name"⟩ .like "(bo"]],
        .compare ⟨"age"⟩ .lessThan (.int 9)])) := by cbv
  have h₃ : (compile FilterTree.factory sampleSetting "<=  bo").result =
      .ok (some sampleWords) := by cbv
  have hm₁ : isMarked (Text.skipBlanks " bo or !age<9".toList) = false := by cbv
  have hm₂ : isMarked (Text.skipBlanks " (bo age<9".toList) = true := by cbv
  exact ⟨ho, hm₁, ((compile_loose FilterTree.factory sampleSetting ho _ _).1 hm₁).mpr h₁, hm₂,
    ((compile_loose FilterTree.factory sampleSetting ho " (bo age<9" _).2.1 hm₂ (by decide)).mpr h₂,
    ((compile_loose FilterTree.factory sampleSetting ho "!= bo" _).2.2 [' ', 'b', 'o']
      (by cbv)).mpr h₃⟩

end FilterQuery.Query
