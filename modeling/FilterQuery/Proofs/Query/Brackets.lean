import FilterQuery.Proofs.Query.Shape
import FilterQuery.Proofs.Query.Stopping

/-!
Brackets that do not match. A compilation ends at the end of its query or at a closing bracket
that closes nothing, and it makes no difference which of the two it is. An opening bracket that is
never closed is closed by the end of the query.
-/
namespace FilterQuery.Query

open Build

variable {C Handler : Type} [TagHandler Handler C] {F : Factory C} {st : Setting Handler}

/-- Conjoined units end where their group does, or at an alternative. -/
theorem allParts_ends (cs : List Char) {parts : List C} {rest : List Char}
    (h : (allParts F st cs).result = .ok (parts, rest)) :
    atClose rest = true ∨ atOr rest = true := by
  by_cases hc : atClose cs = true
  · rw [allParts, if_pos hc] at h
    cases h
    exact .inl hc
  · rw [allParts_eq hc] at h
    obtain ⟨⟨part, after⟩, hu, h⟩ := bind_result_eq_ok.mp h
    by_cases ho : atOr (Text.skipBlanks after) = true
    · simp only [ho, ↓reduceIte] at h
      cases h
      exact .inr ho
    · simp only [ho, Bool.false_eq_true, ↓reduceIte] at h
      obtain ⟨⟨parts', rest'⟩, hp, h⟩ := bind_result_eq_ok.mp h
      cases h
      have hlt : after.length < cs.length := compileUnit_rest_lt hc hu
      have hb := Text.skipBlanks_length_le after
      have ha := skipAnd_length_le (Text.skipBlanks after)
      exact allParts_ends (skipAnd (Text.skipBlanks after)) hp
termination_by cs.length
decreasing_by omega

theorem compileAll_ends {cs rest : List Char} {c : Option C}
    (h : (compileAll F st cs).result = .ok (c, rest)) :
    atClose rest = true ∨ atOr rest = true := by
  rw [compileAll] at h
  obtain ⟨⟨parts, rest'⟩, hp, h⟩ := bind_result_eq_ok.mp h
  obtain ⟨c', -, h⟩ := bind_result_eq_ok.mp h
  cases h
  exact allParts_ends cs hp

/-- Alternatives go on as long as there is a keyword for one more. -/
theorem anyParts_ends (cs : List Char) {parts : List C} {rest : List Char}
    (h : (anyParts F st cs).result = .ok (parts, rest)) : atClose rest = true := by
  by_cases hc : atClose cs = true
  · rw [anyParts, if_pos hc] at h
    cases h
    exact hc
  · rw [anyParts_eq hc] at h
    obtain ⟨⟨part, after⟩, ha, h⟩ := bind_result_eq_ok.mp h
    by_cases ho : atOr after = true
    · simp only [ho, ↓reduceIte] at h
      obtain ⟨⟨parts', rest'⟩, hp, h⟩ := bind_result_eq_ok.mp h
      cases h
      have hle : after.length ≤ cs.length := compileAll_rest_le ha
      have hlt := drop_length_lt_of_atOr ho
      exact anyParts_ends (after.drop 2) hp
    · simp only [ho, Bool.false_eq_true, ↓reduceIte] at h
      cases h
      exact (compileAll_ends ha).resolve_right ho
termination_by cs.length
decreasing_by omega

theorem compileAny_ends {cs rest : List Char} {c : Option C}
    (h : (compileAny F st cs).result = .ok (c, rest)) : atClose rest = true := by
  rw [compileAny] at h
  obtain ⟨⟨parts, rest'⟩, hp, h⟩ := bind_result_eq_ok.mp h
  obtain ⟨c', -, h⟩ := bind_result_eq_ok.mp h
  cases h
  exact anyParts_ends cs hp

/-- How many characters of a query have been read when its compilation ends. -/
def endPosition (F : Factory C) (st : Setting Handler) (query : String) : Nat :=
  match (compileAny F st query.toList).result with
  | .ok (_, rest) => query.toList.length - rest.length
  | .error stop => query.toList.length - stop.unread.length

/-- A compilation succeeds where its run does, and cuts the query in two. -/
theorem compile_eq_ok {query : String} {c : Option C} (h : (compile F st query).result = .ok c) :
    ∃ before rest, query.toList = before ++ rest ∧
      (compileAny F st query.toList).result = .ok (c, rest) ∧
      endPosition F st query = before.length := by
  rw [compile] at h
  cases hr : (compileAny F st query.toList).result with
  | error s => simp [hr] at h
  | ok r =>
    obtain ⟨c', rest⟩ := r
    obtain ⟨before, hq⟩ := (rules_leave.1 query.toList).rest _ hr
    have hc : c' = c := by simpa [hr] using h
    refine ⟨before, rest, hq.symm, by rw [hc], ?_⟩
    have hl : before.length + rest.length = query.toList.length := by simp [← hq]
    rw [endPosition, hr]
    show query.toList.length - rest.length = before.length
    omega

/-- A bracket in front of a text that is compiled to its end. -/
theorem compileAny_opening {cs : List Char} {c : Option C}
    (h : (compileAny F st cs).result = .ok (c, [])) :
    (compileAny F st ('(' :: cs)).result = .ok (c, []) := by
  have hs : Text.skipBlanks ('(' :: cs) = '(' :: cs := Text.skipBlanks_cons (by decide) cs
  have hgroup : Reads c [] (compileUnit F st ('(' :: cs)) := by
    have hr : (compileAny F st cs).Returns (c, []) := ⟨fun _ _ => trivial, h⟩
    rw [compileUnit_group hs]
    exact ⟨[], hr.bind (yields_pure _), rfl⟩
  exact (compileAny_item F st (by simp [atClose]) hgroup rfl).result

/-- A compilation ends at the end of its query or at a closing bracket that closes nothing. Such
a bracket is like the end of the query, whatever follows it; and if there is none, an opening
bracket may be put in front and left open. All this holds of every kind of tag handler. -/
theorem compile_brackets (F : Factory C) (st : Setting Handler) (query : String) {c : Option C}
    (h : (compile F st query).result = .ok c) :
    (endPosition F st query = query.toList.length ∨
        query.toList[endPosition F st query]? = some ')') ∧
      (query.toList[endPosition F st query]? = some ')' →
        (compile F st (String.ofList (query.toList.take (endPosition F st query)))).result =
            .ok c ∧
          ∀ text : List Char,
            (compile F st (String.ofList
              (query.toList.take (endPosition F st query) ++ ')' :: text))).result = .ok c) ∧
      (endPosition F st query = query.toList.length →
        (compile F st (String.ofList ('(' :: query.toList))).result = .ok c) := by
  obtain ⟨before, rest, hq, hr, hn⟩ := compile_eq_ok h
  have hclose := compileAny_ends hr
  have htake : query.toList.take before.length = before := by rw [hq, List.take_left]
  have hget : query.toList[before.length]? = rest.head? := by
    rw [hq, List.getElem?_append_right (Nat.le_refl _), Nat.sub_self, List.head?_eq_getElem?]
  rw [hn, htake, hget]
  refine ⟨?_, ?_, ?_⟩
  · rcases eq_nil_or_cons_of_atClose hclose with rfl | ⟨tail, rfl⟩
    · exact .inl (by simp [hq])
    · exact .inr rfl
  · intro hb
    obtain ⟨tail, rfl⟩ := List.head?_eq_some_iff.mp hb
    have hother (text : List Char) (ht : atClose text = true) :
        (compile F st (String.ofList (before ++ text))).result = .ok c :=
      compile_ofList (((rules_agree (.close tail ht)).1 _ before hq).ok c [] hr)
    refine ⟨?_, fun text => hother (')' :: text) rfl⟩
    simpa using hother [] rfl
  · intro he
    have hnil : rest = [] := by simpa [hq] using he
    rw [hnil] at hr
    exact compile_ofList (compileAny_opening hr)

/-- A closing bracket between quotes, one that closes a group, and one that closes nothing. -/
def sampleStray : String := "!(name=\")\" or bo) ) age<9"

/-- A group, a group inside it and a quoted phrase, all left open. -/
def sampleOpen : String := "bo ((age<9 or \"x)"

theorem compile_sampleBrackets :
    (compile FilterTree.factory sampleSetting sampleStray).result = .ok (some
        (.negate (.any [.compare ⟨"name"⟩ .equal (.string ")"), sampleWords]))) ∧
      sampleStray.toList[endPosition FilterTree.factory sampleSetting sampleStray]? = some ')' ∧
      (compile FilterTree.factory sampleSetting "!(name=\")\" or bo) ").result = .ok (some
        (.negate (.any [.compare ⟨"name"⟩ .equal (.string ")"), sampleWords]))) ∧
      (compile FilterTree.factory sampleSetting "!(name=\")\" or bo) )((or !").result = .ok (some
        (.negate (.any [.compare ⟨"name"⟩ .equal (.string ")"), sampleWords]))) ∧
      endPosition FilterTree.factory sampleSetting sampleOpen = sampleOpen.toList.length ∧
      (compile FilterTree.factory sampleSetting "(bo ((age<9 or \"x)").result = .ok (some
        (.all [sampleWords, .any [.compare ⟨"age"⟩ .lessThan (.int 9),
          .all [.any [.search ⟨"name"⟩ .equal "x)"]]]])) := by
  have hs : (compile FilterTree.factory sampleSetting sampleStray).result = .ok (some
      (.negate (.any [.compare ⟨"name"⟩ .equal (.string ")"), sampleWords]))) := by cbv
  have ho : (compile FilterTree.factory sampleSetting sampleOpen).result = .ok (some
      (.all [sampleWords, .any [.compare ⟨"age"⟩ .lessThan (.int 9),
        .all [.any [.search ⟨"name"⟩ .equal "x)"]]]])) := by cbv
  have hp : endPosition FilterTree.factory sampleSetting sampleStray = 18 := by cbv
  have he : endPosition FilterTree.factory sampleSetting sampleOpen = sampleOpen.toList.length := by
    cbv
  have hb : sampleStray.toList[endPosition FilterTree.factory sampleSetting sampleStray]? =
      some ')' := by
    rw [hp]
    decide
  have hstray := (compile_brackets FilterTree.factory sampleSetting sampleStray hs).2.1 hb
  rw [hp] at hstray
  have hopen := (compile_brackets FilterTree.factory sampleSetting sampleOpen ho).2.2 he
  exact ⟨hs, hb, hstray.1, hstray.2 "((or !".toList, he, hopen⟩

end FilterQuery.Query
