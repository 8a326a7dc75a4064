import FilterQuery.Proofs.Query.Progress

/-!
The loops that a query is read with. A loop looks at the unread text to see whether it goes on, and
each of its passes takes at least one character. The passes over single characters show it
themselves; those over conjoined units and over alternatives leave it to the units, which take
something wherever a loop calls them. The scanners and the lists of parts end where their loops do.
-/
namespace FilterQuery.Query

open Build

variable {C Handler : Type} [TagHandler Handler C] {F : Factory C} {st : Setting Handler}

/-- The loops, each under what it goes through. -/
inductive Loop where
  | blanks | stray | quoted
  /-- A word outside quotes. Once it has begun it also ends in front of an exclamation mark. -/
  | word (begun : Bool)
  | extension | value | payload | units | alternatives
  deriving DecidableEq, Repr

namespace Loop

/-- Whether a pass is made. To find the mark in front of which a word ends is none. -/
def goesOn : Loop → List Char → Bool
  | .blanks, cs => cs.head?.any Text.isBlank
  | .stray, cs => !(atClose cs || inWord cs)
  | .quoted, cs => !cs.isEmpty && cs.head? != some '"'
  | .word begun, cs => inWord cs && !(begun && cs.head? == some '!')
  | .extension, cs => atOperator cs || inWord cs
  | .value, cs => inValue cs
  | .payload, cs => !cs.isEmpty && !atTag cs
  | .units, cs => !atClose cs
  | .alternatives, cs => !atClose cs

variable (F st) in
/-- The text after a pass, and how the loop goes on there unless the pass leaves it. -/
def pass (loop : Loop) (cs : List Char) : List Char × Option Loop :=
  match loop with
  | .blanks | .stray | .payload => (cs.tail, some loop)
  | .quoted | .extension | .value => ((takeEscaped cs).2, some loop)
  | .word _ => ((takeEscaped cs).2, some (.word true))
  | .units =>
    match (compileUnit F st cs).result with
    | .error s => (s.unread, none)
    | .ok (_, rest) =>
      let rest := Text.skipBlanks rest
      if atOr rest then (rest, none) else (skipAnd rest, some loop)
  | .alternatives =>
    match (compileAll F st cs).result with
    | .error s => (s.unread, none)
    | .ok (_, rest) => if atOr rest then (rest.drop 2, some loop) else (rest, none)

theorem ne_nil_of_goesOn {loop : Loop} {cs : List Char} (h : loop.goesOn cs = true) :
    cs ≠ [] := by
  rintro rfl
  cases loop <;> simp [goesOn, inWord, atOperator, Operator.at?, inValue, atClose] at h

theorem takeEscaped_suffix_tail (cs : List Char) : (takeEscaped cs).2 <:+ cs.tail := by
  fun_cases takeEscaped cs with
  | case1 => exact List.suffix_rfl
  | case2 c cs => exact List.suffix_cons c cs
  | case3 c cs => exact List.suffix_rfl

/-- Every pass of a loop takes something. -/
theorem pass_takes {loop : Loop} {cs : List Char} (h : loop.goesOn cs = true) :
    (loop.pass F st cs).1 <:+ cs.tail := by
  cases loop with
  | blanks => exact List.suffix_rfl
  | stray => exact List.suffix_rfl
  | payload => exact List.suffix_rfl
  | quoted => exact takeEscaped_suffix_tail cs
  | word => exact takeEscaped_suffix_tail cs
  | extension => exact takeEscaped_suffix_tail cs
  | value => exact takeEscaped_suffix_tail cs
  | units =>
    have ht : EndsIn cs.tail (compileUnit F st cs) :=
      compileUnit_takes (by simpa [goesOn] using h)
    rw [pass]
    cases hr : (compileUnit F st cs).result with
    | error s => exact ht.stop s hr
    | ok r =>
      have hb := (skipBlanks_suffix r.2).trans (ht.rest r hr)
      simp only
      split
      · exact hb
      · exact (skipAnd_suffix _).trans hb
  | alternatives =>
    have ht : EndsIn cs.tail (compileAll F st cs) :=
      compileAll_takes (by simpa [goesOn] using h)
    rw [pass]
    cases hr : (compileAll F st cs).result with
    | error s => exact ht.stop s hr
    | ok r =>
      simp only
      split
      · exact (List.drop_suffix 2 r.2).trans (ht.rest r hr)
      · exact ht.rest r hr

theorem pass_length_lt {loop : Loop} {cs : List Char} (h : loop.goesOn cs = true) :
    (loop.pass F st cs).1.length < cs.length :=
  length_lt_of_suffix_tail (ne_nil_of_goesOn h) (pass_takes h)

variable (F st) in
/-- The text where a loop ends. -/
def run (loop : Loop) (cs : List Char) : List Char :=
  if _goesOn : loop.goesOn cs = true then
    match (loop.pass F st cs).2 with
    | some loop' => run loop' (loop.pass F st cs).1
    | none => (loop.pass F st cs).1
  else cs
termination_by cs.length
decreasing_by exact pass_length_lt _goesOn

theorem run_of_not_goesOn {loop : Loop} {cs : List Char} (h : loop.goesOn cs = false) :
    loop.run F st cs = cs := by
  rw [run, dif_neg (by simp [h])]

theorem run_of_some {loop loop' : Loop} {cs : List Char} (h : loop.goesOn cs = true)
    (hp : (loop.pass F st cs).2 = some loop') :
    loop.run F st cs = loop'.run F st (loop.pass F st cs).1 := by
  rw [run, dif_pos h, hp]

/-- A function that keeps its value over every pass, has the text of a pass that leaves the loop as
its value, and is the text itself where no pass is made, is where the loop ends. -/
theorem run_eq {loop : Loop} {f : List Char → List Char}
    (hstop : ∀ cs, loop.goesOn cs = false → f cs = cs)
    (hpass : ∀ cs, loop.goesOn cs = true → loop.pass F st cs = (f cs, none) ∨
      ∃ ds, loop.pass F st cs = (ds, some loop) ∧ f cs = f ds) (cs : List Char) :
    loop.run F st cs = f cs := by
  cases hg : loop.goesOn cs with
  | false => rw [run_of_not_goesOn hg, hstop cs hg]
  | true =>
    have hlt : (loop.pass F st cs).1.length < cs.length := pass_length_lt hg
    rcases hpass cs hg with hp | ⟨ds, hp, hf⟩
    · rw [run, dif_pos hg, hp]
    · rw [run_of_some hg (by rw [hp]), hp, hf]
      exact run_eq hstop hpass ds
termination_by cs.length
decreasing_by
  rw [hp] at hlt
  exact hlt

theorem run_blanks (cs : List Char) : Loop.blanks.run F st cs = Text.skipBlanks cs := by
  refine run_eq ?_ ?_ cs
  · intro cs h
    cases cs with
    | nil => rfl
    | cons c cs => exact Text.skipBlanks_cons (by simpa [goesOn] using h) cs
  · intro cs h
    cases cs with
    | nil => exact absurd rfl (ne_nil_of_goesOn h)
    | cons c cs =>
      have hb : Text.isBlank c = true := by simpa [goesOn] using h
      exact .inr ⟨cs, rfl, List.dropWhile_cons_of_pos hb⟩

theorem run_stray (cs : List Char) : Loop.stray.run F st cs = skipStray cs := by
  refine run_eq ?_ ?_ cs
  · intro cs h
    cases cs with
    | nil => rfl
    | cons c cs => rw [skipStray, if_pos (by simpa only [goesOn, Bool.not_eq_false'] using h)]
  · intro cs h
    cases cs with
    | nil => exact absurd rfl (ne_nil_of_goesOn h)
    | cons c cs =>
      refine .inr ⟨cs, rfl, ?_⟩
      rw [skipStray, if_neg (by simpa [goesOn] using h)]

theorem run_payload (cs : List Char) :
    (Loop.payload.run F st cs).drop 2 = (takePayload cs).2 := by
  fun_induction takePayload cs with
  | case1 => rw [run_of_not_goesOn rfl, List.drop_nil]
  | case2 cs => rw [run_of_not_goesOn rfl, List.drop_succ_cons, List.drop_succ_cons, List.drop_zero]
  | case3 c cs h taken rest ht ih =>
    have hn : atTag (c :: cs) = false := by
      rw [atTag]
      intro ds he
      obtain ⟨hc, hds⟩ := List.cons.inj he
      exact h ds hc hds
    rw [ht] at ih
    rw [run_of_some (by simp [goesOn, hn]) rfl]
    exact ih

theorem takeEscapedWhile_next {p : List Char → Bool} {cs : List Char} (h : p cs = true) :
    (takeEscapedWhile p cs).2 = (takeEscapedWhile p (takeEscaped cs).2).2 := by
  fun_cases takeEscapedWhile p cs with
  | case1 => rfl
  | case2 c cs _ taken rest hr => rw [takeEscaped, hr]
  | case3 c cs hn => exact absurd h hn
  | case4 c cs hc _ taken rest hr =>
    have hs : (takeEscaped (c :: cs)).2 = cs := by
      rw [takeEscaped]
      exact hc
    rw [hs, hr]
  | case5 c cs _ hn => exact absurd h hn

/-- A loop whose passes take a character, or one behind a backslash. -/
theorem run_escaped {loop : Loop} {p : List Char → Bool}
    (hp : ∀ cs, cs ≠ [] → loop.goesOn cs = p cs)
    (ht : ∀ cs, loop.pass F st cs = ((takeEscaped cs).2, some loop)) (cs : List Char) :
    loop.run F st cs = (takeEscapedWhile p cs).2 := by
  refine run_eq (f := fun cs => (takeEscapedWhile p cs).2) ?_ ?_ cs
  · intro cs h
    have hstop : cs = [] ∨ p cs = false := by
      by_cases hne : cs = []
      · exact .inl hne
      · exact .inr (by rw [← hp cs hne, h])
    simp only [takeEscapedWhile_stop hstop]
  · intro cs h
    have hne := ne_nil_of_goesOn h
    rw [hp cs hne] at h
    exact .inr ⟨_, ht cs, takeEscapedWhile_next h⟩

theorem run_quoted (cs : List Char) : (Loop.quoted.run F st cs).tail = (takeQuoted cs).2 := by
  rw [run_escaped (p := (·.head? != some '"')) ?_ fun _ => rfl]
  · rfl
  · intro ds hne
    simp [goesOn, hne]

/-- A word that is begun where one may begin. -/
theorem run_word {cs : List Char} (h : inWord cs = true) :
    (Loop.word false).run F st cs = (takeWord cs).2 := by
  rw [run_of_some (by simpa [goesOn] using h) rfl,
    run_escaped (p := fun cs => inWord cs && cs.head? != some '!') (by simp [goesOn, bne])
      fun _ => rfl]
  rfl

theorem run_extension (t : Term) (cs : List Char) :
    Loop.extension.run F st cs = (extendTerm t cs).2 :=
  run_escaped (p := fun cs => atOperator cs || inWord cs) (fun _ _ => rfl) (fun _ => rfl) cs

theorem run_value (cs : List Char) : Loop.value.run F st cs = (takeEscapedWhile inValue cs).2 :=
  run_escaped (fun _ _ => rfl) (fun _ => rfl) cs

/-- The conjoined units end where their loop does. -/
theorem run_units (cs : List Char) : Loop.units.run F st cs = (allParts F st cs).unread := by
  refine run_eq (f := fun cs => (allParts F st cs).unread) ?_ ?_ cs
  · intro cs h
    have hc : atClose cs = true := by simpa [goesOn] using h
    show (allParts F st cs).unread = cs
    rw [allParts, if_pos hc]
    rfl
  · intro cs h
    have hc : ¬atClose cs = true := by simpa [goesOn] using h
    simp only [pass, allParts_eq hc]
    cases hr : (compileUnit F st cs).result with
    | error s => exact .inl (by rw [unread_bind_error hr])
    | ok r =>
      rw [unread_bind_ok hr]
      by_cases ho : atOr (Text.skipBlanks r.2) = true
      · simp only [ho, ↓reduceIte]
        exact .inl rfl
      · simp only [ho, Bool.false_eq_true, ↓reduceIte]
        exact .inr ⟨_, rfl, unread_bind_pure _ (r.1.toList ++ ·)⟩

/-- The alternatives end where their loop does. -/
theorem run_alternatives (cs : List Char) :
    Loop.alternatives.run F st cs = (anyParts F st cs).unread := by
  refine run_eq (f := fun cs => (anyParts F st cs).unread) ?_ ?_ cs
  · intro cs h
    have hc : atClose cs = true := by simpa [goesOn] using h
    show (anyParts F st cs).unread = cs
    rw [anyParts, if_pos hc]
    rfl
  · intro cs h
    have hc : ¬atClose cs = true := by simpa [goesOn] using h
    simp only [pass, anyParts_eq hc]
    cases hr : (compileAll F st cs).result with
    | error s => exact .inl (by rw [unread_bind_error hr])
    | ok r =>
      rw [unread_bind_ok hr]
      by_cases ho : atOr r.2 = true
      · simp only [ho, ↓reduceIte]
        exact .inr ⟨_, rfl, unread_bind_pure _ (r.1.toList ++ ·)⟩
      · simp only [ho, Bool.false_eq_true, ↓reduceIte]
        exact .inl rfl

end Loop

variable (F st) in
/-- The scanners and the lists of parts end where the loops lead from a text. -/
structure EndsByLoops (cs : List Char) : Prop where
  blanks : Text.skipBlanks cs = Loop.blanks.run F st cs
  stray : skipStray cs = Loop.stray.run F st cs
  quoted : (takeQuoted cs).2 = (Loop.quoted.run F st cs).tail
  word : inWord cs = true → (takeWord cs).2 = (Loop.word false).run F st cs
  extension : ∀ t, (extendTerm t cs).2 = Loop.extension.run F st cs
  value : (takeEscapedWhile inValue cs).2 = Loop.value.run F st cs
  payload : (takePayload cs).2 = (Loop.payload.run F st cs).drop 2
  units : (allParts F st cs).unread = Loop.units.run F st cs
  alternatives : (anyParts F st cs).unread = Loop.alternatives.run F st cs

theorem endsByLoops (cs : List Char) : EndsByLoops F st cs where
  blanks := (Loop.run_blanks cs).symm
  stray := (Loop.run_stray cs).symm
  quoted := (Loop.run_quoted cs).symm
  word := fun h => (Loop.run_word h).symm
  extension := fun t => (Loop.run_extension t cs).symm
  value := (Loop.run_value cs).symm
  payload := (Loop.run_payload cs).symm
  units := (Loop.run_units cs).symm
  alternatives := (Loop.run_alternatives cs).symm

end FilterQuery.Query
