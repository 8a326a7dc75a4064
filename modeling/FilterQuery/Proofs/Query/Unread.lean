import FilterQuery.Proofs.Query.Rules

/-!
What stays unread. Scanners and rules take text off the front, so what they leave is always the
end of the text they began with. A run stops in one place only: at an exclamation mark that
begins no operator, directly behind an unquoted field that resolves.
-/
namespace FilterQuery.Query

open Build

theorem suffix_cons_cons {c d : Char} {rest cs : List Char} (h : rest <:+ cs) :
    rest <:+ c :: d :: cs :=
  h.trans (List.suffix_append [c, d] cs)

theorem skipBlanks_suffix (cs : List Char) : Text.skipBlanks cs <:+ cs :=
  List.dropWhile_suffix Text.isBlank

theorem suffix_of_skipBlanks_eq (front : List Char) {rest cs : List Char}
    (h : Text.skipBlanks cs = front ++ rest) : rest <:+ cs := by
  have hb := skipBlanks_suffix cs
  rw [h] at hb
  exact (List.suffix_append front rest).trans hb

theorem takeEscapedWhile_suffix (p : List Char → Bool) (cs : List Char) :
    (takeEscapedWhile p cs).2 <:+ cs := by
  fun_induction takeEscapedWhile p cs with
  | case1 => exact List.suffix_rfl
  | case2 c cs h taken rest ht ih =>
    rw [ht] at ih
    exact suffix_cons_cons ih
  | case3 => exact List.suffix_rfl
  | case4 c cs _ h taken rest ht ih =>
    rw [ht] at ih
    exact ih.trans (List.suffix_cons c cs)
  | case5 => exact List.suffix_rfl

theorem takeEscaped_suffix (cs : List Char) : (takeEscaped cs).2 <:+ cs := by
  fun_cases takeEscaped cs with
  | case1 => exact List.suffix_rfl
  | case2 c cs => exact suffix_cons_cons List.suffix_rfl
  | case3 c cs => exact List.suffix_cons c cs

theorem takeQuoted_suffix (cs : List Char) : (takeQuoted cs).2 <:+ cs :=
  (List.tail_suffix _).trans (takeEscapedWhile_suffix _ cs)

theorem takeWord_suffix (cs : List Char) : (takeWord cs).2 <:+ cs :=
  (takeEscapedWhile_suffix _ _).trans (takeEscaped_suffix cs)

theorem takeTerm_suffix (cs : List Char) : (takeTerm cs).2 <:+ cs := by
  fun_cases takeTerm cs with
  | case1 cs taken rest ht =>
    have hq := takeQuoted_suffix cs
    rw [ht] at hq
    exact hq.trans (List.suffix_cons '"' cs)
  | case2 cs _ taken rest ht =>
    have hw := takeWord_suffix cs
    rwa [ht] at hw

theorem extendTerm_suffix (t : Term) (cs : List Char) : (extendTerm t cs).2 <:+ cs :=
  takeEscapedWhile_suffix _ cs

theorem takeValue_suffix (cs : List Char) : (takeValue cs).2 <:+ cs := by
  have hb := skipBlanks_suffix cs
  fun_cases takeValue cs with
  | case1 rest hs taken rest' ht =>
    have hq := takeQuoted_suffix rest
    rw [ht] at hq
    rw [hs] at hb
    exact hq.trans ((List.suffix_cons '"' rest).trans hb)
  | case2 _ taken rest' ht =>
    have hv := takeEscapedWhile_suffix inValue (Text.skipBlanks cs)
    rw [ht] at hv
    exact hv.trans hb

theorem takePayload_suffix (cs : List Char) : (takePayload cs).2 <:+ cs := by
  fun_induction takePayload cs with
  | case1 => exact List.suffix_rfl
  | case2 cs => exact suffix_cons_cons List.suffix_rfl
  | case3 c cs _ taken rest ht ih =>
    rw [ht] at ih
    exact ih.trans (List.suffix_cons c cs)

theorem skipStray_suffix (cs : List Char) : skipStray cs <:+ cs := by
  fun_induction skipStray cs with
  | case1 => exact List.suffix_rfl
  | case2 => exact List.suffix_rfl
  | case3 c cs h ih => exact ih.trans (List.suffix_cons c cs)

theorem dropClose_suffix (cs : List Char) : dropClose cs <:+ cs := by
  fun_cases dropClose cs with
  | case1 cs => exact List.suffix_cons ')' cs
  | case2 => exact List.suffix_rfl

theorem skipAnd_suffix (cs : List Char) : skipAnd cs <:+ cs := by
  rw [skipAnd]
  split
  · exact List.drop_suffix 3 cs
  · split
    · exact List.drop_suffix 2 cs
    · exact List.suffix_rfl

theorem takeEscapedWhile_append (p : List Char → Bool) {cs : List Char} (h : '\\' ∉ cs) :
    (takeEscapedWhile p cs).1 ++ (takeEscapedWhile p cs).2 = cs := by
  fun_induction takeEscapedWhile p cs with
  | case1 => rfl
  | case2 => simp at h
  | case3 => rfl
  | case4 c cs _ _ taken rest ht ih =>
    rw [List.mem_cons, not_or] at h
    have hc := ih h.2
    rw [ht] at hc
    rw [if_neg (Ne.symm h.1), List.cons_append, hc]
  | case5 => rfl

theorem takeWord_append {cs : List Char} (h : '\\' ∉ cs) :
    (takeWord cs).1 ++ (takeWord cs).2 = cs := by
  cases cs with
  | nil => rfl
  | cons c cs =>
    rw [List.mem_cons, not_or] at h
    have ht : takeEscaped (c :: cs) = ([c], cs) := by
      rw [takeEscaped, if_neg (Ne.symm h.1)]
      intro d ds he
      exact absurd he.symm h.1
    simp only [takeWord, ht, List.cons_append, List.nil_append]
    rw [takeEscapedWhile_append _ h.2]

/-- An unquoted term is the text that was read for it. -/
theorem takeTerm_append {cs : List Char} (h : '\\' ∉ cs) (hx : (takeTerm cs).1.exact = false) :
    (takeTerm cs).1.text.toList ++ (takeTerm cs).2 = cs := by
  fun_cases takeTerm cs with
  | case1 cs taken rest ht => simp [takeTerm, ht] at hx
  | case2 cs _ taken rest ht =>
    have hw := takeWord_append h
    rw [ht] at hw
    simpa using hw

variable {Handler : Type}

/-- A run that began with the text `cs` may stop in front of an exclamation mark that is no part
of an operator, directly behind a field that resolves. -/
structure StopsIn (st : Setting Handler) (cs : List Char) (s : Stop) : Prop where
  resolves : (st.schema.resolve? st.root ⟨s.field⟩).isSome
  mark : ∃ tail, s.unread = '!' :: tail ∧ tail.head? ≠ some '='
  place : ∃ before, cs = before ++ s.unread ∧ ('\\' ∉ cs → s.field.toList <:+ before)

theorem StopsIn.suffix {st : Setting Handler} {cs : List Char} {s : Stop} (h : StopsIn st cs s) :
    s.unread <:+ cs := by
  obtain ⟨before, hb, -⟩ := h.place
  exact ⟨before, hb.symm⟩

/-- A stop stays one when more text stands in front. -/
theorem StopsIn.mono {st : Setting Handler} {cs ds : List Char} {s : Stop} (h : StopsIn st cs s)
    (hs : cs <:+ ds) : StopsIn st ds s := by
  obtain ⟨front, rfl⟩ := hs
  obtain ⟨before, hb, hf⟩ := h.place
  refine ⟨h.resolves, h.mark, front ++ before, by rw [hb, List.append_assoc], ?_⟩
  intro hn
  rw [List.mem_append, not_or] at hn
  exact (hf hn.2).trans (List.suffix_append front before)

variable {C α β : Type} {F : Factory C} {st : Setting Handler}

/-- A run on the text `cs` leaves an end of it, or stops in it. -/
structure Leaves (st : Setting Handler) (cs : List Char) (x : Build C (α × List Char)) : Prop where
  rest : ∀ r, x.result = .ok r → r.2 <:+ cs
  stop : ∀ s, x.result = .error s → StopsIn st cs s

theorem leaves_of_returns {cs rest : List Char} {a : α} {x : Build C (α × List Char)}
    (hx : x.Returns (a, rest)) (h : rest <:+ cs) : Leaves st cs x where
  rest := by
    intro r hr
    rw [hx.result] at hr
    cases hr
    exact h
  stop := by
    intro s hs
    rw [hx.result] at hs
    cases hs

theorem Leaves.mono {cs ds : List Char} {x : Build C (α × List Char)} (h : Leaves st cs x)
    (hs : cs <:+ ds) : Leaves st ds x :=
  ⟨fun r hr => (h.rest r hr).trans hs, fun s hx => (h.stop s hx).mono hs⟩

theorem Leaves.bind {cs : List Char} {x : Build C (α × List Char)}
    {f : α × List Char → Build C (β × List Char)} (hx : Leaves st cs x)
    (hf : ∀ r, r.2 <:+ cs → Leaves st cs (f r)) : Leaves st cs (x >>= f) := by
  cases h : x.result with
  | error s =>
    rw [bind_error h]
    refine ⟨by simp, ?_⟩
    intro s' hs'
    cases hs'
    exact hx.stop s h
  | ok r =>
    have hr := hf r (hx.rest r h)
    rw [bind_ok h]
    exact ⟨hr.rest, hr.stop⟩

theorem leaves_beside {cs rest : List Char} {a : α} {x : Build C α} (hx : x.Returns a)
    (h : rest <:+ cs) : Leaves st cs (do let a ← x; pure (a, rest)) :=
  leaves_of_returns (hx.bind (yields_pure _)) h

theorem leaves_combine {cs : List Char} {x : Build C (List C × List Char)}
    (hx : Leaves st cs x) (join : List C → C) :
    Leaves st cs (do let (parts, rest) ← x; let c ← combine join parts; pure (c, rest)) :=
  hx.bind fun r hr => leaves_beside (combine_yields join r.1 fun _ => trivial) hr

theorem leaves_cons {cs : List Char} {x : Build C (List C × List Char)} (hx : Leaves st cs x)
    (part : Option C) :
    Leaves st cs (do let (parts, rest) ← x; pure (part.toList ++ parts, rest)) :=
  hx.bind fun _ hr => leaves_of_returns (yields_pure _) hr

/-- An unquoted term, a mark directly behind it and no operator there: the term's field may stop
the run. -/
theorem stopsIn_of_mark {t : Term} {r : Resolved} {cs after : List Char}
    (hr : st.schema.resolve? st.root ⟨t.text⟩ = some r) (ht : takeTerm cs = (t, after))
    (hb : after.length ≤ (Text.skipBlanks after).length) (hx : t.exact = false)
    (hm : (Text.skipBlanks after).head? = some '!')
    (ho : Operator.at? (Text.skipBlanks after) = none) :
    StopsIn st cs ⟨t.text, Text.skipBlanks after⟩ := by
  have he : Text.skipBlanks after = after :=
    (skipBlanks_suffix after).eq_of_length_le hb
  rw [he] at hm ho ⊢
  obtain ⟨tail, rfl⟩ := List.head?_eq_some_iff.mp hm
  have hs := takeTerm_suffix cs
  rw [ht] at hs
  obtain ⟨before, hbefore⟩ := hs
  refine ⟨by simp [hr], ⟨tail, rfl, ?_⟩, before, hbefore.symm, ?_⟩
  · intro h
    rw [Operator.at?, h] at ho
    cases ho
  · intro hn
    have ha := takeTerm_append hn (by rw [ht]; exact hx)
    rw [ht, ← hbefore] at ha
    rw [← List.append_cancel_right ha]

/-- A term with an operator or a mark behind it. The stop is the case of a mark. -/
theorem compileOperation_leaves {t : Term} {cs after : List Char} (ht : takeTerm cs = (t, after))
    (hm : atOperator (Text.skipBlanks after) = false →
      after.length ≤ (Text.skipBlanks after).length ∧ t.exact = false ∧
        (Text.skipBlanks after).head? = some '!') (skipped : Bool) :
    Leaves st cs (compileOperation F st t skipped (Text.skipBlanks after)) := by
  have hs : Text.skipBlanks after <:+ cs := by
    have h := takeTerm_suffix cs
    rw [ht] at h
    exact (skipBlanks_suffix after).trans h
  cases hr : st.schema.resolve? st.root ⟨t.text⟩ with
  | none =>
    refine leaves_of_returns (compileOperation_yields st (admitsOwn_true F) t skipped _ hr) ?_
    cases skipped with
    | true => exact hs
    | false => exact (extendTerm_suffix t _).trans hs
  | some r =>
    rw [compileOperation, hr]
    cases ho : Operator.at? (Text.skipBlanks after) with
    | some o =>
      obtain ⟨op, width⟩ := o
      refine leaves_of_returns (compileComparison_yields (admitsOwn_true _) t.text r ho) ?_
      exact (takeValue_suffix _).trans ((List.drop_suffix width _).trans hs)
    | none =>
      obtain ⟨hb, hx, hh⟩ := hm (by simp [atOperator, ho])
      simp only [compileComparison, ho]
      refine ⟨by simp [stop], ?_⟩
      intro s he
      cases he
      exact stopsIn_of_mark hr ht hb hx hh ho

theorem compileTerm_leaves (cs : List Char) : Leaves st cs (compileTerm F st cs) := by
  have hs := skipStray_suffix cs
  rw [compileTerm]
  by_cases hc : atClose (skipStray cs) = true
  · simp only [hc, ↓reduceIte]
    exact leaves_of_returns (yields_pure _) hs
  · simp only [hc, Bool.false_eq_true, ↓reduceIte]
    generalize ht : takeTerm (skipStray cs) = taken
    obtain ⟨t, after⟩ := taken
    simp only
    split
    · next hop =>
      refine (compileOperation_leaves ht ?_ _).mono hs
      intro ho
      simpa [ho, and_assoc] using hop
    · have ha := takeTerm_suffix (skipStray cs)
      rw [ht] at ha
      exact leaves_beside (searchTerm_yields st (admitsOwn_true F) t)
        ((skipBlanks_suffix after).trans (ha.trans hs))

variable [TagHandler Handler C]

theorem anyParts_leaves {cs : List Char} (hc : ¬atClose cs = true)
    (h : Leaves st cs (compileAll F st cs))
    (hn : ∀ rest : List Char, (rest.drop 2).length < cs.length →
      Leaves st (rest.drop 2) (anyParts F st (rest.drop 2))) :
    Leaves st cs (anyParts F st cs) := by
  rw [anyParts, if_neg hc]
  refine h.bind ?_
  rintro ⟨part, rest⟩ hr
  have hlast : Leaves st cs (pure (part.toList, rest) : Build C (List C × List Char)) :=
    leaves_of_returns (yields_pure _) hr
  simp only
  split
  · split
    · next hl => exact leaves_cons ((hn rest hl).mono ((List.drop_suffix 2 rest).trans hr)) part
    · exact hlast
  · exact hlast

theorem allParts_leaves {cs : List Char} (hc : ¬atClose cs = true)
    (h : Leaves st cs (compileUnit F st cs))
    (hn : ∀ rest : List Char, (skipAnd (Text.skipBlanks rest)).length < cs.length →
      Leaves st (skipAnd (Text.skipBlanks rest))
        (allParts F st (skipAnd (Text.skipBlanks rest)))) :
    Leaves st cs (allParts F st cs) := by
  rw [allParts, if_neg hc]
  refine h.bind ?_
  rintro ⟨part, rest⟩ hr
  have hb : Text.skipBlanks rest <:+ cs := (skipBlanks_suffix rest).trans hr
  have hlast : Leaves st cs
      (pure (part.toList, Text.skipBlanks rest) : Build C (List C × List Char)) :=
    leaves_of_returns (yields_pure _) hb
  simp only
  split
  · exact hlast
  · split
    · next hl => exact leaves_cons ((hn rest hl).mono ((skipAnd_suffix _).trans hb)) part
    · exact hlast

theorem negation_leaves {cs rest : List Char} (hs : Text.skipBlanks cs = '!' :: rest)
    (h : Leaves st rest (compileUnit F st rest)) : Leaves st cs (compileUnit F st cs) := by
  have hr : rest <:+ cs := suffix_of_skipBlanks_eq ['!'] hs
  rw [compileUnit_not hs]
  refine (h.mono hr).bind ?_
  rintro ⟨c, after⟩ ha
  cases c with
  | none => exact leaves_of_returns (yields_pure _) ha
  | some c => exact leaves_of_returns ((yields_make trivial).bind (yields_pure _)) ha

theorem group_leaves {cs rest : List Char} (hs : Text.skipBlanks cs = '(' :: rest)
    (h : Leaves st rest (compileAny F st rest)) : Leaves st cs (compileUnit F st cs) := by
  have hr : rest <:+ cs := suffix_of_skipBlanks_eq ['('] hs
  rw [compileUnit_group hs]
  refine (h.mono hr).bind fun r ha => ?_
  exact leaves_of_returns (yields_pure _) ((dropClose_suffix r.2).trans ha)

theorem tag_leaves {cs rest : List Char} (hs : Text.skipBlanks cs = '|' :: '|' :: rest) :
    Leaves st cs (compileUnit F st cs) := by
  have hr : rest <:+ cs := suffix_of_skipBlanks_eq ['|', '|'] hs
  have hp := (takePayload_suffix rest).trans hr
  exact leaves_of_returns (compileUnit_tag_yields (admits_true F st) hs) hp

/-- Every rule leaves an end of its text, or stops in it. -/
theorem rules_leave :
    (∀ cs, Leaves st cs (compileAny F st cs)) ∧ (∀ cs, Leaves st cs (anyParts F st cs)) ∧
      (∀ cs, Leaves st cs (compileAll F st cs)) ∧ (∀ cs, Leaves st cs (allParts F st cs)) ∧
      ∀ cs, Leaves st cs (compileUnit F st cs) := by
  refine compileAny.mutual_induct _ _ _ _ _ ?_ ?_ ?_ ?_ ?_ ?_ ?_ ?_ ?_ ?_
  · intro cs ih
    rw [compileAny]
    exact leaves_combine ih F.any
  · intro cs hc
    rw [anyParts, if_pos hc]
    exact leaves_of_returns (yields_pure _) List.suffix_rfl
  · intro cs hc ih₁ ih₂
    exact anyParts_leaves hc ih₁ ih₂
  · intro cs ih
    rw [compileAll]
    exact leaves_combine ih F.all
  · intro cs hc
    rw [allParts, if_pos hc]
    exact leaves_of_returns (yields_pure _) List.suffix_rfl
  · intro cs hc ih₁ ih₂
    exact allParts_leaves hc ih₁ ih₂
  · intro cs rest hs ih
    exact negation_leaves hs ih
  · intro cs rest hs ih
    exact group_leaves hs ih
  · intro cs rest hs payload after hp
    exact tag_leaves hs
  · intro cs h₁ h₂ h₃
    rw [compileUnit_term h₁ h₂ h₃]
    exact (compileTerm_leaves _).mono (skipBlanks_suffix cs)

end FilterQuery.Query
