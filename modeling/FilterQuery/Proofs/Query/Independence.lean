import FilterQuery.Proofs.Query.Alike

/-!
What follows a run does not matter to it. A run that ends before a closing bracket, or before an
exclamation mark that begins no operator, returns the same with any other text behind that
character.
-/
namespace FilterQuery.Query

open Build

variable {u v : List Char} {C Handler α β : Type} {F : Factory C} {st : Setting Handler}

/-- A computation returns an end of `cs`, or stops at one. -/
structure EndsIn (cs : List Char) (x : Build C (α × List Char)) : Prop where
  rest : ∀ r, x.result = .ok r → r.2 <:+ cs
  stop : ∀ s, x.result = .error s → s.unread <:+ cs

theorem Leaves.endsIn {cs : List Char} {x : Build C (α × List Char)} (h : Leaves st cs x) :
    EndsIn cs x :=
  ⟨h.rest, fun s hs => (h.stop s hs).suffix⟩

theorem EndsIn.mono {cs ds : List Char} {x : Build C (α × List Char)} (h : EndsIn cs x)
    (hs : cs <:+ ds) : EndsIn ds x :=
  ⟨fun r hr => (h.rest r hr).trans hs, fun s hx => (h.stop s hx).trans hs⟩

theorem endsIn_of_returns {cs rest : List Char} {a : α} {x : Build C (α × List Char)}
    (hx : x.Returns (a, rest)) (h : rest <:+ cs) : EndsIn cs x where
  rest := by
    intro r hr
    rw [hx.result] at hr
    cases hr
    exact h
  stop := by
    intro s hs
    rw [hx.result] at hs
    cases hs

theorem EndsIn.bind {x : Build C (α × List Char)} {f : α × List Char → Build C (β × List Char)}
    {cs : List Char} (hx : EndsIn cs x) (hf : ∀ r, EndsIn r.2 (f r)) : EndsIn cs (x >>= f) where
  rest := by
    intro r hr
    obtain ⟨a, ha, hr⟩ := bind_result_eq_ok.mp hr
    exact ((hf a).rest r hr).trans (hx.rest a ha)
  stop := by
    intro s hs
    rcases bind_result_eq_error.mp hs with hs | ⟨a, ha, hs⟩
    · exact hx.stop s hs
    · exact ((hf a).stop s hs).trans (hx.rest a ha)

/-- A computation that ends before `u`, or at it, ends the same with `v` in place of `u`. -/
structure Agrees (u v : List Char) (x y : Build C (α × List Char)) : Prop where
  ok : ∀ a w, x.result = .ok (a, w ++ u) → y.result = .ok (a, w ++ v)
  error : ∀ field w, x.result = .error ⟨field, w ++ u⟩ → y.result = .error ⟨field, w ++ v⟩

theorem agrees_of_returns {x y : Build C (α × List Char)} {a : α} {rest : List Char}
    (hx : x.Returns (a, rest)) (hy : ∀ w, rest = w ++ u → y.Returns (a, w ++ v)) :
    Agrees u v x y where
  ok := by
    intro b w h
    rw [hx.result] at h
    cases h
    exact (hy w rfl).result
  error := by
    intro field w h
    rw [hx.result] at h
    cases h

/-- Nothing is said of a computation that ends behind the front of `u`. -/
theorem agrees_of_endsIn {x y : Build C (α × List Char)} {cs : List Char} (hx : EndsIn cs x)
    (h : ∀ w, cs ≠ w ++ u) : Agrees u v x y where
  ok := by
    intro a w hr
    obtain ⟨w', he⟩ := exists_append_of_suffix (hx.rest _ hr)
    exact absurd he (h w')
  error := by
    intro field w hr
    obtain ⟨w', he⟩ := exists_append_of_suffix (hx.stop _ hr)
    exact absurd he (h w')

theorem Agrees.bind {x y : Build C (α × List Char)} {f g : α × List Char → Build C (β × List Char)}
    (h : Agrees u v x y) (hf : ∀ r, EndsIn r.2 (f r))
    (hg : ∀ a w, x.result = .ok (a, w ++ u) → Agrees u v (f (a, w ++ u)) (g (a, w ++ v))) :
    Agrees u v (x >>= f) (y >>= g) where
  ok := by
    intro b w hr
    obtain ⟨⟨a, rest⟩, hx, hb⟩ := bind_result_eq_ok.mp hr
    obtain ⟨w', rfl⟩ := exists_append_of_suffix ((hf _).rest _ hb)
    exact bind_result_eq_ok.mpr ⟨_, h.ok a w' hx, (hg a w' hx).ok b w hb⟩
  error := by
    intro field w hr
    rw [bind_result_eq_error] at hr ⊢
    rcases hr with hx | ⟨⟨a, rest⟩, hx, hb⟩
    · exact .inl (h.error field w hx)
    · obtain ⟨w', rfl⟩ := exists_append_of_suffix ((hf _).stop _ hb)
      exact .inr ⟨_, h.ok a w' hx, (hg a w' hx).error field w hb⟩

theorem agrees_beside {x : Build C α} {a : α} (hx : x.Returns a) (g : α → β) (w : List Char) :
    Agrees u v (do let a ← x; pure (g a, w ++ u)) (do let a ← x; pure (g a, w ++ v)) := by
  refine agrees_of_returns (hx.bind (yields_pure _)) ?_
  intro w' he
  rw [List.append_cancel_right he]
  exact hx.bind (yields_pure _)

theorem agrees_pure (a : α) (w : List Char) :
    Agrees u v (pure (a, w ++ u) : Build C (α × List Char)) (pure (a, w ++ v)) := by
  have h := agrees_beside (u := u) (v := v) (yields_pure (C := C) a) id w
  simpa only [pure_bind, id] using h

theorem matchAt_width {c : Char} {next : Option Char} {op : Operator} {width : Nat}
    (h : Operator.matchAt c next = some (op, width)) :
    width ≤ 2 ∧ (next = none → width = 1) := by
  fun_cases Operator.matchAt c next <;> simp_all [Operator.matchAt] <;> omega

/-- An operator in front of `u` does not reach into it. -/
theorem Alike.drop_operator (h : Alike u v) {w : List Char} {op : Operator} {width : Nat}
    (ho : Operator.at? (w ++ u) = some (op, width)) : width ≤ w.length := by
  match w with
  | [] =>
    rw [List.nil_append, h.at?_self.1] at ho
    cases ho
  | [c] =>
    obtain ⟨h₁, -⟩ := h.head?_ne (c := '=') (by decide) (by decide)
    obtain ⟨h₂, -⟩ := h.head?_ne (c := '>') (by decide) (by decide)
    have hm : Operator.matchAt c none = some (op, width) :=
      (matchAt_eq_of_ne h₁ h₂ c).symm.trans ho
    exact Nat.le_of_eq ((matchAt_width hm).2 rfl)
  | c :: d :: w =>
    have hl := (matchAt_width ho).1
    simp only [List.length_cons]
    omega

theorem keeps_looseTerm (h : Alike u v) (t : Term) (skipped : Bool) :
    Keeps u v (looseTerm t skipped) := by
  cases skipped with
  | false => exact h.extendTerm t
  | true =>
    intro w w' hr
    rw [← List.append_cancel_right hr]
    rfl

theorem compileComparison_endsIn (field : String) (r : Resolved) (cs : List Char) :
    EndsIn cs (compileComparison F field r cs) := by
  cases ho : Operator.at? cs with
  | some o =>
    refine endsIn_of_returns (compileComparison_yields (admitsOwn_true _) field r ho) ?_
    exact (takeValue_suffix _).trans (List.drop_suffix o.2 cs)
  | none =>
    simp only [compileComparison, ho]
    refine ⟨by simp [stop], ?_⟩
    intro s hs
    cases hs
    exact List.suffix_rfl

theorem compileOperation_endsIn (t : Term) (skipped : Bool) (cs : List Char) :
    EndsIn cs (compileOperation F st t skipped cs) := by
  cases hr : st.schema.resolve? st.root ⟨t.text⟩ with
  | none =>
    refine endsIn_of_returns (compileOperation_yields st (admitsOwn_true F) t skipped cs hr) ?_
    cases skipped with
    | true => exact List.suffix_rfl
    | false => exact extendTerm_suffix t cs
  | some r =>
    rw [compileOperation, hr]
    exact compileComparison_endsIn t.text r cs

theorem compileOperation_agrees (h : Alike u v) (t : Term) (skipped : Bool) (w : List Char) :
    Agrees u v (compileOperation F st t skipped (w ++ u))
      (compileOperation F st t skipped (w ++ v)) := by
  cases hr : st.schema.resolve? st.root ⟨t.text⟩ with
  | none =>
    refine agrees_of_returns (compileOperation_yields st (admitsOwn_true F) t skipped _ hr) ?_
    intro w' he
    have hy := compileOperation_yields st (admitsOwn_true F) t skipped (w ++ v) hr
    rwa [keeps_looseTerm h t skipped w w' he] at hy
  | some r =>
    rw [compileOperation, compileOperation, hr]
    have hat := h.at?_append w
    cases ho : Operator.at? (w ++ u) with
    | none =>
      rw [ho] at hat
      simp only [compileComparison, ho, hat]
      refine ⟨by simp [stop], ?_⟩
      intro field w' hs
      simp only [stop, Except.error.injEq, Stop.mk.injEq] at hs
      obtain ⟨rfl, he⟩ := hs
      rw [← List.append_cancel_right he]
      rfl
    | some o =>
      obtain ⟨op, width⟩ := o
      rw [ho] at hat
      have hl := h.drop_operator ho
      refine agrees_of_returns (compileComparison_yields (admitsOwn_true _) t.text r ho) ?_
      intro w' he
      have hy := compileComparison_yields (admitsOwn_true F) t.text r hat
      rw [List.drop_append_of_le_length hl] at he hy ⊢
      rwa [h.takeValue _ w' he] at hy

/-- Nothing is left to show where the term reaches into `u`, for so does all that comes after
it. -/
theorem compileTerm_agrees (h : Alike u v) (w : List Char) :
    Agrees u v (compileTerm F st (w ++ u)) (compileTerm F st (w ++ v)) := by
  obtain ⟨w₁, hu, hv⟩ := h.skipStray_append w
  rw [compileTerm, compileTerm, hu, hv, h.atClose_append]
  by_cases hc : atClose (w₁ ++ u) = true
  · simp only [hc, ↓reduceIte]
    exact agrees_pure none w₁
  · simp only [hc, Bool.false_eq_true, ↓reduceIte]
    generalize ht : takeTerm (w₁ ++ u) = taken
    obtain ⟨t, after⟩ := taken
    by_cases ha : ∃ w₂, after = w₂ ++ u
    · obtain ⟨w₂, rfl⟩ := ha
      have hk := h.takeTerm w₁ w₂ (by rw [ht])
      obtain ⟨hbu, hbv⟩ := h.skipBlanks_append w₂
      have hskip : decide ((Text.skipBlanks w₂ ++ v).length < (w₂ ++ v).length) =
          decide ((Text.skipBlanks w₂ ++ u).length < (w₂ ++ u).length) := by
        simp only [List.length_append, Nat.add_lt_add_iff_right]
      rw [hk, ht]
      simp only [hbu, hbv, hskip, h.atOperator_append, h.head?_eq_append (c := '!') (by decide)]
      split
      · exact compileOperation_agrees h t _ _
      · exact agrees_beside (searchTerm_yields st (admitsOwn_true F) t) id _
    · refine agrees_of_endsIn (?_ : EndsIn after _) fun w₂ he => ha ⟨w₂, he⟩
      have hb := skipBlanks_suffix after
      simp only
      split
      · exact (compileOperation_endsIn t _ _).mono hb
      · exact endsIn_of_returns
          ((searchTerm_yields st (admitsOwn_true F) t).bind (yields_pure _)) hb

theorem agrees_combine {x y : Build C (List C × List Char)} (h : Agrees u v x y)
    (join : List C → C) :
    Agrees u v (do let (parts, rest) ← x; let c ← combine join parts; pure (c, rest))
      (do let (parts, rest) ← y; let c ← combine join parts; pure (c, rest)) := by
  refine h.bind ?_ ?_
  · intro r
    exact endsIn_of_returns ((combine_yields join r.1 fun _ => trivial).bind (yields_pure _))
      List.suffix_rfl
  · intro parts w _
    exact agrees_beside (combine_yields join parts fun _ => trivial) id w

theorem agrees_cons {x y : Build C (List C × List Char)} (h : Agrees u v x y) (part : Option C) :
    Agrees u v (do let (parts, rest) ← x; pure (part.toList ++ parts, rest))
      (do let (parts, rest) ← y; pure (part.toList ++ parts, rest)) := by
  refine h.bind ?_ ?_
  · intro r
    exact endsIn_of_returns (yields_pure _) List.suffix_rfl
  · intro parts w _
    exact agrees_pure _ w

variable [TagHandler Handler C]

theorem anyParts_agrees (h : Alike u v) {w : List Char} (hc : ¬atClose (w ++ u) = true)
    (hall : Agrees u v (compileAll F st (w ++ u)) (compileAll F st (w ++ v)))
    (hn : ∀ rest w' : List Char, (rest.drop 2).length < (w ++ u).length → rest.drop 2 = w' ++ u →
      Agrees u v (anyParts F st (rest.drop 2)) (anyParts F st (w' ++ v))) :
    Agrees u v (anyParts F st (w ++ u)) (anyParts F st (w ++ v)) := by
  have hc' : ¬atClose (w ++ v) = true := by rwa [h.atClose_append]
  rw [anyParts_eq hc, anyParts_eq hc']
  refine hall.bind ?_ ?_
  · rintro ⟨part, rest⟩
    simp only
    split
    · exact (leaves_cons (rules_leave.2.1 _) part).endsIn.mono (List.drop_suffix 2 rest)
    · exact endsIn_of_returns (yields_pure _) List.suffix_rfl
  · intro part w₁ hr
    simp only [h.atOr_append]
    by_cases ho : atOr (w₁ ++ u) = true
    · obtain ⟨w₂, hu, hv⟩ := h.drop_or ho
      have hl := drop_length_lt_of_atOr ho
      have hle : (w₁ ++ u).length ≤ (w ++ u).length := compileAll_rest_le hr
      have hnext := hn (w₁ ++ u) w₂ (Nat.lt_of_lt_of_le hl hle) hu
      simp only [ho, ↓reduceIte]
      rw [hv]
      exact agrees_cons hnext part
    · simp only [ho, Bool.false_eq_true, ↓reduceIte]
      exact agrees_pure _ w₁

theorem allParts_agrees (h : Alike u v) {w : List Char} (hc : ¬atClose (w ++ u) = true)
    (hunit : Agrees u v (compileUnit F st (w ++ u)) (compileUnit F st (w ++ v)))
    (hn : ∀ rest w' : List Char, (skipAnd (Text.skipBlanks rest)).length < (w ++ u).length →
      skipAnd (Text.skipBlanks rest) = w' ++ u →
      Agrees u v (allParts F st (skipAnd (Text.skipBlanks rest))) (allParts F st (w' ++ v))) :
    Agrees u v (allParts F st (w ++ u)) (allParts F st (w ++ v)) := by
  have hc' : ¬atClose (w ++ v) = true := by rwa [h.atClose_append]
  rw [allParts_eq hc, allParts_eq hc']
  refine hunit.bind ?_ ?_
  · rintro ⟨part, rest⟩
    simp only
    split
    · exact endsIn_of_returns (yields_pure _) (skipBlanks_suffix rest)
    · exact (leaves_cons (rules_leave.2.2.2.1 _) part).endsIn.mono
        ((skipAnd_suffix _).trans (skipBlanks_suffix rest))
  · intro part w₁ hr
    obtain ⟨hbu, hbv⟩ := h.skipBlanks_append w₁
    simp only [hbu, hbv, h.atOr_append]
    by_cases ho : atOr (Text.skipBlanks w₁ ++ u) = true
    · simp only [ho, ↓reduceIte]
      exact agrees_pure _ _
    · obtain ⟨w₂, hu, hv⟩ := h.skipAnd_append (Text.skipBlanks w₁)
      have hlt := compileUnit_rest_lt hc hr
      have hle := (skipAnd_length_le (Text.skipBlanks (w₁ ++ u))).trans
        (Text.skipBlanks_length_le (w₁ ++ u))
      have hnext := hn (w₁ ++ u) w₂ (Nat.lt_of_le_of_lt hle hlt) (by rw [hbu, hu])
      simp only [ho, Bool.false_eq_true, ↓reduceIte]
      rw [hbu] at hnext
      rw [hv]
      exact agrees_cons hnext part

theorem endsIn_negated (r : Option C × List Char) :
    EndsIn r.2 (match r.1 with
      | none => pure (none, r.2)
      | some c => do
        let c ← .make (F.negate c)
        pure (some c, r.2) : Build C (Option C × List Char)) := by
  cases r.1 with
  | none => exact endsIn_of_returns (yields_pure _) List.suffix_rfl
  | some c => exact endsIn_of_returns ((yields_make trivial).bind (yields_pure _)) List.suffix_rfl

/-- A mark that is the first character of `u` takes the run behind it. -/
theorem negation_agrees (h : Alike u v) {w rest : List Char}
    (hs : Text.skipBlanks (w ++ u) = '!' :: rest)
    (hunit : ∀ w', rest = w' ++ u →
      Agrees u v (compileUnit F st rest) (compileUnit F st (w' ++ v))) :
    Agrees u v (compileUnit F st (w ++ u)) (compileUnit F st (w ++ v)) := by
  obtain ⟨hbu, hbv⟩ := h.skipBlanks_append w
  rw [compileUnit_not hs]
  rw [hbu] at hs
  generalize Text.skipBlanks w = b at hs hbv
  match b with
  | [] =>
    have hl : Leaves st rest (compileUnit F st rest) := rules_leave.2.2.2.2 rest
    refine agrees_of_endsIn (hl.endsIn.bind endsIn_negated) fun w' => ?_
    exact ne_append_of_length_lt (by rw [← List.nil_append u, hs]; exact Nat.lt_succ_self _)
  | c :: b =>
    rw [List.cons_append, List.cons.injEq] at hs
    obtain ⟨rfl, rfl⟩ := hs
    rw [compileUnit_not hbv]
    refine (hunit b rfl).bind endsIn_negated ?_
    rintro (_ | c) w' _
    · exact agrees_pure none w'
    · exact agrees_beside (yields_make trivial) some w'

theorem group_agrees (h : Alike u v) {w rest : List Char}
    (hs : Text.skipBlanks (w ++ u) = '(' :: rest)
    (hany : ∀ w', rest = w' ++ u →
      Agrees u v (compileAny F st rest) (compileAny F st (w' ++ v))) :
    Agrees u v (compileUnit F st (w ++ u)) (compileUnit F st (w ++ v)) := by
  obtain ⟨hbu, hbv⟩ := h.skipBlanks_append w
  rw [compileUnit_group hs]
  rw [hbu] at hs
  obtain ⟨b, hb, rfl⟩ := front_of_append ['('] h.head?_eq.1 (by simp) hs
  have hs' : Text.skipBlanks (w ++ v) = '(' :: (b ++ v) := by rw [hbv, hb]; rfl
  rw [compileUnit_group hs']
  refine (hany b rfl).bind (fun r => endsIn_of_returns (yields_pure _) (dropClose_suffix r.2)) ?_
  intro c w' _
  refine agrees_of_returns (yields_pure _) ?_
  intro w₁ he
  rw [← h.dropClose_append he]
  exact yields_pure _

theorem tag_agrees (h : Alike u v) {w rest : List Char}
    (hs : Text.skipBlanks (w ++ u) = '|' :: '|' :: rest) :
    Agrees u v (compileUnit F st (w ++ u)) (compileUnit F st (w ++ v)) := by
  obtain ⟨hbu, hbv⟩ := h.skipBlanks_append w
  have hu := compileUnit_tag_yields (admits_true F st) hs
  rw [hbu] at hs
  obtain ⟨b, hb, rfl⟩ := front_of_append ['|', '|'] h.head?_eq.1 (by simp) hs
  have hs' : Text.skipBlanks (w ++ v) = '|' :: '|' :: (b ++ v) := by rw [hbv, hb]; rfl
  have hv := compileUnit_tag_yields (admits_true F st) hs'
  refine agrees_of_returns hu ?_
  intro w' he
  rwa [h.takePayload b w' he] at hv

theorem term_agrees (h : Alike u v) {w : List Char}
    (h₁ : ∀ rest, Text.skipBlanks (w ++ u) = '!' :: rest → False)
    (h₂ : ∀ rest, Text.skipBlanks (w ++ u) = '(' :: rest → False)
    (h₃ : ∀ rest, Text.skipBlanks (w ++ u) = '|' :: '|' :: rest → False) :
    Agrees u v (compileUnit F st (w ++ u)) (compileUnit F st (w ++ v)) := by
  obtain ⟨hbu, hbv⟩ := h.skipBlanks_append w
  rw [compileUnit_term h₁ h₂ h₃, hbu]
  rw [hbu] at h₁ h₂ h₃
  have hhead {c : Char} {rest : List Char} (hc : c ≠ ')')
      (hv : Text.skipBlanks (w ++ v) = c :: rest) : (Text.skipBlanks w ++ u).head? = some c := by
    rw [hbv] at hv
    rw [← h.head?_append_iff hc, hv]
    rfl
  rw [compileUnit_term, hbv]
  · exact compileTerm_agrees h _
  · intro rest hv
    obtain ⟨ds, he⟩ := List.head?_eq_some_iff.mp (hhead (by decide) hv)
    exact h₁ ds he
  · intro rest hv
    obtain ⟨ds, he⟩ := List.head?_eq_some_iff.mp (hhead (by decide) hv)
    exact h₂ ds he
  · intro rest hv
    rw [hbv] at hv
    obtain ⟨b, hb, rfl⟩ := front_of_append ['|', '|'] h.head?_eq.2 (by simp) hv
    exact h₃ (b ++ u) (by rw [hb]; rfl)

/-- No rule that ends before `u`, or at it, depends on what stands behind the front of `u`. -/
theorem rules_agree (h : Alike u v) :
    (∀ cs w, cs = w ++ u → Agrees u v (compileAny F st cs) (compileAny F st (w ++ v))) ∧
      (∀ cs w, cs = w ++ u → Agrees u v (anyParts F st cs) (anyParts F st (w ++ v))) ∧
      (∀ cs w, cs = w ++ u → Agrees u v (compileAll F st cs) (compileAll F st (w ++ v))) ∧
      (∀ cs w, cs = w ++ u → Agrees u v (allParts F st cs) (allParts F st (w ++ v))) ∧
      ∀ cs w, cs = w ++ u → Agrees u v (compileUnit F st cs) (compileUnit F st (w ++ v)) := by
  refine compileAny.mutual_induct _ _ _ _ _ ?_ ?_ ?_ ?_ ?_ ?_ ?_ ?_ ?_ ?_
  · intro cs ih w he
    rw [compileAny, compileAny]
    exact agrees_combine (ih w he) F.any
  · rintro cs hc w rfl
    rw [anyParts, anyParts, if_pos hc, if_pos (by rwa [h.atClose_append])]
    exact agrees_pure [] w
  · rintro cs hc ih₁ ih₂ w rfl
    exact anyParts_agrees h hc (ih₁ w rfl) fun rest w' hl he => ih₂ rest hl w' he
  · intro cs ih w he
    rw [compileAll, compileAll]
    exact agrees_combine (ih w he) F.all
  · rintro cs hc w rfl
    rw [allParts, allParts, if_pos hc, if_pos (by rwa [h.atClose_append])]
    exact agrees_pure [] w
  · rintro cs hc ih₁ ih₂ w rfl
    exact allParts_agrees h hc (ih₁ w rfl) fun rest w' hl he => ih₂ rest hl w' he
  · rintro cs rest hs ih w rfl
    exact negation_agrees h hs ih
  · rintro cs rest hs ih w rfl
    exact group_agrees h hs ih
  · rintro cs rest hs payload after hp w rfl
    exact tag_agrees h hs
  · rintro cs h₁ h₂ h₃ w rfl
    exact term_agrees h h₁ h₂ h₃

end FilterQuery.Query
