import FilterQuery.Proofs.Query.Leaf
import FilterQuery.Proofs.Query.ScanLength

/-!
What the rules of the grammar preserve. A property of constraints that holds of the leaves and of
what tags stand for, and passes through negations and junctions of several, holds of all that is
compiled. Every rule takes something off the text unless it stands where a group ends, so the
guards of the recursion always hold and the rules have equations without them.
-/
namespace FilterQuery.Query

open Build

variable {C Handler : Type} {F : Factory C} {st : Setting Handler} {E : Event C → Prop}
  {P : C → Prop}

/-- Every constraint satisfies `P`, and at most `n` characters are left over. -/
def Within (P : C → Prop) (n : Nat) (r : Option C × List Char) : Prop :=
  (∀ c ∈ r.1, P c) ∧ r.2.length ≤ n

/-- The same of a list of parts. -/
def AllWithin (P : C → Prop) (n : Nat) (r : List C × List Char) : Prop :=
  (∀ c ∈ r.1, P c) ∧ r.2.length ≤ n

theorem Within.mono {m n : Nat} {r : Option C × List Char} (h : Within P m r) (hmn : m ≤ n) :
    Within P n r :=
  ⟨h.1, Nat.le_trans h.2 hmn⟩

theorem compileOperation_ensures (hE : AdmitsOwn F E) (t : Term) (skipped : Bool) (cs : List Char) :
    (compileOperation F st t skipped cs).Ensures E
      (Within (LeafConstraint F st) cs.length) := by
  cases hr : st.schema.resolve? st.root ⟨t.text⟩ with
  | none =>
    refine (compileOperation_yields st hE t skipped cs hr).ensures ⟨?_, ?_⟩
    · intro c hc
      exact leafConstraint_of_termBlock F st hc
    · cases skipped with
      | true => exact Nat.le_refl _
      | false => exact extendTerm_length_le t cs
  | some r =>
    rw [compileOperation, hr]
    cases ho : Operator.at? cs with
    | none =>
      simp only [compileComparison, ho]
      exact ensures_stop t.text cs
    | some o =>
      obtain ⟨op, width⟩ := o
      refine (compileComparison_yields hE t.text r ho).ensures ⟨?_, ?_⟩
      · intro c hc
        cases hc
        exact .comparison hr op _
      · have hv := takeValue_length_le (cs.drop width)
        have hd : (cs.drop width).length ≤ cs.length := by simp
        exact Nat.le_trans hv hd

/-- What a unit may leave over: less than it began with, unless it began where a group ends. -/
def unitBound (cs : List Char) : Nat := if atClose cs then cs.length else cs.length - 1

theorem unitBound_le (cs : List Char) : unitBound cs ≤ cs.length := by
  rw [unitBound]
  split <;> omega

theorem unitBound_lt {cs : List Char} (h : ¬atClose cs = true) : unitBound cs < cs.length := by
  cases cs with
  | nil => simp [atClose] at h
  | cons c cs => simp [unitBound, h]

theorem le_unitBound {n : Nat} {cs : List Char} (h : n < cs.length) : n ≤ unitBound cs := by
  rw [unitBound]
  split <;> omega

theorem unitBound_skipBlanks_le (cs : List Char) :
    unitBound (Text.skipBlanks cs) ≤ unitBound cs := by
  cases cs with
  | nil => exact Nat.le_refl _
  | cons c cs =>
    cases hc : Text.isBlank c with
    | false => rw [Text.skipBlanks_cons hc]
    | true =>
      have hs : Text.skipBlanks (c :: cs) = Text.skipBlanks cs := by simp [Text.skipBlanks, hc]
      have hb := Text.skipBlanks_length_le cs
      rw [hs]
      exact Nat.le_trans (unitBound_le _) (le_unitBound (Nat.lt_succ_of_le hb))

/-- Text that is skipped up to the end of a group has been there, or the group ended at once. -/
theorem skipStray_length_le_unitBound {cs : List Char} (hc : atClose (skipStray cs) = true) :
    (skipStray cs).length ≤ unitBound cs := by
  by_cases he : atClose cs = true
  · simpa [unitBound, he] using skipStray_length_le cs
  · cases cs with
    | nil => exact absurd rfl he
    | cons c cs =>
      have hw : ¬inWord (c :: cs) = true := by
        intro hw
        rw [skipStray, if_pos (by simp [hw])] at hc
        exact he hc
      have ht := skipStray_length_le cs
      rw [skipStray, if_neg (by simp [he, hw])]
      simpa [unitBound, he] using ht

theorem compileTerm_ensures (hE : AdmitsOwn F E) (cs : List Char) :
    (compileTerm F st cs).Ensures E (Within (LeafConstraint F st) (unitBound cs)) := by
  rw [compileTerm]
  by_cases hc : atClose (skipStray cs) = true
  · simp only [hc, ↓reduceIte]
    exact ensures_pure ⟨by simp, skipStray_length_le_unitBound hc⟩
  · simp only [hc]
    have hne : skipStray cs ≠ [] := by
      intro h
      rw [h] at hc
      exact hc rfl
    have hs := skipStray_length_le cs
    have ht := takeTerm_length_lt hne
    have hb := Text.skipBlanks_length_le (takeTerm (skipStray cs)).2
    have hn : (Text.skipBlanks (takeTerm (skipStray cs)).2).length ≤ unitBound cs := by
      rw [unitBound]
      split <;> omega
    simp only [Bool.false_eq_true, ↓reduceIte]
    split
    · exact (compileOperation_ensures hE _ _ _).imp fun r hr => hr.mono hn
    · have hy := (searchTerm_yields st hE (takeTerm (skipStray cs)).1).bind
        (f := fun c => pure (c, Text.skipBlanks (takeTerm (skipStray cs)).2)) (yields_pure _)
      refine hy.ensures ⟨?_, hn⟩
      intro c hc
      exact leafConstraint_of_termBlock F st hc

variable [TagHandler Handler C]

theorem compileUnit_not {cs rest : List Char} (h : Text.skipBlanks cs = '!' :: rest) :
    compileUnit F st cs = (do
      let (c, rest) ← compileUnit F st rest
      match c with
      | none => pure (none, rest)
      | some c => do
        let c ← .make (F.negate c)
        pure (some c, rest)) := by
  rw [compileUnit]
  split
  · next rest' h' =>
    rw [h] at h'
    cases h'
    rfl
  all_goals simp_all

theorem compileUnit_group {cs rest : List Char} (h : Text.skipBlanks cs = '(' :: rest) :
    compileUnit F st cs = (do
      let (c, rest) ← compileAny F st rest
      pure (c, dropClose rest)) := by
  rw [compileUnit]
  split <;> simp_all

theorem compileUnit_tag {cs rest : List Char} (h : Text.skipBlanks cs = '|' :: '|' :: rest) :
    compileUnit F st cs = (do
      let c ← compileTag F st (takePayload rest).1
      pure (c, (takePayload rest).2)) := by
  rw [compileUnit]
  split <;> simp_all

theorem compileUnit_tag_yields (hE : Admits F st E) {cs rest : List Char}
    (h : Text.skipBlanks cs = '|' :: '|' :: rest) :
    (compileUnit F st cs).Yields E
      (tagged F st (Tag.read (String.ofList (takePayload rest).1)), (takePayload rest).2) := by
  rw [compileUnit_tag h]
  exact (compileTag_yields st hE _).bind (yields_pure _)

theorem compileUnit_term {cs : List Char} (h₁ : ∀ rest, Text.skipBlanks cs = '!' :: rest → False)
    (h₂ : ∀ rest, Text.skipBlanks cs = '(' :: rest → False)
    (h₃ : ∀ rest, Text.skipBlanks cs = '|' :: '|' :: rest → False) :
    compileUnit F st cs = compileTerm F st (Text.skipBlanks cs) := by
  rw [compileUnit]
  split <;> simp_all

/-- A property of constraints that holds of the leaves and of what tags stand for, and passes
through negations and junctions of several. -/
structure Preserves (F : Factory C) (st : Setting Handler) (P : C → Prop) : Prop where
  leaf : ∀ c, LeafConstraint F st c → P c
  tag : ∀ t, ∀ c ∈ tagged F st t, P c
  negate : ∀ c, P c → P (F.negate c)
  all : ∀ cs, 1 < cs.length → (∀ c ∈ cs, P c) → P (F.all cs)
  any : ∀ cs, 1 < cs.length → (∀ c ∈ cs, P c) → P (F.any cs)

theorem joined_preserves {join : List C → C}
    (hj : ∀ cs, 1 < cs.length → (∀ c ∈ cs, P c) → P (join cs)) {cs : List C}
    (h : ∀ c ∈ cs, P c) : ∀ c ∈ joined join cs, P c := by
  match cs with
  | [] => simp [joined]
  | [c] => simpa [joined] using h
  | c :: d :: cs =>
    intro e he
    cases he
    exact hj _ (by simp) h

/-- Parts joined after a list of them has been read. -/
theorem ensures_combine {x : Build C (List C × List Char)} {join : List C → C} {n : Nat}
    (hx : x.Ensures E (AllWithin P n)) (he : ∀ cs, cs ≠ [] → E (.built (join cs)))
    (hj : ∀ cs, 1 < cs.length → (∀ c ∈ cs, P c) → P (join cs)) :
    (do let (parts, rest) ← x; let c ← combine join parts; pure (c, rest)).Ensures E
      (Within P n) := by
  refine hx.bind fun r hr => ?_
  have hy := (combine_yields join r.1 (he r.1)).bind (f := fun c => pure (c, r.2)) (yields_pure _)
  exact hy.ensures ⟨joined_preserves hj hr.1, hr.2⟩

/-- A part in front of those that follow it. -/
theorem ensures_cons {x : Build C (List C × List Char)} {part : Option C} {m n : Nat}
    (hp : ∀ c ∈ part, P c) (hx : x.Ensures E (AllWithin P m)) (hmn : m ≤ n) :
    (do let (parts, rest) ← x; pure (part.toList ++ parts, rest)).Ensures E (AllWithin P n) := by
  refine hx.bind fun r hr => ensures_pure ⟨?_, Nat.le_trans hr.2 hmn⟩
  intro c hc
  rcases List.mem_append.mp hc with hc | hc
  · exact hp c (Option.mem_toList.mp hc)
  · exact hr.1 c hc

theorem anyParts_ensures {cs : List Char} (hc : ¬atClose cs = true)
    (h : (compileAll F st cs).Ensures E (Within P cs.length))
    (hn : ∀ rest : List Char, (rest.drop 2).length < cs.length →
      (anyParts F st (rest.drop 2)).Ensures E (AllWithin P (rest.drop 2).length)) :
    (anyParts F st cs).Ensures E (AllWithin P cs.length) := by
  rw [anyParts, if_neg hc]
  refine h.bind ?_
  rintro ⟨part, rest⟩ hr
  have hpart : (pure (part.toList, rest) : Build C _).Ensures E (AllWithin P cs.length) :=
    ensures_pure ⟨by simpa using hr.1, hr.2⟩
  simp only
  split
  · split
    · next hl => exact ensures_cons hr.1 (hn rest hl) (Nat.le_of_lt hl)
    · exact hpart
  · exact hpart

theorem allParts_ensures {cs : List Char} (hc : ¬atClose cs = true)
    (h : (compileUnit F st cs).Ensures E (Within P (unitBound cs)))
    (hn : ∀ rest : List Char, (skipAnd (Text.skipBlanks rest)).length < cs.length →
      (allParts F st (skipAnd (Text.skipBlanks rest))).Ensures E
        (AllWithin P (skipAnd (Text.skipBlanks rest)).length)) :
    (allParts F st cs).Ensures E (AllWithin P cs.length) := by
  rw [allParts, if_neg hc]
  refine h.bind ?_
  rintro ⟨part, rest⟩ hr
  have hb := Text.skipBlanks_length_le rest
  have hu := unitBound_le cs
  have hn' : (Text.skipBlanks rest).length ≤ cs.length := by
    have hr' : rest.length ≤ unitBound cs := hr.2
    omega
  have hpart : (pure (part.toList, Text.skipBlanks rest) : Build C _).Ensures E
      (AllWithin P cs.length) :=
    ensures_pure ⟨by simpa using hr.1, hn'⟩
  simp only
  split
  · exact hpart
  · split
    · next hl => exact ensures_cons hr.1 (hn rest hl) (Nat.le_of_lt hl)
    · exact hpart

theorem negation_ensures (hE : Admits F st E) (hP : Preserves F st P) {cs rest : List Char}
    (hs : Text.skipBlanks cs = '!' :: rest)
    (h : (compileUnit F st rest).Ensures E (Within P (unitBound rest))) :
    (compileUnit F st cs).Ensures E (Within P (unitBound cs)) := by
  have hl := le_unitBound (length_lt_of_skipBlanks_eq hs)
  rw [compileUnit_not hs]
  refine h.bind ?_
  rintro ⟨c, after⟩ hr
  have hu := unitBound_le rest
  have hn : after.length ≤ unitBound cs := by
    have ha : after.length ≤ unitBound rest := hr.2
    omega
  cases c with
  | none => exact ensures_pure ⟨by simp, hn⟩
  | some c =>
    have hy := (yields_make (hE.negate c)).bind (f := fun c => pure (some c, after))
      (yields_pure _)
    exact hy.ensures ⟨by simpa using hP.negate c (hr.1 c rfl), hn⟩

theorem group_ensures {cs rest : List Char} (hs : Text.skipBlanks cs = '(' :: rest)
    (h : (compileAny F st rest).Ensures E (Within P rest.length)) :
    (compileUnit F st cs).Ensures E (Within P (unitBound cs)) := by
  have hl := le_unitBound (length_lt_of_skipBlanks_eq hs)
  rw [compileUnit_group hs]
  refine h.bind ?_
  rintro ⟨c, after⟩ hr
  have hd := dropClose_length_le after
  have hn : (dropClose after).length ≤ unitBound cs := by
    have ha : after.length ≤ rest.length := hr.2
    omega
  exact ensures_pure ⟨hr.1, hn⟩

theorem tag_ensures (hE : Admits F st E) (hP : Preserves F st P) {cs rest : List Char}
    (hs : Text.skipBlanks cs = '|' :: '|' :: rest) :
    (compileUnit F st cs).Ensures E (Within P (unitBound cs)) := by
  have hl := le_unitBound (length_lt_of_skipBlanks_eq hs)
  have ht := takePayload_length_le rest
  have hn : (takePayload rest).2.length ≤ unitBound cs := by
    rw [List.length_cons] at hl
    omega
  refine (compileUnit_tag_yields hE hs).ensures ⟨?_, hn⟩
  intro c hc
  exact hP.tag _ c hc

/-- Every rule preserves `P` and takes its part off the text. -/
theorem rules_ensure (hE : Admits F st E) (hP : Preserves F st P) :
    (∀ cs, (compileAny F st cs).Ensures E (Within P cs.length)) ∧
      (∀ cs, (anyParts F st cs).Ensures E (AllWithin P cs.length)) ∧
      (∀ cs, (compileAll F st cs).Ensures E (Within P cs.length)) ∧
      (∀ cs, (allParts F st cs).Ensures E (AllWithin P cs.length)) ∧
      ∀ cs, (compileUnit F st cs).Ensures E (Within P (unitBound cs)) := by
  refine compileAny.mutual_induct _ _ _ _ _ ?_ ?_ ?_ ?_ ?_ ?_ ?_ ?_ ?_ ?_
  · intro cs ih
    rw [compileAny]
    exact ensures_combine ih hE.any hP.any
  · intro cs hc
    rw [anyParts, if_pos hc]
    exact ensures_pure ⟨by simp, Nat.le_refl _⟩
  · intro cs hc ih₁ ih₂
    exact anyParts_ensures hc ih₁ ih₂
  · intro cs ih
    rw [compileAll]
    exact ensures_combine ih hE.all hP.all
  · intro cs hc
    rw [allParts, if_pos hc]
    exact ensures_pure ⟨by simp, Nat.le_refl _⟩
  · intro cs hc ih₁ ih₂
    exact allParts_ensures hc ih₁ ih₂
  · intro cs rest hs ih
    exact negation_ensures hE hP hs ih
  · intro cs rest hs ih
    exact group_ensures hs ih
  · intro cs rest hs payload after hp
    exact tag_ensures hE hP hs
  · intro cs h₁ h₂ h₃
    rw [compileUnit_term h₁ h₂ h₃]
    refine (compileTerm_ensures hE.toAdmitsOwn _).imp fun r hr => ?_
    exact ⟨fun c hc => hP.leaf c (hr.1 c hc), Nat.le_trans hr.2 (unitBound_skipBlanks_le cs)⟩

theorem preserves_true : Preserves F st fun _ => True := by
  constructor <;> intros <;> trivial

theorem compileAll_rest_le {cs : List Char} {r : Option C × List Char}
    (h : (compileAll F st cs).result = .ok r) : r.2.length ≤ cs.length :=
  (((rules_ensure (admits_true F st) preserves_true).2.2.1 cs).result r h).2

theorem compileUnit_rest_lt {cs : List Char} (hc : ¬atClose cs = true)
    {r : Option C × List Char} (h : (compileUnit F st cs).result = .ok r) :
    r.2.length < cs.length :=
  Nat.lt_of_le_of_lt
    (((rules_ensure (admits_true F st) preserves_true).2.2.2.2 cs).result r h).2 (unitBound_lt hc)

/-- Alternatives without the guard. -/
theorem anyParts_eq {cs : List Char} (hc : ¬atClose cs = true) :
    anyParts F st cs = (do
      let (part, rest) ← compileAll F st cs
      if atOr rest then do
        let (parts, rest) ← anyParts F st (rest.drop 2)
        pure (part.toList ++ parts, rest)
      else pure (part.toList, rest)) := by
  rw [anyParts, if_neg hc]
  refine bind_congr_of_ok ?_
  rintro ⟨part, rest⟩ hr
  have hle := compileAll_rest_le hr
  by_cases ho : atOr rest = true
  · have hlt := drop_length_lt_of_atOr ho
    have hg : (rest.drop 2).length < cs.length := Nat.lt_of_lt_of_le hlt hle
    simp only [ho, hg, ↓reduceIte, ↓reduceDIte]
  · simp only [ho, Bool.false_eq_true, ↓reduceIte]

/-- Conjoined units without the guard. -/
theorem allParts_eq {cs : List Char} (hc : ¬atClose cs = true) :
    allParts F st cs = (do
      let (part, rest) ← compileUnit F st cs
      if atOr (Text.skipBlanks rest) then pure (part.toList, Text.skipBlanks rest)
      else do
        let (parts, rest) ← allParts F st (skipAnd (Text.skipBlanks rest))
        pure (part.toList ++ parts, rest)) := by
  rw [allParts, if_neg hc]
  refine bind_congr_of_ok ?_
  rintro ⟨part, rest⟩ hr
  have hlt := compileUnit_rest_lt hc hr
  have hb := Text.skipBlanks_length_le rest
  have ha := skipAnd_length_le (Text.skipBlanks rest)
  have hg : (skipAnd (Text.skipBlanks rest)).length < cs.length := by
    simp only at hlt
    omega
  simp only [hg, ↓reduceDIte]

/-- What the rules preserve holds of a whole compilation: of every event, also where it fails,
and of the constraint it ends with. -/
theorem compile_ensures (hE : Admits F st E) (hP : Preserves F st P) (query : String) :
    (∀ e ∈ (compile F st query).events, E e) ∧
      ∀ c, (compile F st query).result = .ok (some c) → P c := by
  have h := (rules_ensure hE hP).1 query.toList
  rw [compile]
  cases hr : (compileAny F st query.toList).result with
  | error s =>
    refine ⟨?_, by simp⟩
    intro e he
    simp only [List.mem_cons, List.mem_append, List.cons_append, List.not_mem_nil, or_false] at he
    rcases he with rfl | he | rfl
    · exact hE.note _ trivial
    · exact h.events e he
    · exact hE.note _ trivial
  | ok r =>
    refine ⟨?_, ?_⟩
    · intro e he
      rcases List.mem_cons.mp he with rfl | he
      · exact hE.note _ trivial
      · exact h.events e he
    · intro c hc
      simp only [Except.ok.injEq] at hc
      exact (h.result r hr).1 c hc

end FilterQuery.Query
