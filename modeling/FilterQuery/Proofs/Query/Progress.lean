import FilterQuery.Proofs.Query.Independence

/-!
How far routines read. Every scanner and every rule leaves the text where it was or further on, and
a unit takes something off it unless it begins where a group ends: the blanks in front of a term,
characters that start none, or the first character of what it reads.
-/
namespace FilterQuery.Query

open Build

variable {C Handler α β : Type} {F : Factory C} {st : Setting Handler}

theorem suffix_tail_of_ne {cs ds : List Char} (h : ds <:+ cs) (hne : ds ≠ cs) :
    ds <:+ cs.tail := by
  cases cs with
  | nil => exact absurd (List.suffix_nil.mp h) hne
  | cons c cs => exact (List.suffix_cons_iff.mp h).resolve_left hne

theorem tail_suffix_tail {cs ds : List Char} (h : ds <:+ cs) : ds.tail <:+ cs.tail := by
  by_cases he : ds = cs
  · rw [he]
  · exact (List.tail_suffix ds).trans (suffix_tail_of_ne h he)

theorem length_lt_of_suffix_tail {cs ds : List Char} (hne : cs ≠ []) (h : ds <:+ cs.tail) :
    ds.length < cs.length := by
  cases cs with
  | nil => exact absurd rfl hne
  | cons c cs => exact Nat.lt_succ_of_le h.length_le

/-- What is left of a text when its first character is skipped or read. -/
theorem suffix_tail_of_skipBlanks_eq {c : Char} {cs rest : List Char}
    (h : Text.skipBlanks cs = c :: rest) : rest <:+ cs.tail := by
  have hb := skipBlanks_suffix cs
  rw [h] at hb
  refine suffix_tail_of_ne ((List.suffix_cons c rest).trans hb) ?_
  rintro rfl
  exact absurd hb.length_le (by simp)

/-- Where a term is read, something is: the characters in front of it or its own first one. -/
theorem compileTerm_takes {cs : List Char} (hc : ¬atClose cs = true) :
    EndsIn cs.tail (compileTerm F st cs) := by
  have hs := skipStray_suffix cs
  rw [compileTerm]
  by_cases hc' : atClose (skipStray cs) = true
  · have hne : skipStray cs ≠ cs := fun he => hc (he ▸ hc')
    simp only [hc', ↓reduceIte]
    exact endsIn_of_returns (yields_pure _) (suffix_tail_of_ne hs hne)
  · have hne : skipStray cs ≠ [] := by
      intro he
      rw [he] at hc'
      exact hc' rfl
    have hlt := takeTerm_length_lt hne
    simp only [hc', Bool.false_eq_true, ↓reduceIte]
    generalize ht : takeTerm (skipStray cs) = taken at hlt ⊢
    obtain ⟨t, after⟩ := taken
    have ha := takeTerm_suffix (skipStray cs)
    rw [ht] at ha
    have htail : Text.skipBlanks after <:+ cs.tail := by
      refine (skipBlanks_suffix after).trans (suffix_tail_of_ne (ha.trans hs) ?_)
      rintro rfl
      have hle := hs.length_le
      simp only at hlt
      omega
    simp only
    split
    · exact (compileOperation_endsIn t _ _).mono htail
    · exact endsIn_of_returns
        ((searchTerm_yields st (admitsOwn_true F) t).bind (yields_pure _)) htail

/-- Blanks in front of a term are taken as well as the term, and alone where no term follows. -/
theorem term_takes {cs : List Char} (hc : ¬atClose cs = true) :
    EndsIn cs.tail (compileTerm F st (Text.skipBlanks cs)) := by
  have hb := skipBlanks_suffix cs
  by_cases hc' : atClose (Text.skipBlanks cs) = true
  · have hne : Text.skipBlanks cs ≠ cs := fun he => hc (he ▸ hc')
    exact (compileTerm_leaves _).endsIn.mono (suffix_tail_of_ne hb hne)
  · exact (compileTerm_takes hc').mono (tail_suffix_tail hb)

variable [TagHandler Handler C]

theorem negation_takes {cs rest : List Char} (hs : Text.skipBlanks cs = '!' :: rest) :
    EndsIn cs.tail (compileUnit F st cs) := by
  have hl : Leaves st rest (compileUnit F st rest) := rules_leave.2.2.2.2 rest
  rw [compileUnit_not hs]
  exact (hl.endsIn.bind endsIn_negated).mono (suffix_tail_of_skipBlanks_eq hs)

theorem group_takes {cs rest : List Char} (hs : Text.skipBlanks cs = '(' :: rest) :
    EndsIn cs.tail (compileUnit F st cs) := by
  have hl : Leaves st rest (compileAny F st rest) := rules_leave.1 rest
  have hr := hl.endsIn.bind (f := fun r => pure (r.1, dropClose r.2)) fun r =>
    endsIn_of_returns (yields_pure _) (dropClose_suffix r.2)
  rw [compileUnit_group hs]
  exact hr.mono (suffix_tail_of_skipBlanks_eq hs)

theorem tag_takes {cs rest : List Char} (hs : Text.skipBlanks cs = '|' :: '|' :: rest) :
    EndsIn cs.tail (compileUnit F st cs) := by
  have hr : rest <:+ cs.tail :=
    (List.suffix_cons '|' rest).trans (suffix_tail_of_skipBlanks_eq hs)
  exact endsIn_of_returns (compileUnit_tag_yields (admits_true F st) hs)
    ((takePayload_suffix rest).trans hr)

/-- A unit takes something, unless it begins where a group ends. -/
theorem compileUnit_takes {cs : List Char} (hc : ¬atClose cs = true) :
    EndsIn cs.tail (compileUnit F st cs) := by
  by_cases h₁ : ∃ rest, Text.skipBlanks cs = '!' :: rest
  · obtain ⟨rest, hs⟩ := h₁
    exact negation_takes hs
  by_cases h₂ : ∃ rest, Text.skipBlanks cs = '(' :: rest
  · obtain ⟨rest, hs⟩ := h₂
    exact group_takes hs
  by_cases h₃ : ∃ rest, Text.skipBlanks cs = '|' :: '|' :: rest
  · obtain ⟨rest, hs⟩ := h₃
    exact tag_takes hs
  rw [compileUnit_term (fun rest hs => h₁ ⟨rest, hs⟩) (fun rest hs => h₂ ⟨rest, hs⟩)
    fun rest hs => h₃ ⟨rest, hs⟩]
  exact term_takes hc

theorem allParts_takes {cs : List Char} (hc : ¬atClose cs = true) :
    EndsIn cs.tail (allParts F st cs) := by
  rw [allParts_eq hc]
  refine (compileUnit_takes hc).bind ?_
  rintro ⟨part, rest⟩
  have hb := skipBlanks_suffix rest
  simp only
  split
  · exact endsIn_of_returns (yields_pure _) hb
  · exact (leaves_cons (rules_leave.2.2.2.1 _) part).endsIn.mono ((skipAnd_suffix _).trans hb)

theorem endsIn_combine {x : Build C (List C × List Char)} {cs : List Char} (hx : EndsIn cs x)
    (join : List C → C) :
    EndsIn cs (do let (parts, rest) ← x; let c ← combine join parts; pure (c, rest)) :=
  hx.bind fun r => endsIn_of_returns
    ((combine_yields join r.1 fun _ => trivial).bind (yields_pure _)) List.suffix_rfl

theorem compileAll_takes {cs : List Char} (hc : ¬atClose cs = true) :
    EndsIn cs.tail (compileAll F st cs) := by
  rw [compileAll]
  exact endsIn_combine (allParts_takes hc) F.all

/-- The text that is unread when a computation returns or stops. -/
def Build.unread (x : Build C (α × List Char)) : List Char :=
  match x.result with
  | .ok r => r.2
  | .error s => s.unread

theorem EndsIn.unread {cs : List Char} {x : Build C (α × List Char)} (h : EndsIn cs x) :
    x.unread <:+ cs := by
  rw [Build.unread]
  cases hr : x.result with
  | ok r => exact h.rest r hr
  | error s => exact h.stop s hr

theorem Build.unread_bind_error {x : Build C α} {s : Stop} (h : x.result = .error s)
    (f : α → Build C (β × List Char)) : (x >>= f).unread = s.unread := by
  rw [bind_error h, Build.unread]

theorem Build.unread_bind_ok {x : Build C α} {a : α} (h : x.result = .ok a)
    (f : α → Build C (β × List Char)) : (x >>= f).unread = (f a).unread := by
  rw [bind_ok h, Build.unread, Build.unread]

/-- What is done with the returned value alone leaves the text where it was. -/
theorem Build.unread_bind_pure (x : Build C (α × List Char)) (g : α → β) :
    (x >>= fun r => pure (g r.1, r.2)).unread = x.unread := by
  cases h : x.result with
  | error s => rw [unread_bind_error h, Build.unread, h]
  | ok r => rw [unread_bind_ok h, Build.unread, Build.unread, h]; rfl

/-- The scanners and the rules. -/
inductive Routine where
  | blanks | escaped | term | value | payload | stray | closing | conjunction
  | extension (t : Term)
  | comparison (field : String) (r : Resolved)
  | operation (t : Term) (skipped : Bool)
  | termUnit | unit | allParts | all | anyParts | any

variable (F st) in
/-- The text that a routine leaves unread. -/
def Routine.unread (cs : List Char) : Routine → List Char
  | .blanks => Text.skipBlanks cs
  | .escaped => (takeEscaped cs).2
  | .term => (takeTerm cs).2
  | .value => (takeValue cs).2
  | .payload => (takePayload cs).2
  | .stray => skipStray cs
  | .closing => dropClose cs
  | .conjunction => skipAnd cs
  | .extension t => (extendTerm t cs).2
  | .comparison field r => (compileComparison F field r cs).unread
  | .operation t skipped => (compileOperation F st t skipped cs).unread
  | .termUnit => (compileTerm F st cs).unread
  | .unit => (compileUnit F st cs).unread
  | .allParts => (Query.allParts F st cs).unread
  | .all => (compileAll F st cs).unread
  | .anyParts => (Query.anyParts F st cs).unread
  | .any => (compileAny F st cs).unread

/-- No routine goes back. -/
theorem Routine.unread_suffix (routine : Routine) (cs : List Char) :
    routine.unread F st cs <:+ cs := by
  have hterm : Leaves st cs (compileTerm F st cs) := compileTerm_leaves cs
  obtain ⟨hany, hanyParts, hall, hallParts, hunit⟩ := @rules_leave Handler C F st _
  cases routine with
  | blanks => exact skipBlanks_suffix cs
  | escaped => exact takeEscaped_suffix cs
  | term => exact takeTerm_suffix cs
  | value => exact takeValue_suffix cs
  | payload => exact takePayload_suffix cs
  | stray => exact skipStray_suffix cs
  | closing => exact dropClose_suffix cs
  | conjunction => exact skipAnd_suffix cs
  | extension t => exact extendTerm_suffix t cs
  | comparison field r => exact (compileComparison_endsIn field r cs).unread
  | operation t skipped => exact (compileOperation_endsIn t skipped cs).unread
  | termUnit => exact hterm.endsIn.unread
  | unit => exact (hunit cs).endsIn.unread
  | allParts => exact (hallParts cs).endsIn.unread
  | all => exact (hall cs).endsIn.unread
  | anyParts => exact (hanyParts cs).endsIn.unread
  | any => exact (hany cs).endsIn.unread

end FilterQuery.Query
