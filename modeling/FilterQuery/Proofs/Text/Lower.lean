import FilterQuery.Text.Lower
import Mathlib

/-!
Lower-cased texts stay as they are. No run of the case table leads to a code point that another one
starts from, so a character that comes out of lower-casing has no other lower-case form.
-/
namespace FilterQuery.Text

/-- The first code point that a run leads to. -/
def CaseRun.low (run : CaseRun) : Nat := (run.first + run.shift).toNat

/-- The last code point that a run leads to. -/
def CaseRun.high (run : CaseRun) : Nat := (run.last + run.shift).toNat

/-- Whether nothing that `run` leads to is covered by `other`: the two do not meet, or both go by
twos and pass each other. -/
def CaseRun.isApart (run other : CaseRun) : Bool :=
  run.high.blt other.first || other.last.blt run.low ||
    (other.step == 2 && (run.step == 2 || run.first == run.last) && 0 ≤ run.first + run.shift &&
      (run.low + other.first) % 2 == 1)

theorem CaseRun.image?_of_isApart {run other : CaseRun} (h : run.isApart other = true) {m n : Nat}
    (hn : run.image? m = some n) : other.image? n = none := by
  rw [image?] at hn
  split at hn
  · rename_i hm
    obtain ⟨hfirst, hlast, hstep⟩ := hm
    have hn' : (m + run.shift).toNat = n := Option.some.inj hn
    rw [image?, if_neg]
    rintro ⟨hfirst', hlast', hstep'⟩
    simp only [isApart, low, high, Nat.blt_eq, Bool.and_eq_true, Bool.or_eq_true,
      decide_eq_true_eq, beq_iff_eq] at h
    obtain (hbelow | habove) | ⟨⟨⟨htwo, hrun⟩, hpos⟩, hodd⟩ := h
    · omega
    · omega
    · rw [htwo] at hstep'
      rcases hrun with hrun | hrun
      · rw [hrun] at hstep
        omega
      · omega
  · cases hn

/-- A code point without another lower-case form. -/
structure IsLowerCode (n : Nat) : Prop where
  ne : n ≠ 0x130
  image : ∀ run ∈ lowerRuns, run.image? n = none

instance (n : Nat) : Decidable (IsLowerCode n) :=
  decidable_of_iff (n ≠ 0x130 ∧ ∀ run ∈ lowerRuns, run.image? n = none)
    ⟨fun h => ⟨h.1, h.2⟩, fun h => ⟨h.ne, h.image⟩⟩

theorem lowerRuns_isApart :
    (lowerRuns.all fun run => lowerRuns.all fun other => run.isApart other) = true := by
  decide +kernel

/-- The capital I with a dot above is on its own: no run of the table leads to it. -/
theorem lowerRuns_avoid :
    (lowerRuns.all fun run => run.isApart ⟨0x130, 0x130, 2, 0⟩) = true := by
  decide +kernel

theorem isLowerCode_of_image? {run : CaseRun} (hrun : run ∈ lowerRuns) {m n : Nat}
    (h : run.image? m = some n) : IsLowerCode n where
  ne := by
    rintro rfl
    have hnone := CaseRun.image?_of_isApart (List.all_eq_true.mp lowerRuns_avoid run hrun) h
    cases hnone
  image := by
    intro other hother
    have hall := List.all_eq_true.mp lowerRuns_isApart run hrun
    exact CaseRun.image?_of_isApart (List.all_eq_true.mp hall other hother) h

/-- Characters that lower-casing leaves alone. -/
abbrev IsLower (c : Char) : Prop := IsLowerCode c.toNat

theorem isLower_ofNat {n : Nat} (h : IsLowerCode n) : IsLower (Char.ofNat n) := by
  by_cases hv : n.isValidChar
  · rwa [IsLower, Char.toNat_ofNat, if_pos hv]
  · rw [IsLower, Char.toNat_ofNat, if_neg hv]
    decide +kernel

/-- For ASCII letters the table says what lower-casing does by itself. -/
theorem toLower_eq_table :
    ∀ n < 0x80, (Char.ofNat n).toLower =
      ((lowerRuns.findSome? (·.image? n)).map Char.ofNat).getD (Char.ofNat n) := by
  decide +kernel

theorem lowerChar_eq {c : Char} (h : c.toNat ≠ 0x130) :
    lowerChar c = [((lowerRuns.findSome? (·.image? c.toNat)).map Char.ofNat).getD c] := by
  rw [lowerChar, if_neg h]
  split
  · next hc =>
    have ht := toLower_eq_table c.toNat hc
    rw [Char.ofNat_toNat] at ht
    rw [ht]
  · rfl

theorem lowerChar_of_isLower {c : Char} (h : IsLower c) : lowerChar c = [c] := by
  have hnone : lowerRuns.findSome? (·.image? c.toNat) = none := by
    rw [List.findSome?_eq_none_iff]
    exact h.image
  rw [lowerChar_eq h.ne, hnone]
  rfl

theorem ne_capitalSigma_of_isLower {c : Char} (h : IsLower c) : c ≠ capitalSigma := by
  rintro rfl
  have hnot : ¬IsLower capitalSigma := by decide +kernel
  exact hnot h

theorem isLower_of_mem_lowerChar {c d : Char} (h : d ∈ lowerChar c) : IsLower d := by
  by_cases hc : c.toNat = 0x130
  · have hsmall : IsLower 'i' ∧ IsLower (Char.ofNat 0x307) := by decide +kernel
    have hn : ¬c.toNat < 0x80 := by omega
    rw [lowerChar, if_neg hn, if_pos hc] at h
    rcases List.mem_pair.mp h with rfl | rfl
    · exact hsmall.1
    · exact hsmall.2
  · rw [lowerChar_eq hc, List.mem_singleton] at h
    cases hf : lowerRuns.findSome? (·.image? c.toNat) with
    | none =>
      rw [hf] at h
      obtain rfl : d = c := h
      exact ⟨hc, List.findSome?_eq_none_iff.mp hf⟩
    | some n =>
      rw [hf] at h
      obtain rfl : d = Char.ofNat n := h
      obtain ⟨run, hrun, hn⟩ := List.exists_of_findSome?_eq_some hf
      exact isLower_ofNat (isLowerCode_of_image? hrun hn)

theorem isLower_lowerSigma (before after : List Char) : IsLower (lowerSigma before after) := by
  have hsigma : IsLower (Char.ofNat 0x3C2) ∧ IsLower (Char.ofNat 0x3C3) := by decide +kernel
  rw [lowerSigma]
  split
  · exact hsigma.1
  · exact hsigma.2

theorem isLower_of_mem_lowerFrom (before : List Char) {cs : List Char} {d : Char}
    (h : d ∈ lowerFrom before cs) : IsLower d := by
  induction cs generalizing before with
  | nil => cases h
  | cons c cs ih =>
    rw [lowerFrom, List.mem_append] at h
    rcases h with h | h
    · split at h
      · rw [List.mem_singleton.mp h]
        exact isLower_lowerSigma before cs
      · exact isLower_of_mem_lowerChar h
    · exact ih _ h

theorem lowerFrom_of_isLower (before : List Char) {cs : List Char} (h : ∀ c ∈ cs, IsLower c) :
    lowerFrom before cs = cs := by
  induction cs generalizing before with
  | nil => rfl
  | cons c cs ih =>
    rw [List.forall_mem_cons] at h
    rw [lowerFrom, if_neg (ne_capitalSigma_of_isLower h.1), lowerChar_of_isLower h.1, ih _ h.2]
    rfl

theorem lower_lower (s : String) : lower (lower s) = lower s := by
  have hlower : ∀ c ∈ lowerFrom [] s.toList, IsLower c :=
    fun c hc => isLower_of_mem_lowerFrom [] hc
  rw [lower, lower, String.toList_ofList, lowerFrom_of_isLower [] hlower]

end FilterQuery.Text
