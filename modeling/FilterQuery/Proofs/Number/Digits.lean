import FilterQuery.Number.Digits
import FilterQuery.Proofs.Text.Blank
import Mathlib

/-!
Numbers are read back from their digits, with zeros in front of them or a sign. No text of a
number has a blank in it.
-/
namespace FilterQuery.Digits

theorem isDigit_of_mem_write {n : Nat} {c : Char} (h : c ∈ write n) : c.isDigit = true :=
  Nat.isDigit_of_mem_toDigits (by omega) (Nat.le_refl 10) h

theorem value_eq_ofDigitChars (cs : List Char) : value cs = Nat.ofDigitChars 10 cs 0 :=
  Nat.ofDigitChars_eq_foldl.symm

theorem value_write (n : Nat) : value (write n) = n := by
  rw [value_eq_ofDigitChars]
  exact Nat.ofDigitChars_ten_toDigits

theorem write_ne_nil (n : Nat) : write n ≠ [] := Nat.toDigits_ne_nil

theorem read?_of_isDigit {cs : List Char} (hne : cs ≠ []) (h : ∀ c ∈ cs, c.isDigit = true) :
    read? cs = some (value cs) :=
  if_pos ⟨hne, List.all_eq_true.mpr h⟩

theorem read?_write (n : Nat) : read? (write n) = some n := by
  rw [read?_of_isDigit (write_ne_nil n) fun c hc => isDigit_of_mem_write hc, value_write]

theorem value_zeros_append (k : Nat) (cs : List Char) :
    value (List.replicate k '0' ++ cs) = value cs := by
  simp only [value_eq_ofDigitChars, Nat.ofDigitChars_append, Nat.ofDigitChars_replicate_zero,
    Nat.mul_zero]

theorem value_append_zeros (cs : List Char) (k : Nat) :
    value (cs ++ List.replicate k '0') = 10 ^ k * value cs := by
  simp only [value_eq_ofDigitChars, Nat.ofDigitChars_append, Nat.ofDigitChars_replicate_zero]

theorem isDigit_of_mem_zeros {k : Nat} {c : Char} (h : c ∈ List.replicate k '0') :
    c.isDigit = true := by
  rw [List.eq_of_mem_replicate h]
  rfl

theorem isDigit_of_mem_padded {width n : Nat} {c : Char} (h : c ∈ padded width n) :
    c.isDigit = true := by
  rcases List.mem_append.mp h with h | h
  · exact isDigit_of_mem_zeros h
  · exact isDigit_of_mem_write h

theorem value_padded (width n : Nat) : value (padded width n) = n := by
  rw [padded, List.leftpad, value_zeros_append, value_write]

theorem padded_ne_nil (width n : Nat) : padded width n ≠ [] :=
  List.append_ne_nil_of_right_ne_nil _ (write_ne_nil n)

theorem length_padded {width n : Nat} (hw : 0 < width) (h : n < 10 ^ width) :
    (padded width n).length = width := by
  have hl : (write n).length ≤ width := Nat.toDigits_length 10 n width hw h
  rw [padded, List.leftpad, List.length_append, List.length_replicate]
  omega

theorem splitSign_of_isDigit {cs : List Char} (h : ∀ c ∈ cs, c.isDigit = true) :
    splitSign cs = (false, cs) := by
  cases cs with
  | nil => rfl
  | cons c cs =>
    have hc := h c List.mem_cons_self
    rw [splitSign]
    · rintro _ ⟨rfl⟩
      cases hc
    · rintro _ ⟨rfl⟩
      cases hc

theorem readInt?_of_isDigit {cs : List Char} (hne : cs ≠ []) (h : ∀ c ∈ cs, c.isDigit = true) :
    readInt? cs = some (value cs : Int) := by
  rw [readInt?, splitSign_of_isDigit h, read?_of_isDigit hne h]
  rfl

theorem readInt?_write (n : Nat) : readInt? (write n) = some (n : Int) := by
  rw [readInt?_of_isDigit (write_ne_nil n) fun c hc => isDigit_of_mem_write hc, value_write]

theorem readInt?_plus (n : Nat) : readInt? ('+' :: write n) = some (n : Int) := by
  rw [readInt?, splitSign, read?_write]
  rfl

theorem applySign_natAbs (i : Int) : applySign (decide (i < 0)) i.natAbs = i := by
  rw [applySign]
  by_cases h : i < 0
  · rw [if_pos (decide_eq_true h)]
    omega
  · rw [if_neg (by simpa using h)]
    omega

theorem readInt?_writeInt (i : Int) : readInt? (writeInt i) = some i := by
  have hi := applySign_natAbs i
  rw [writeInt]
  split
  · next h =>
    rw [decide_eq_true h] at hi
    rw [readInt?, splitSign, read?_write, Option.map_some, hi]
  · next h =>
    rw [decide_eq_false h] at hi
    rw [readInt?_write]
    exact congrArg some hi

theorem int64?_toInt (i : Int64) : int64? i.toInt = some i := by
  rw [int64?, if_pos ⟨i.minValue_le_toInt, i.toInt_le⟩, Int64.ofInt_toInt]

theorem readInt64?_writeInt64 (i : Int64) : readInt64? (writeInt64 i) = some i := by
  rw [readInt64?, writeInt64, readInt?_writeInt, Option.bind_some, int64?_toInt]

theorem not_isBlank_of_mem_write (n : Nat) : ∀ c ∈ write n, Text.isBlank c = false :=
  fun _ hc => Text.isBlank_of_isDigit (isDigit_of_mem_write hc)

theorem not_isBlank_of_mem_padded (width n : Nat) : ∀ c ∈ padded width n, Text.isBlank c = false :=
  fun _ hc => Text.isBlank_of_isDigit (isDigit_of_mem_padded hc)

theorem not_isBlank_of_mem_writeInt (i : Int) : ∀ c ∈ writeInt i, Text.isBlank c = false := by
  rw [writeInt]
  split
  · exact List.forall_mem_cons.mpr ⟨by decide, not_isBlank_of_mem_write _⟩
  · exact not_isBlank_of_mem_write _

end FilterQuery.Digits
