import FilterQuery.Text.Blank
import Mathlib

/-!
Blanks skipped in front of a text and trimmed at both of its ends.
-/
namespace FilterQuery.Text

theorem skipBlanks_append {bs : List Char} (h : ∀ c ∈ bs, isBlank c = true) (cs : List Char) :
    skipBlanks (bs ++ cs) = skipBlanks cs :=
  List.dropWhile_append_of_pos h

theorem skipBlanks_cons {c : Char} (h : isBlank c = false) (cs : List Char) :
    skipBlanks (c :: cs) = c :: cs :=
  List.dropWhile_cons_of_neg (by simp [h])

/-- No printed ASCII character is blank. -/
theorem isBlank_of_printed {c : Char} (h₁ : 0x20 < c.toNat) (h₂ : c.toNat < 0x7F) :
    isBlank c = false := by
  simp only [isBlank, Bool.or_eq_false_iff, Bool.and_eq_false_iff, decide_eq_false_iff_not,
    beq_eq_false_iff_ne]
  omega

theorem isBlank_of_isAlpha {c : Char} (h : c.isAlpha = true) : isBlank c = false := by
  have hr : (65 ≤ c.toNat ∧ c.toNat ≤ 90) ∨ (97 ≤ c.toNat ∧ c.toNat ≤ 122) := by
    simpa [Char.isAlpha, Char.isUpper, Char.isLower, UInt32.le_iff_toNat_le] using h
  apply isBlank_of_printed <;> omega

theorem isBlank_of_isDigit {c : Char} (h : c.isDigit = true) : isBlank c = false := by
  have hr : 48 ≤ c.toNat ∧ c.toNat ≤ 57 := by
    simpa [Char.isDigit, UInt32.le_iff_toNat_le] using h
  apply isBlank_of_printed <;> omega

theorem not_isBlank_of_all {cs : List Char} (h : cs.all (! isBlank ·) = true) :
    ∀ c ∈ cs, isBlank c = false := by
  simpa using List.all_eq_true.mp h

theorem isBlank_toLower (c : Char) : isBlank c.toLower = isBlank c := by
  by_cases h : c.isAlpha = true
  · have hlower : c.toLower.isAlpha = true := by rw [Char.isAlpha_toLower_eq_isAlpha, h]
    rw [isBlank_of_isAlpha h, isBlank_of_isAlpha hlower]
  · have hupper : ¬c.isUpper = true := fun hc => h (by rw [Char.isAlpha, hc, Bool.true_or])
    rw [Char.toLower_eq_of_not_isUpper hupper]

theorem mem_skipBlanks {c : Char} {cs : List Char} (hc : c ∈ cs) (h : isBlank c = false) :
    c ∈ skipBlanks cs := by
  rw [← List.takeWhile_append_dropWhile (p := isBlank) (l := cs)] at hc
  rcases List.mem_append.mp hc with hc | hc
  · rw [List.mem_takeWhile_imp hc] at h
    cases h
  · exact hc

theorem trimChars_ne_nil {c : Char} {cs : List Char} (hc : c ∈ cs) (h : isBlank c = false) :
    trimChars cs ≠ [] := by
  have h₁ := mem_skipBlanks hc h
  have h₂ := mem_skipBlanks (List.mem_reverse.mpr h₁) h
  rw [trimChars, ne_eq, List.reverse_eq_nil_iff]
  exact List.ne_nil_of_mem h₂

/-- A text that neither starts nor ends with a blank is not trimmed. -/
theorem trimChars_eq_self {cs : List Char} (hfirst : ∀ c ∈ cs.head?, isBlank c = false)
    (hlast : ∀ c ∈ cs.getLast?, isBlank c = false) : trimChars cs = cs := by
  have hskip : ∀ ds : List Char, (∀ c ∈ ds.head?, isBlank c = false) → skipBlanks ds = ds := by
    intro ds hds
    cases ds with
    | nil => rfl
    | cons d ds => exact skipBlanks_cons (hds d rfl) ds
  rw [trimChars, hskip cs hfirst, hskip cs.reverse (by simpa using hlast), List.reverse_reverse]

theorem trimChars_of_not_isBlank {cs : List Char} (h : ∀ c ∈ cs, isBlank c = false) :
    trimChars cs = cs :=
  trimChars_eq_self (fun c hc => h c (List.mem_of_head? hc))
    fun c hc => h c (List.mem_of_getLast? hc)

theorem getLast?_trimChars (cs : List Char) :
    ∀ c ∈ (trimChars cs).getLast?, isBlank c = false := by
  rw [trimChars, List.getLast?_reverse]
  exact head?_skipBlanks _

/-- What the second pass of trimming leaves ends as what the first pass left begins. -/
theorem head?_trimChars (cs : List Char) : ∀ c ∈ (trimChars cs).head?, isBlank c = false := by
  intro c hc
  obtain ⟨front, hfront⟩ := List.dropWhile_suffix isBlank (l := (skipBlanks cs).reverse)
  have hlast : c ∈ (skipBlanks (skipBlanks cs).reverse).getLast? := by
    rwa [trimChars, List.head?_reverse] at hc
  apply head?_skipBlanks cs
  rw [← List.getLast?_reverse, ← hfront, List.getLast?_append]
  exact Option.mem_def.mpr (by rw [← skipBlanks, Option.mem_def.mp hlast]; rfl)

theorem toList_trim (s : String) : (trim s).toList = trimChars s.toList := String.toList_ofList

theorem trimChars_trimChars (cs : List Char) : trimChars (trimChars cs) = trimChars cs :=
  trimChars_eq_self (head?_trimChars cs) (getLast?_trimChars cs)

/-- Only blanks are trimmed, at the front and then at the end of what is left. -/
theorem exists_trimChars (cs : List Char) :
    ∃ front back, (∀ c ∈ front, isBlank c = true) ∧ (∀ c ∈ back, isBlank c = true) ∧
      cs = front ++ trimChars cs ++ back := by
  have hsplit (ds : List Char) : ds.takeWhile isBlank ++ skipBlanks ds = ds :=
    List.takeWhile_append_dropWhile
  have hback := congrArg List.reverse (hsplit (skipBlanks cs).reverse)
  rw [List.reverse_append, List.reverse_reverse, ← trimChars] at hback
  refine ⟨cs.takeWhile isBlank, ((skipBlanks cs).reverse.takeWhile isBlank).reverse,
    fun c hc => List.mem_takeWhile_imp hc,
    fun c hc => List.mem_takeWhile_imp (List.mem_reverse.mp hc), ?_⟩
  rw [List.append_assoc, hback, hsplit]

end FilterQuery.Text
