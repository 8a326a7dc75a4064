import FilterQuery.Proofs.Calendar.Format
import FilterQuery.Proofs.Number.Decimal
import FilterQuery.Value.Basic

/-!
The printed form of values. A text and a constant are printed with all their characters between
apostrophes; the text of any other value has no blanks. So a line break in a printed value is one
of a text or of a constant.
-/
namespace FilterQuery

namespace Number

variable {ds : List Char}

theorem not_isBlank_of_mem_significantDigits (n : Nat) :
    ∀ c ∈ significantDigits n, Text.isBlank c = false := by
  rw [significantDigits]
  split
  · exact Text.not_isBlank_of_all (by decide)
  · intro c hc
    have hfront := (List.dropWhile_suffix _).subset (List.mem_reverse.mp hc)
    exact Digits.not_isBlank_of_mem_write n c (List.mem_reverse.mp hfront)

theorem not_isBlank_of_mem_positionalText (h : ∀ c ∈ ds, Text.isBlank c = false)
    (keepsPoint : Bool) (lead : Int) :
    ∀ c ∈ positionalText keepsPoint ds lead, Text.isBlank c = false := by
  have hzeros (k : Nat) : ∀ c ∈ List.replicate k '0', Text.isBlank c = false := by
    intro c hc
    rw [List.eq_of_mem_replicate hc]
    rfl
  have hpoint : ∀ c ∈ if keepsPoint then ['.', '0'] else [], Text.isBlank c = false := by
    cases keepsPoint <;> exact Text.not_isBlank_of_all (by decide)
  rw [positionalText]
  split
  · simp only [List.cons_append, List.forall_mem_cons, List.forall_mem_append]
    exact ⟨rfl, rfl, hzeros _, h⟩
  · dsimp only
    split
    · simp only [List.forall_mem_append, List.forall_mem_cons]
      exact ⟨fun c hc => h c (List.mem_of_mem_take hc), rfl,
        fun c hc => h c (List.mem_of_mem_drop hc)⟩
    · simp only [List.forall_mem_append]
      exact ⟨⟨h, hzeros _⟩, hpoint⟩

theorem not_isBlank_of_mem_floatText (x : Float) : ∀ c ∈ floatText x, Text.isBlank c = false := by
  rw [floatText]
  split
  · exact Text.not_isBlank_of_all (by decide)
  · split <;> exact Text.not_isBlank_of_all (by decide)
  · next negative m q _ =>
    have hsign : ∀ c ∈ if negative then ['-'] else [], Text.isBlank c = false := by
      cases negative <;> exact Text.not_isBlank_of_all (by decide)
    simp only [Layout.finite, Layout.plain, ↓reduceIte, List.forall_mem_append]
    exact ⟨hsign, not_isBlank_of_mem_positionalText (not_isBlank_of_mem_significantDigits _) _ _⟩

end Number

theorem lineBreak_mem_apostrophed {s : String} :
    '\n' ∈ (apostrophed s).toList ↔ '\n' ∈ s.toList := by
  have hchar (c : Char) : '\n' ∈ (if c = '\'' then ['\\', c] else [c]) ↔ '\n' = c := by
    split
    · next h =>
      subst h
      decide
    · simp
  simp only [apostrophed, String.toList_ofList, List.cons_append, List.mem_cons, List.mem_append,
    List.mem_flatMap, hchar]
  simp

namespace Value

/-- A text that a value is printed with has its line breaks. Nothing else is printed with
blanks. -/
theorem lineBreak_mem_display {v : Value} (h : '\n' ∈ v.display.toList) :
    ∃ s, (v = .string s ∨ v = .constant s) ∧ '\n' ∈ s.toList := by
  have hnone {cs : List Char} (hcs : ∀ c ∈ cs, Text.isBlank c = false) :
      '\n' ∉ (String.ofList cs).toList := by
    rw [String.toList_ofList]
    intro hm
    cases hcs '\n' hm
  cases v with
  | string s => exact ⟨s, .inl rfl, lineBreak_mem_apostrophed.mp h⟩
  | constant name => exact ⟨name, .inr rfl, lineBreak_mem_apostrophed.mp h⟩
  | int i => exact absurd h (hnone (Digits.not_isBlank_of_mem_writeInt _))
  | float x => exact absurd h (hnone (Number.not_isBlank_of_mem_floatText x))
  | decimal d => exact absurd h (hnone d.not_isBlank_of_mem_write)
  | boolean b => cases b <;> exact absurd h (by decide)
  | date d => exact absurd h (hnone d.not_isBlank_of_mem_write)
  | timestamp t => exact absurd h (hnone t.not_isBlank_of_mem_write)
  | null => exact absurd h (by decide)

end Value

end FilterQuery
