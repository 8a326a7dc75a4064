import Mathlib

/-!
Words as globs, in which an asterisk stands for any run of characters. Characters are compared
after folding, which may take letter case off or leave them as they are.
-/
namespace FilterQuery.Text

variable (fold : Char → Char)

/-- Whether a text matches a word, each asterisk standing for any run of characters and every
other character for itself. -/
def glob : List Char → List Char → Bool
  | [], t => t.isEmpty
  | c :: w, t =>
    if c = '*' then t.tails.any (glob w)
    else
      match t with
      | [] => false
      | d :: t => fold c == fold d && glob w t

theorem glob_star (w t : List Char) : glob fold ('*' :: w) t = t.tails.any (glob fold w) := rfl

theorem glob_star_iff {w t : List Char} :
    glob fold ('*' :: w) t = true ↔ ∃ s, s <:+ t ∧ glob fold w s = true := by
  rw [glob_star, List.any_eq_true]
  simp only [List.mem_tails]

theorem glob_nil_of_ne {c : Char} (hc : c ≠ '*') (w : List Char) :
    glob fold (c :: w) [] = false := by
  rw [glob, if_neg hc]

theorem glob_cons_of_ne {c : Char} (hc : c ≠ '*') (d : Char) (w t : List Char) :
    glob fold (c :: w) (d :: t) = (fold c == fold d && glob fold w t) := by
  rw [glob, if_neg hc]

/-- An occurrence of a word begins some end of the text. -/
theorem infix_map_iff_exists_suffix {w t : List Char} :
    w.map fold <:+: t.map fold ↔ ∃ s, s <:+ t ∧ w.map fold <+: s.map fold := by
  rw [List.infix_iff_prefix_suffix]
  constructor
  · rintro ⟨u, hp, hu⟩
    obtain ⟨s, hs, rfl⟩ := List.suffix_map_iff.mp hu
    exact ⟨s, hs, hp⟩
  · rintro ⟨s, hs, hp⟩
    exact ⟨s.map fold, hp, hs.map fold⟩

end FilterQuery.Text
