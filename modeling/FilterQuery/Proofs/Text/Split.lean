import FilterQuery.Text.Blank
import Mathlib

/-!
Texts cut into pieces: into words at their blanks, into lines at their line breaks. A piece has
characters of the text and none that the text was cut at, and there is one piece more than there
are cuts. Parts joined by line breaks have the lines of all parts.
-/
namespace FilterQuery.Text

theorem mem_of_mem_splitOnP {p : Char → Bool} {cs w : List Char} (h : w ∈ cs.splitOnP p) {c : Char}
    (hc : c ∈ w) : c ∈ cs ∧ p c = false := by
  induction cs generalizing w with
  | nil =>
    rw [List.splitOnP_nil, List.mem_singleton] at h
    subst h
    cases hc
  | cons d cs ih =>
    have hbehind {v : List Char} (hv : v ∈ cs.splitOnP p) (hc : c ∈ v) :
        c ∈ d :: cs ∧ p c = false :=
      ⟨List.mem_cons_of_mem d (ih hv hc).1, (ih hv hc).2⟩
    rw [List.splitOnP_cons_eq_if_modifyHead] at h
    by_cases hd : p d = true
    · rcases List.mem_cons.mp (by simpa [hd] using h) with rfl | h
      · cases hc
      · exact hbehind h hc
    · obtain ⟨v, vs, hvs⟩ := List.exists_cons_of_ne_nil (List.splitOnP_ne_nil p cs)
      have hw : w = d :: v ∨ w ∈ vs := by simpa [hd, hvs] using h
      rcases hw with rfl | hw
      · rcases List.mem_cons.mp hc with rfl | hc
        · exact ⟨List.mem_cons_self, by simpa using hd⟩
        · exact hbehind (by simp [hvs]) hc
      · exact hbehind (by simp [hvs, hw]) hc

theorem length_splitOnP {α : Type} (p : α → Bool) (as : List α) :
    (as.splitOnP p).length = as.countP p + 1 := by
  induction as with
  | nil => simp
  | cons a as ih =>
    rw [List.splitOnP_cons_eq_if_modifyHead, List.countP_cons]
    by_cases ha : p a = true
    · simp [ha, ih]
    · simp [ha, ih]

theorem isBlank_of_mem_words {cs w : List Char} (h : w ∈ words cs) :
    ∀ c ∈ w, isBlank c = false := by
  intro c hc
  exact (mem_of_mem_splitOnP (List.mem_of_mem_filter h) hc).2

theorem words_subset {cs w : List Char} (h : w ∈ words cs) : w ⊆ cs := by
  intro c hc
  exact (mem_of_mem_splitOnP (List.mem_of_mem_filter h) hc).1

/-- The lines of a text, without the breaks between them. -/
def lines (s : String) : List String := (s.toList.splitOn '\n').map String.ofList

theorem length_lines (s : String) : (lines s).length = s.toList.count '\n' + 1 := by
  rw [lines, List.length_map, List.splitOn_eq_splitOnP, length_splitOnP, List.count]

theorem lines_eq_singleton {s : String} (h : '\n' ∉ s.toList) : lines s = [s] := by
  rw [lines, List.splitOn_eq_singleton h, List.map_singleton, String.ofList_toList]

/-- Joined lines are the lines of all parts. -/
theorem lines_intercalate (s : String) (parts : List String) :
    lines ("\n".intercalate (s :: parts)) = (s :: parts).flatMap lines := by
  induction parts generalizing s with
  | nil => simp
  | cons t parts ih =>
    have hjoin : ("\n".intercalate (s :: t :: parts)).toList =
        s.toList ++ '\n' :: ("\n".intercalate (t :: parts)).toList := by
      simp [String.intercalate_cons_cons]
    have hbreak : ('\n' == '\n') = true := rfl
    have hsplit := List.splitOnP_append_cons (p := (· == '\n')) s.toList
      ("\n".intercalate (t :: parts)).toList hbreak
    rw [List.flatMap_cons, ← ih, lines, hjoin, List.splitOn_eq_splitOnP, hsplit, List.map_append]
    rfl

theorem flatMap_lines {parts : List String} (h : ∀ s ∈ parts, '\n' ∉ s.toList) :
    parts.flatMap lines = parts := by
  induction parts with
  | nil => rfl
  | cons s parts ih =>
    rw [List.forall_mem_cons] at h
    rw [List.flatMap_cons, lines_eq_singleton h.1, ih h.2, List.singleton_append]

/-- There are as many lines as parts just when no part has a line break. -/
theorem length_flatMap_lines (parts : List String) :
    (parts.flatMap lines).length = parts.length ↔ ∀ s ∈ parts, '\n' ∉ s.toList := by
  have hle (parts : List String) : parts.length ≤ (parts.flatMap lines).length := by
    induction parts with
    | nil => exact Nat.le_refl 0
    | cons s parts ih =>
      rw [List.flatMap_cons, List.length_append, length_lines, List.length_cons]
      omega
  refine ⟨?_, fun h => congrArg List.length (flatMap_lines h)⟩
  intro h
  induction parts with
  | nil => exact List.forall_mem_nil _
  | cons s parts ih =>
    have hparts := hle parts
    rw [List.flatMap_cons, List.length_append, length_lines, List.length_cons] at h
    exact List.forall_mem_cons.mpr ⟨List.count_eq_zero.mp (by omega), ih (by omega)⟩

end FilterQuery.Text
