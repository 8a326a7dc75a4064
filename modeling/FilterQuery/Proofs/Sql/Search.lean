import FilterQuery.Proofs.Text.Glob
import FilterQuery.Sql.Condition

/-!
What the patterns of SQL conditions match. Escaping makes a word stand for itself, also where it
has percent signs, underscores and backslashes, so a search finds exactly the texts that its mode
asks for.
-/
namespace FilterQuery.Sql

/-- Whether a text matches a pattern as a whole. A percent sign stands for any run of characters
and an underscore for any one of them; a backslash takes the character after it literally. -/
def matchesLike (fold : Char → Char) : List Char → List Char → Bool
  | [], t => t.isEmpty
  | '%' :: p, t => t.tails.any (matchesLike fold p)
  | '_' :: p, t =>
    match t with
    | [] => false
    | _ :: t => matchesLike fold p t
  | ['\\'], _ => false
  | '\\' :: c :: p, t =>
    match t with
    | [] => false
    | d :: t => fold c == fold d && matchesLike fold p t
  | c :: p, t =>
    match t with
    | [] => false
    | d :: t => fold c == fold d && matchesLike fold p t

/-- Whether a pattern ends with a backslash that takes no character. -/
def endsOpen : List Char → Bool
  | [] => false
  | ['\\'] => true
  | '\\' :: _ :: p => endsOpen p
  | _ :: p => endsOpen p

namespace Condition

/-- A character with its backslash, if it needs one. -/
def escaped (c : Char) : List Char := if c = '%' ∨ c = '_' ∨ c = '\\' then ['\\', c] else [c]

theorem literalPattern_cons (c : Char) (w : List Char) :
    literalPattern (c :: w) = escaped c ++ literalPattern w := rfl

theorem globPattern_cons (c : Char) (w : List Char) :
    globPattern (c :: w) = (if c = '*' then ['%'] else escaped c) ++ globPattern w := by
  rw [globPattern, literalPattern_cons, List.map_append]
  congr 1
  rw [escaped]
  split
  · next h => rcases h with rfl | rfl | rfl <;> rfl
  · split <;> simp_all

variable (fold : Char → Char)

theorem matchesLike_escaped_nil (c : Char) (p : List Char) :
    matchesLike fold (escaped c ++ p) [] = false := by
  rw [escaped]
  split
  · rfl
  · next h =>
    simp only [not_or] at h
    rw [List.singleton_append, matchesLike] <;> simp_all

/-- An escaped character matches itself, whatever the pattern goes on with. -/
theorem matchesLike_escaped_cons (c d : Char) (p t : List Char) :
    matchesLike fold (escaped c ++ p) (d :: t) = (fold c == fold d && matchesLike fold p t) := by
  rw [escaped]
  split
  · rfl
  · next h =>
    simp only [not_or] at h
    rw [List.singleton_append, matchesLike] <;> simp_all

theorem endsOpen_escaped (c : Char) (p : List Char) :
    endsOpen (escaped c ++ p) = endsOpen p := by
  rw [escaped]
  split
  · rfl
  · next h =>
    simp only [not_or] at h
    rw [List.singleton_append, endsOpen] <;> simp_all

theorem endsOpen_literalPattern (w p : List Char) :
    endsOpen (literalPattern w ++ p) = endsOpen p := by
  induction w with
  | nil => rfl
  | cons c w ih => rw [literalPattern_cons, List.append_assoc, endsOpen_escaped, ih]

theorem endsOpen_globPattern (w : List Char) : endsOpen (globPattern w) = false := by
  induction w with
  | nil => rfl
  | cons c w ih =>
    rw [globPattern_cons]
    split
    · exact ih
    · rw [endsOpen_escaped, ih]

theorem matchesLike_literalPattern (w t : List Char) :
    matchesLike fold (literalPattern w ++ ['%']) t = true ↔ w.map fold <+: t.map fold := by
  induction w generalizing t with
  | nil =>
    have h : matchesLike fold ['%'] t = true := List.any_eq_true.mpr ⟨[], by simp, rfl⟩
    simpa [literalPattern] using h
  | cons c w ih =>
    rw [literalPattern_cons, List.append_assoc]
    cases t with
    | nil => simp [matchesLike_escaped_nil]
    | cons d t =>
      rw [matchesLike_escaped_cons, Bool.and_eq_true, beq_iff_eq, ih, List.map_cons, List.map_cons,
        List.cons_prefix_cons]

theorem matchesLike_percent_literalPattern (w t : List Char) :
    matchesLike fold ('%' :: literalPattern w ++ ['%']) t = true ↔ w.map fold <:+: t.map fold := by
  rw [Text.infix_map_iff_exists_suffix, List.cons_append, matchesLike, List.any_eq_true]
  simp only [List.mem_tails, matchesLike_literalPattern]

theorem matchesLike_globPattern (w t : List Char) :
    matchesLike fold (globPattern w) t = Text.glob fold w t := by
  induction w generalizing t with
  | nil => rfl
  | cons c w ih =>
    rw [globPattern_cons]
    by_cases hc : c = '*'
    · subst hc
      rw [if_pos rfl, List.singleton_append, matchesLike, Text.glob_star, funext ih]
    · rw [if_neg hc]
      cases t with
      | nil => rw [matchesLike_escaped_nil, Text.glob_nil_of_ne fold hc]
      | cons d t => rw [matchesLike_escaped_cons, Text.glob_cons_of_ne fold hc, ih]

/-- The condition matches the column of the field with a pattern that ends in no open escape and
that exactly the texts of `P` match, however characters are folded. -/
def Selects (field : FieldPath) (c : Condition) (P : (Char → Char) → List Char → Prop) : Prop :=
  ∃ pattern : String, c = .like (.column (.ofField field)) (.value (.string pattern)) ∧
    endsOpen pattern.toList = false ∧ ∀ fold text, matchesLike fold pattern.toList text = true ↔
      P fold text

theorem selects_matching (field : FieldPath) {pattern : List Char}
    {P : (Char → Char) → List Char → Prop} (he : endsOpen pattern = false)
    (hp : ∀ fold text, matchesLike fold pattern text = true ↔ P fold text) :
    Selects field (matching field pattern) P :=
  ⟨String.ofList pattern, rfl, by rwa [String.toList_ofList], by rwa [String.toList_ofList]⟩

/-- A search selects the texts that start with the word, those in which it occurs, or those that
match it as a glob, as its mode says. -/
theorem search_selects (field : FieldPath) (word : String) :
    Selects field (factory.search field .beginning word)
        (fun fold text => word.toList.map fold <+: text.map fold) ∧
      Selects field (factory.search field .contains word)
        (fun fold text => word.toList.map fold <:+: text.map fold) ∧
      Selects field (factory.search field .like word)
        (fun fold text => Text.glob fold word.toList text = true) := by
  refine ⟨?_, ?_, ?_⟩
  · exact selects_matching field (endsOpen_literalPattern _ _)
      fun fold text => matchesLike_literalPattern fold _ text
  · refine selects_matching field ?_ fun fold text => matchesLike_percent_literalPattern fold _ text
    rw [List.cons_append, endsOpen, endsOpen_literalPattern]
    · rfl
    · simp
    · simp
  · exact selects_matching field (endsOpen_globPattern _)
      fun fold text => by rw [matchesLike_globPattern]

/-- A word of nothing but signs, each of which stands for itself but the asterisk. -/
example : matchesLike id (globPattern "\\*%_".toList) "\\ab%_".toList = true ∧
    matchesLike id (globPattern "\\*%_".toList) "\\ab%c".toList = false := by decide

end Condition
end FilterQuery.Sql
