import FilterQuery.Proofs.Query.Boundary
import FilterQuery.Proofs.Query.Unread

/-!
Texts that look the same from the front. A closing bracket, and an exclamation mark that begins no
operator, are characters past which no scanner and no look-ahead reaches, so what stands behind
them is never told apart.
-/
namespace FilterQuery.Query

/-- To a reader in front of them, the second text looks like the first. -/
inductive Alike : List Char → List Char → Prop where
  | mark {cs ds : List Char} (hc : cs.head? ≠ some '=') (hd : ds.head? ≠ some '=') :
      Alike ('!' :: cs) ('!' :: ds)
  | close (cs : List Char) {ds : List Char} (hd : atClose ds = true) : Alike (')' :: cs) ds

variable {u v : List Char}

/-- The character after an operator's first one counts only if it is part of the operator. -/
theorem matchAt_eq_of_ne {next : Option Char} (h₁ : next ≠ some '=') (h₂ : next ≠ some '>')
    (c : Char) : Operator.matchAt c next = Operator.matchAt c none := by
  fun_cases Operator.matchAt c next <;> simp_all [Operator.matchAt]

namespace Alike

theorem ne_nil (h : Alike u v) : u ≠ [] := by
  cases h <;> simp

/-- Neither text starts with a character that a keyword, an operator or a tag could go on with. -/
theorem head?_ne (h : Alike u v) {c : Char} (h₁ : c ≠ '!') (h₂ : c ≠ ')') :
    u.head? ≠ some c ∧ v.head? ≠ some c := by
  cases h with
  | mark => simp [h₁.symm]
  | close _ hd =>
    rcases eq_nil_or_cons_of_atClose hd with rfl | ⟨ds, rfl⟩ <;> simp [h₂.symm]

theorem at?_self (h : Alike u v) : Operator.at? u = none ∧ Operator.at? v = none := by
  have hclose (cs : List Char) : Operator.at? (')' :: cs) = none := by
    rw [Operator.at?, matchAt_eq_none] <;> decide
  cases h with
  | mark hc hd => exact ⟨matchAt_mark hc, matchAt_mark hd⟩
  | close cs hd =>
    refine ⟨hclose cs, ?_⟩
    rcases eq_nil_or_cons_of_atClose hd with rfl | ⟨ds, rfl⟩
    · rfl
    · exact hclose ds

theorem at?_append (h : Alike u v) (w : List Char) :
    Operator.at? (w ++ v) = Operator.at? (w ++ u) := by
  match w with
  | [] => rw [List.nil_append, List.nil_append, h.at?_self.1, h.at?_self.2]
  | [c] =>
    obtain ⟨hu₁, hv₁⟩ := h.head?_ne (c := '=') (by decide) (by decide)
    obtain ⟨hu₂, hv₂⟩ := h.head?_ne (c := '>') (by decide) (by decide)
    exact (matchAt_eq_of_ne hv₁ hv₂ c).trans (matchAt_eq_of_ne hu₁ hu₂ c).symm
  | c :: d :: w => rfl

theorem atOperator_append (h : Alike u v) (w : List Char) :
    atOperator (w ++ v) = atOperator (w ++ u) := by
  rw [atOperator, atOperator, h.at?_append]

theorem atClose_append (h : Alike u v) (w : List Char) : atClose (w ++ v) = atClose (w ++ u) := by
  match w with
  | [] =>
    cases h with
    | mark => rfl
    | close _ hd => exact hd
  | c :: w => rfl

theorem inWord_append (h : Alike u v) (w : List Char) : inWord (w ++ v) = inWord (w ++ u) := by
  match w with
  | [] =>
    have hu := h.at?_self.1
    have hv := h.at?_self.2
    cases h with
    | mark => simp [inWord, atOperator, hu, hv]
    | close _ hd =>
      rcases eq_nil_or_cons_of_atClose hd with rfl | ⟨ds, rfl⟩ <;> simp [inWord]
  | c :: w =>
    have ho := h.atOperator_append (c :: w)
    simp only [List.cons_append] at ho
    simp only [List.cons_append, inWord, ho]

theorem inValue_append (h : Alike u v) (w : List Char) : inValue (w ++ v) = inValue (w ++ u) := by
  match w with
  | [] =>
    cases h with
    | mark => rfl
    | close _ hd => rcases eq_nil_or_cons_of_atClose hd with rfl | ⟨ds, rfl⟩ <;> simp [inValue]
  | c :: w => rfl

theorem head?_eq_append (h : Alike u v) {c : Char} (hc : c ≠ ')') (w : List Char) :
    ((w ++ v).head? == some c) = ((w ++ u).head? == some c) := by
  match w with
  | [] =>
    cases h with
    | mark => rfl
    | close _ hd =>
      rcases eq_nil_or_cons_of_atClose hd with rfl | ⟨ds, rfl⟩ <;> simp [hc.symm]
  | d :: w => rfl

theorem head?_append_iff (h : Alike u v) {c : Char} (hc : c ≠ ')') (w : List Char) :
    (w ++ v).head? = some c ↔ (w ++ u).head? = some c := by
  rw [← beq_iff_eq, h.head?_eq_append hc, beq_iff_eq]

/-- A quote at the front stands in front of `u`. -/
theorem exists_quote (h : Alike u v) {w : List Char} (hq : (w ++ u).head? = some '"') :
    ∃ w', w = '"' :: w' := by
  match w with
  | [] => exact absurd hq (h.head?_ne (by decide) (by decide)).1
  | c :: w =>
    cases hq
    exact ⟨w, rfl⟩

theorem endsKeyword_append (h : Alike u v) (w : List Char) :
    endsKeyword (w ++ v).head? = endsKeyword (w ++ u).head? := by
  match w with
  | [] =>
    cases h with
    | mark => rfl
    | close _ hd =>
      rcases eq_nil_or_cons_of_atClose hd with rfl | ⟨ds, rfl⟩ <;> simp [endsKeyword]
  | c :: w => rfl

theorem head?_eq (h : Alike u v) :
    (∀ c ∈ u.head?, c = '!' ∨ c = ')') ∧ ∀ c ∈ v.head?, c = '!' ∨ c = ')' := by
  cases h with
  | mark => simp
  | close _ hd => rcases eq_nil_or_cons_of_atClose hd with rfl | ⟨ds, rfl⟩ <;> simp

end Alike

theorem exists_append_of_suffix {w rest : List Char} (h : w ++ u <:+ rest) :
    ∃ w', rest = w' ++ u := by
  obtain ⟨front, rfl⟩ := h
  exact ⟨front ++ w, (List.append_assoc front w u).symm⟩

theorem ne_append_of_length_lt {rest w : List Char} (h : rest.length < u.length) :
    rest ≠ w ++ u := by
  rintro rfl
  rw [List.length_append] at h
  omega

/-- Characters that no text like `u` starts with stand in front of it. -/
theorem front_of_append (front : List Char) {w tail : List Char}
    (hu : ∀ c ∈ u.head?, c = '!' ∨ c = ')') (hf : ∀ c ∈ front, c ≠ '!' ∧ c ≠ ')')
    (h : w ++ u = front ++ tail) :
    ∃ w', w = front ++ w' ∧ tail = w' ++ u := by
  rcases List.append_eq_append_iff.mp h with ⟨gap, rfl, rfl⟩ | ⟨w', rfl, rfl⟩
  · cases gap with
    | nil => exact ⟨[], by simp⟩
    | cons c gap =>
      have hc := hf c (by simp)
      exact absurd (hu c (by simp)) (by simp [hc])
  · exact ⟨w', rfl, rfl⟩

theorem atOr_append_iff {w : List Char} (hu : ∀ c ∈ u.head?, c = '!' ∨ c = ')') :
    atOr (w ++ u) = true ↔ ∃ a b w', w = a :: b :: w' ∧ (a = 'o' ∨ a = 'O') ∧
      (b = 'r' ∨ b = 'R') ∧ endsKeyword (w' ++ u).head? = true := by
  rw [atOr_iff]
  constructor
  · rintro ⟨a, b, tail, he, ha, hb, ht⟩
    have hf : ∀ c ∈ [a, b], c ≠ '!' ∧ c ≠ ')' := by
      rcases ha with rfl | rfl <;> rcases hb with rfl | rfl <;> simp
    obtain ⟨w', rfl, rfl⟩ := front_of_append [a, b] hu hf he
    exact ⟨a, b, w', rfl, ha, hb, ht⟩
  · rintro ⟨a, b, w', rfl, ha, hb, ht⟩
    exact ⟨a, b, w' ++ u, rfl, ha, hb, ht⟩

theorem atAnd_append_iff {w : List Char} (hu : ∀ c ∈ u.head?, c = '!' ∨ c = ')') :
    atAnd (w ++ u) = true ↔ ∃ a b c w', w = a :: b :: c :: w' ∧ (a = 'a' ∨ a = 'A') ∧
      (b = 'n' ∨ b = 'N') ∧ (c = 'd' ∨ c = 'D') ∧ endsKeyword (w' ++ u).head? = true := by
  rw [atAnd_iff]
  constructor
  · rintro ⟨a, b, c, tail, he, ha, hb, hc, ht⟩
    have hf : ∀ e ∈ [a, b, c], e ≠ '!' ∧ e ≠ ')' := by
      rcases ha with rfl | rfl <;> rcases hb with rfl | rfl <;> rcases hc with rfl | rfl <;> simp
    obtain ⟨w', rfl, rfl⟩ := front_of_append [a, b, c] hu hf he
    exact ⟨a, b, c, w', rfl, ha, hb, hc, ht⟩
  · rintro ⟨a, b, c, w', rfl, ha, hb, hc, ht⟩
    exact ⟨a, b, c, w' ++ u, rfl, ha, hb, hc, ht⟩

theorem atAmpersands_append_iff {w : List Char} (hu : ∀ c ∈ u.head?, c = '!' ∨ c = ')') :
    atAmpersands (w ++ u) = true ↔ ∃ w', w = '&' :: '&' :: w' := by
  constructor
  · intro h
    rw [atAmpersands.eq_def] at h
    split at h
    · next tail he =>
      obtain ⟨w', rfl, -⟩ := front_of_append ['&', '&'] hu (by simp) he
      exact ⟨w', rfl⟩
    · cases h
  · rintro ⟨w', rfl⟩
    rfl

namespace Alike

theorem atOr_append (h : Alike u v) (w : List Char) : atOr (w ++ v) = atOr (w ++ u) := by
  rw [Bool.eq_iff_iff, atOr_append_iff h.head?_eq.1, atOr_append_iff h.head?_eq.2]
  simp only [h.endsKeyword_append]

/-- The text after an `or`. -/
theorem drop_or (h : Alike u v) {w : List Char} (ho : atOr (w ++ u) = true) :
    ∃ w', (w ++ u).drop 2 = w' ++ u ∧ (w ++ v).drop 2 = w' ++ v := by
  obtain ⟨a, b, w', rfl, -⟩ := (atOr_append_iff h.head?_eq.1).mp ho
  exact ⟨w', rfl, rfl⟩

theorem skipAnd_append (h : Alike u v) (w : List Char) :
    ∃ w', skipAnd (w ++ u) = w' ++ u ∧ skipAnd (w ++ v) = w' ++ v := by
  have ha : atAnd (w ++ v) = atAnd (w ++ u) := by
    rw [Bool.eq_iff_iff, atAnd_append_iff h.head?_eq.1, atAnd_append_iff h.head?_eq.2]
    simp only [h.endsKeyword_append]
  have hp : atAmpersands (w ++ v) = atAmpersands (w ++ u) := by
    rw [Bool.eq_iff_iff, atAmpersands_append_iff h.head?_eq.1,
      atAmpersands_append_iff h.head?_eq.2]
  rw [skipAnd, skipAnd, ha, hp]
  by_cases hand : atAnd (w ++ u) = true
  · obtain ⟨a, b, c, w', rfl, -⟩ := (atAnd_append_iff h.head?_eq.1).mp hand
    rw [if_pos hand, if_pos hand]
    exact ⟨w', rfl, rfl⟩
  · rw [if_neg hand, if_neg hand]
    by_cases hamp : atAmpersands (w ++ u) = true
    · obtain ⟨w', rfl⟩ := (atAmpersands_append_iff h.head?_eq.1).mp hamp
      rw [if_pos hamp, if_pos hamp]
      exact ⟨w', rfl, rfl⟩
    · rw [if_neg hamp, if_neg hamp]
      exact ⟨w, rfl, rfl⟩

theorem skipBlanks_append (h : Alike u v) (w : List Char) :
    Text.skipBlanks (w ++ u) = Text.skipBlanks w ++ u ∧
      Text.skipBlanks (w ++ v) = Text.skipBlanks w ++ v := by
  have hself (x : List Char) (hx : ∀ c ∈ x.head?, c = '!' ∨ c = ')') :
      Text.skipBlanks (w ++ x) = Text.skipBlanks w ++ x := by
    have hb : Text.skipBlanks x = x := by
      cases x with
      | nil => rfl
      | cons c x =>
        refine Text.skipBlanks_cons ?_ x
        rcases hx c rfl with rfl | rfl <;> decide
    induction w with
    | nil => exact hb
    | cons c w ih =>
      cases hc : Text.isBlank c with
      | false => rw [List.cons_append, Text.skipBlanks_cons hc, Text.skipBlanks_cons hc]; rfl
      | true => simpa [Text.skipBlanks, hc] using ih
  exact ⟨hself u h.head?_eq.1, hself v h.head?_eq.2⟩

theorem skipStray_self (h : Alike u v) : skipStray u = u ∧ skipStray v = v := by
  have hstay {x : List Char} (hx : atClose x = true ∨ inWord x = true) : skipStray x = x := by
    cases x with
    | nil => rfl
    | cons c x => rw [skipStray, if_pos (by simpa using hx)]
  have hu : atClose u = true ∨ inWord u = true := by
    have ho := h.at?_self.1
    cases h with
    | mark =>
      have hb : Text.isBlank '!' = false := by decide
      exact .inr (by simp [inWord, atOperator, ho, hb])
    | close => exact .inl rfl
  have hc := h.atClose_append []
  have hw := h.inWord_append []
  simp only [List.nil_append] at hc hw
  exact ⟨hstay hu, hstay (by rw [hc, hw]; exact hu)⟩

theorem skipStray_append (h : Alike u v) (w : List Char) :
    ∃ w', skipStray (w ++ u) = w' ++ u ∧ skipStray (w ++ v) = w' ++ v := by
  induction w with
  | nil => exact ⟨[], h.skipStray_self⟩
  | cons c w ih =>
    have hc := h.atClose_append (c :: w)
    have hw := h.inWord_append (c :: w)
    simp only [List.cons_append] at hc hw ⊢
    rw [skipStray, skipStray, hc, hw]
    split
    · exact ⟨c :: w, rfl, rfl⟩
    · exact ih

/-- A bracket that is dropped stands in front of `u` if nothing of `u` is missing behind it. -/
theorem dropClose_append (h : Alike u v) {w w' : List Char}
    (hr : dropClose (w ++ u) = w' ++ u) : dropClose (w ++ v) = w' ++ v := by
  match w with
  | [] =>
    cases h with
    | mark hc hd =>
      have hw : [] ++ '!' :: _ = w' ++ '!' :: _ := hr
      rw [← List.append_cancel_right hw]
      rfl
    | close cs hd => exact absurd hr (ne_append_of_length_lt (Nat.lt_succ_self cs.length))
  | c :: w =>
    by_cases hc : c = ')'
    · subst hc
      have hw : w ++ u = w' ++ u := hr
      rw [← List.append_cancel_right hw]
      rfl
    · have hstay (x : List Char) : dropClose (c :: w ++ x) = c :: w ++ x := by
        rw [dropClose.eq_def]
        split
        · next he => exact absurd (List.cons.inj he).1 hc
        · rfl
      rw [hstay] at hr ⊢
      rw [List.append_cancel_right hr]

end Alike

/-- A scanner that ends before `u`, or at it, takes the same with `v` in place of `u`. -/
def Keeps {α : Type} (u v : List Char) (f : List Char → α × List Char) : Prop :=
  ∀ w w', (f (w ++ u)).2 = w' ++ u → f (w ++ v) = ((f (w ++ u)).1, w' ++ v)

theorem takeEscapedWhile_length_lt {p : List Char → Bool} {cs : List Char} (hne : cs ≠ [])
    (h : p cs = true) : (takeEscapedWhile p cs).2.length < cs.length := by
  fun_cases takeEscapedWhile p cs with
  | case1 => exact absurd rfl hne
  | case2 c cs _ taken rest ht =>
    have hl := takeEscapedWhile_length_le p cs
    rw [ht] at hl
    simp only [List.length_cons] at hl ⊢
    omega
  | case3 c cs hp => exact absurd h hp
  | case4 c cs _ _ taken rest ht =>
    have hl := takeEscapedWhile_length_le p cs
    rw [ht] at hl
    exact Nat.lt_succ_of_le hl
  | case5 c cs _ hp => exact absurd h hp

theorem takeTerm_quote (cs : List Char) : takeTerm ('"' :: cs) =
    (⟨String.ofList (takeQuoted cs).1, true⟩, (takeQuoted cs).2) := rfl

theorem takeValue_quote {cs ds : List Char} (h : Text.skipBlanks cs = '"' :: ds) :
    takeValue cs = (⟨String.ofList (takeQuoted ds).1, true⟩, (takeQuoted ds).2) := by
  rw [takeValue]
  split
  · next es he =>
    rw [h] at he
    cases he
    rfl
  · next hn => exact absurd h (hn ds)

theorem takePayload_cons {c : Char} {cs : List Char} (h : c = '|' → cs.head? ≠ some '|') :
    takePayload (c :: cs) = (c :: (takePayload cs).1, (takePayload cs).2) := by
  rw [takePayload]
  rintro ds rfl rfl
  exact h rfl rfl

namespace Alike

/-- A test that does not tell `u` and `v` apart lets a scanner end at both or at none. Where a
backslash takes the first character of `u`, the scanner ends behind it. -/
theorem takeEscapedWhile (h : Alike u v) {p : List Char → Bool}
    (hp : ∀ w, p (w ++ v) = p (w ++ u)) : Keeps u v (takeEscapedWhile p) := by
  intro w w' hr
  by_cases ht : p (w ++ u) = true
  · have ht' := hp w
    rw [ht] at ht'
    match w with
    | [] => exact absurd hr (ne_append_of_length_lt (takeEscapedWhile_length_lt h.ne_nil ht))
    | c :: w =>
      simp only [List.cons_append] at ht ht' hr ⊢
      by_cases hc : c = '\\'
      · subst hc
        match w with
        | [] =>
          obtain ⟨d, ds, rfl⟩ := List.exists_cons_of_ne_nil h.ne_nil
          rw [List.nil_append, takeEscapedWhile_marked ht] at hr
          have hl := takeEscapedWhile_length_le p ds
          exact absurd hr (ne_append_of_length_lt (Nat.lt_succ_of_le hl))
        | d :: w =>
          simp only [List.cons_append] at ht ht' hr ⊢
          rw [takeEscapedWhile_marked ht] at hr ⊢
          rw [takeEscapedWhile_marked ht', h.takeEscapedWhile hp w w' hr]
      · rw [takeEscapedWhile_cons hc ht] at hr ⊢
        rw [takeEscapedWhile_cons hc ht', h.takeEscapedWhile hp w w' hr]
  · have ht' := hp w
    rw [Bool.not_eq_true] at ht
    rw [ht] at ht'
    rw [takeEscapedWhile_stop (.inr ht)] at hr ⊢
    rw [takeEscapedWhile_stop (.inr ht'), List.append_cancel_right hr]

theorem takeEscaped (h : Alike u v) : Keeps u v takeEscaped := by
  intro w w' hr
  match w with
  | [] => exact absurd hr (ne_append_of_length_lt (takeEscaped_length_lt h.ne_nil))
  | c :: w =>
    by_cases hc : c = '\\'
    · subst hc
      match w with
      | [] =>
        obtain ⟨d, ds, rfl⟩ := List.exists_cons_of_ne_nil h.ne_nil
        exact absurd hr (ne_append_of_length_lt (Nat.lt_succ_self ds.length))
      | d :: w =>
        have hw : w ++ u = w' ++ u := hr
        rw [← List.append_cancel_right hw]
        rfl
    · rw [List.cons_append, takeEscaped_cons hc] at hr ⊢
      rw [List.cons_append, takeEscaped_cons hc, List.append_cancel_right hr]

/-- With `u` whole behind the closing quote, the text from the quote on is longer than `u`, so the
quote stands before it. -/
theorem takeQuoted (h : Alike u v) : Keeps u v takeQuoted := by
  intro w w' hr
  have hp : ∀ w, ((w ++ v).head? != some '"') = ((w ++ u).head? != some '"') :=
    fun w => congrArg not (h.head?_eq_append (by decide) w)
  have ht : ∃ c, (Query.takeEscapedWhile (·.head? != some '"') (w ++ u)).2 =
      (c :: w') ++ u := by
    simp only [Query.takeQuoted] at hr
    cases he : (Query.takeEscapedWhile (·.head? != some '"') (w ++ u)).2 with
    | nil =>
      rw [he] at hr
      exact absurd hr.symm (by simp [h.ne_nil])
    | cons c rest =>
      rw [he] at hr
      exact ⟨c, by rw [List.cons_append, ← hr, List.tail_cons]⟩
  obtain ⟨c, hc⟩ := ht
  have hk := h.takeEscapedWhile hp w _ hc
  simp only [Query.takeQuoted, hk, List.cons_append, List.tail_cons]

theorem takeWord (h : Alike u v) : Keeps u v takeWord := by
  intro w w' hr
  have hp : ∀ w, (inWord (w ++ v) && (w ++ v).head? != some '!') =
      (inWord (w ++ u) && (w ++ u).head? != some '!') := by
    intro w
    rw [h.inWord_append, bne, bne, h.head?_eq_append (by decide)]
  have hs := takeEscapedWhile_suffix (fun cs => inWord cs && cs.head? != some '!')
    (Query.takeEscaped (w ++ u)).2
  simp only [Query.takeWord] at hr ⊢
  rw [hr] at hs
  obtain ⟨w₁, he⟩ := exists_append_of_suffix hs
  rw [he] at hr ⊢
  rw [h.takeEscaped w w₁ he, h.takeEscapedWhile hp w₁ w' hr]

theorem takeTerm (h : Alike u v) : Keeps u v takeTerm := by
  intro w w' hr
  by_cases hq : (w ++ u).head? = some '"'
  · obtain ⟨w₁, rfl⟩ := h.exists_quote hq
    rw [List.cons_append, takeTerm_quote] at hr ⊢
    rw [List.cons_append, takeTerm_quote, h.takeQuoted w₁ w' hr]
  · have hq' := mt (h.head?_append_iff (by decide) w).mp hq
    rw [takeTerm_bare hq] at hr ⊢
    rw [takeTerm_bare hq', h.takeWord w w' hr]

theorem extendTerm (h : Alike u v) (t : Term) : Keeps u v (extendTerm t) := by
  intro w w' hr
  have hp : ∀ w, (atOperator (w ++ v) || inWord (w ++ v)) =
      (atOperator (w ++ u) || inWord (w ++ u)) := by
    intro w
    rw [h.atOperator_append, h.inWord_append]
  simp only [Query.extendTerm] at hr ⊢
  rw [h.takeEscapedWhile hp w w' hr]

theorem takeValue (h : Alike u v) : Keeps u v takeValue := by
  intro w w' hr
  obtain ⟨hu, hv⟩ := h.skipBlanks_append w
  generalize Text.skipBlanks w = b at hu hv
  by_cases hq : (b ++ u).head? = some '"'
  · obtain ⟨b', rfl⟩ := h.exists_quote hq
    rw [List.cons_append] at hu hv
    have hb := takeValue_quote hu
    rw [hb] at hr ⊢
    rw [takeValue_quote hv, h.takeQuoted b' w' hr]
  · have hq' := mt (h.head?_append_iff (by decide) b).mp hq
    have hb := takeValue_bare (by rw [hu]; exact hq)
    rw [hb, hu] at hr ⊢
    rw [takeValue_bare (by rw [hv]; exact hq'), hv, h.takeEscapedWhile h.inValue_append b w' hr]

theorem takePayload (h : Alike u v) : Keeps u v takePayload := by
  obtain ⟨hu, hv⟩ := h.head?_ne (c := '|') (by decide) (by decide)
  intro w
  induction w with
  | nil =>
    intro w' hr
    obtain ⟨c, cs, rfl⟩ := List.exists_cons_of_ne_nil h.ne_nil
    have hc : c ≠ '|' := fun he => hu (by rw [he]; rfl)
    have hl := takePayload_length_le cs
    rw [List.nil_append, takePayload_cons fun he => absurd he hc] at hr
    exact absurd hr (ne_append_of_length_lt (Nat.lt_succ_of_le hl))
  | cons c w ih =>
    intro w' hr
    by_cases hc : c = '|' ∧ w.head? = some '|'
    · obtain ⟨rfl, hw⟩ := hc
      obtain ⟨w₁, rfl⟩ := List.head?_eq_some_iff.mp hw
      have hw : w₁ ++ u = w' ++ u := hr
      rw [← List.append_cancel_right hw]
      rfl
    · have hstep {x : List Char} (hx : x.head? ≠ some '|') :
          c = '|' → (w ++ x).head? ≠ some '|' := by
        intro he hd
        match w with
        | [] => exact hx hd
        | d :: w => exact hc ⟨he, hd⟩
      simp only [List.cons_append] at hr ⊢
      rw [takePayload_cons (hstep hu)] at hr ⊢
      rw [takePayload_cons (hstep hv), ih w' hr]

end Alike

end FilterQuery.Query
