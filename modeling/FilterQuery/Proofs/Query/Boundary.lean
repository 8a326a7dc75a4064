import FilterQuery.Proofs.Query.Spelling

/-!
Where items begin and end. An item opens with a character that is no blank, no operator and no
keyword, and what follows it cannot extend it. Joints and the words between alternatives are
such boundaries.
-/
namespace FilterQuery.Query

/-- What may stand after an item: nothing, a blank or a closing bracket, and no operator
behind the blanks. -/
structure Follows (rest : List Char) : Prop where
  edge : AtEdge rest
  operator : atOperator (Text.skipBlanks rest) = false

theorem AtEdge.cases {rest : List Char} (h : AtEdge rest) :
    rest = [] ∨ ∃ c cs, rest = c :: cs ∧ (c = ')' ∨ Text.isBlank c = true) := by
  rcases h with h | h
  · exact .inl h
  · cases rest with
    | nil => exact .inl rfl
    | cons c cs =>
      refine .inr ⟨c, cs, rfl, ?_⟩
      rw [inValue, Bool.and_eq_false_iff] at h
      simpa using h

theorem AtEdge.notBare {rest : List Char} (h : AtEdge rest) : NotBare rest := by
  rcases h.cases with rfl | ⟨c, cs, rfl, hc⟩
  · simp [NotBare]
  · intro d hd
    cases hd
    rcases hc with rfl | hc
    · decide
    · by_contra hb
      rw [Bool.not_eq_false] at hb
      rw [isBlank_of_isBare hb] at hc
      cases hc

theorem AtEdge.not_inWord {rest : List Char} (h : AtEdge rest) : inWord rest = false := by
  rcases h.cases with rfl | ⟨c, cs, rfl, rfl | hc⟩
  · rfl
  · simp [inWord]
  · simp [inWord, hc]

theorem AtEdge.endsWord {rest : List Char} (h : AtEdge rest) : EndsWord rest :=
  .inr (by rw [h.not_inWord, Bool.false_and])

theorem AtEdge.not_atOperator {rest : List Char} (h : AtEdge rest) :
    atOperator rest = false := by
  rcases h.cases with rfl | ⟨c, cs, rfl, hc⟩
  · rfl
  · apply atOperator_of_not_startsOperator
    by_contra ho
    rw [Bool.not_eq_false, startsOperator] at ho
    simp only [Bool.or_eq_true, beq_iff_eq] at ho
    rcases ho with (((rfl | rfl) | rfl) | rfl) | rfl <;> exact absurd hc (by decide)

/-- A blank that follows is skipped, so a mark behind it does not touch the word. -/
theorem AtEdge.head?_skipBlanks {rest : List Char} (h : AtEdge rest) :
    (Text.skipBlanks rest).length < rest.length ∨ (Text.skipBlanks rest).head? ≠ some '!' := by
  rcases h.cases with rfl | ⟨c, cs, rfl, hc⟩
  · exact .inr (by simp)
  · rcases hc with rfl | hc
    · have hb : Text.isBlank ')' = false := by decide
      exact .inr (by simp [Text.skipBlanks_cons hb])
    · have hs : Text.skipBlanks (c :: cs) = Text.skipBlanks cs := by simp [Text.skipBlanks, hc]
      have hl := Text.skipBlanks_length_le cs
      exact .inl (by rw [hs]; exact Nat.lt_succ_of_le hl)

theorem follows_nil : Follows [] := ⟨.inl rfl, rfl⟩

theorem skipBlanks_close (cs : List Char) : Text.skipBlanks (')' :: cs) = ')' :: cs :=
  Text.skipBlanks_cons (by decide) cs

theorem follows_close (cs : List Char) : Follows (')' :: cs) where
  edge := .inr rfl
  operator := by
    rw [skipBlanks_close, atOperator, Operator.at?, matchAt_eq_none] <;> simp

theorem follows_gap {b cs : List Char} (hb : Gap b) (ho : atOperator (Text.skipBlanks cs) = false) :
    Follows (b ++ cs) where
  edge := by
    obtain ⟨c, b', rfl⟩ := List.exists_cons_of_ne_nil hb.1
    have hc := hb.2 c List.mem_cons_self
    exact .inr (by simp [inValue, hc])
  operator := by rw [Text.skipBlanks_append hb.2, ho]

theorem notBare_nil : NotBare [] := by simp [NotBare]

theorem notBare_cons {c : Char} (h : isBare c = false) (cs : List Char) : NotBare (c :: cs) := by
  intro d hd
  cases hd
  exact h

/-- A text that starts with an item. -/
structure Opens (cs : List Char) : Prop where
  blank : Text.skipBlanks cs = cs
  close : atClose cs = false
  operator : atOperator cs = false
  or : atOr cs = false
  and : skipAnd cs = cs

theorem matchAt_of_isOpening {c : Char} (h : isOpening c = true) {next : Option Char}
    (hm : c = '!' → next ≠ some '=') : Operator.matchAt c next = none := by
  by_cases hc : c = '!'
  · subst hc
    exact matchAt_mark (hm rfl)
  · exact matchAt_eq_none hc (ne_of_isOpening h (by decide)) (ne_of_isOpening h (by decide))
      (ne_of_isOpening h (by decide)) (ne_of_isOpening h (by decide)) next

theorem opens_cons {c : Char} {cs : List Char} (h : isOpening c = true)
    (hm : c = '!' → cs.head? ≠ some '=') (ho : atOr (c :: cs) = false)
    (ha : atAnd (c :: cs) = false) : Opens (c :: cs) where
  blank := Text.skipBlanks_cons (isBlank_of_isOpening h) cs
  close := by
    have hc : c ≠ ')' := ne_of_isOpening h (by decide)
    simp [atClose, hc]
  operator := by rw [atOperator, Operator.at?, matchAt_of_isOpening h hm]; rfl
  or := ho
  and := by
    have hc : c ≠ '&' := ne_of_isOpening h (by decide)
    have hp : atAmpersands (c :: cs) = false := by
      rw [atAmpersands]
      intro ds he
      exact hc (List.cons.inj he).1
    simp [skipAnd, ha, hp]

/-- No keyword starts with a character that is not bare. -/
theorem not_keyword_of_not_bare {c : Char} (h : isBare c = false) (cs : List Char) :
    atOr (c :: cs) = false ∧ atAnd (c :: cs) = false := by
  rw [← Bool.not_eq_true, ← Bool.not_eq_true, atOr_iff, atAnd_iff]
  refine ⟨?_, ?_⟩
  · rintro ⟨a, b, tail, he, ha, -⟩
    cases he
    rcases ha with rfl | rfl <;> cases h
  · rintro ⟨a, b, d, tail, he, ha, -⟩
    cases he
    rcases ha with rfl | rfl <;> cases h

theorem opens_mark {c : Char} {cs : List Char} (h : isOpening c = true) (hb : isBare c = false)
    (hm : c = '!' → cs.head? ≠ some '=') : Opens (c :: cs) :=
  opens_cons h hm (not_keyword_of_not_bare hb cs).1 (not_keyword_of_not_bare hb cs).2

theorem opens_quotedText (s : String) (rest : List Char) : Opens (quotedText s ++ rest) :=
  opens_mark (by decide) (by decide) fun he => absurd he (by decide)

theorem Plain.opens {s : String} {t rest : List Char} (h : Plain s t) (hr : NotBare rest) :
    Opens (t ++ rest) := by
  have ho := h.not_atOr hr
  have ha := h.not_atAnd hr
  obtain ⟨c, t', rfl, hc⟩ := h.escaped.exists_cons h.ne_nil
  have hl := isLeading_of_isBare_or hc
  exact opens_cons (isOpening_of_isLeading hl)
    (fun he => absurd he (ne_of_isLeading hl (by decide))) ho ha

theorem FieldSpelling.opens {field : String} {t rest : List Char} (h : FieldSpelling field t)
    (hr : NotBare rest) : Opens (t ++ rest) := by
  cases h with
  | quoted => exact opens_quotedText field rest
  | plain h => exact h.opens hr

/-- The first character of an operator. -/
theorem exists_cons_of_operatorTexts {op : Operator} {o : String} (h : o ∈ operatorTexts op) :
    ∃ c o', o.toList = c :: o' ∧ (c = '=' ∨ c = ':' ∨ c = '!' ∨ c = '<' ∨ c = '>') := by
  have hm : ∀ p ∈ operatorTexts op, ∃ c o', p.toList = c :: o' ∧
      (c = '=' ∨ c = ':' ∨ c = '!' ∨ c = '<' ∨ c = '>') := by
    cases op <;> simp [operatorTexts]
  exact hm o h

/-- A word ends at blanks with an operator behind them, and at an operator that follows at
once. -/
theorem endsWord_operator {b cs : List Char} (hb : Blanks b) (ho : atOperator cs = true) :
    EndsWord (b ++ cs) := by
  refine .inr ?_
  cases b with
  | nil =>
    cases cs with
    | nil => rfl
    | cons c cs => simp [inWord, ho]
  | cons c b =>
    have hc := hb c List.mem_cons_self
    simp [inWord, hc]

theorem notBare_operator {b cs : List Char} {op : Operator} {o : String} (hb : Blanks b)
    (ho : o ∈ operatorTexts op) : NotBare (b ++ (o.toList ++ cs)) := by
  cases b with
  | nil =>
    obtain ⟨c, o', he, hc⟩ := exists_cons_of_operatorTexts ho
    rw [he]
    refine notBare_cons ?_ _
    rcases hc with rfl | rfl | rfl | rfl | rfl <;> decide
  | cons c b =>
    have hc := hb c List.mem_cons_self
    refine notBare_cons ?_ _
    by_contra h
    rw [Bool.not_eq_false] at h
    rw [isBlank_of_isBare h] at hc
    cases hc

/-- Neither blanks nor a value extend the operator in front of them. -/
theorem head?_operand {operand : Operand} {b t : List Char} (hb : Blanks b)
    (h : OperandSpelling operand t) (rest : List Char) :
    (b ++ (t ++ rest)).head? ≠ some '=' ∧ (b ++ (t ++ rest)).head? ≠ some '>' := by
  cases b with
  | cons c b =>
    have hc := hb c List.mem_cons_self
    have h₁ : c ≠ '=' := by
      rintro rfl
      cases hc
    have h₂ : c ≠ '>' := by
      rintro rfl
      cases hc
    simp [h₁, h₂]
  | nil =>
    cases h with
    | quoted s => simp [quotedText]
    | plain h _ =>
      obtain ⟨c, t', rfl, hc⟩ := h.escaped.exists_cons h.ne_nil
      have hl := isLeading_of_isBare_or hc
      have h₁ : c ≠ '=' := ne_of_isLeading hl (by decide)
      have h₂ : c ≠ '>' := ne_of_isLeading hl (by decide)
      simp [h₁, h₂]
    | missing => simp

theorem skipBlanks_operator {op : Operator} {o : String} (ho : o ∈ operatorTexts op)
    (cs : List Char) : Text.skipBlanks (o.toList ++ cs) = o.toList ++ cs := by
  obtain ⟨c, o', he, hc⟩ := exists_cons_of_operatorTexts ho
  have hb : Text.isBlank c = false := by
    rcases hc with rfl | rfl | rfl | rfl | rfl <;> decide
  rw [he]
  exact Text.skipBlanks_cons hb _

theorem SpellsItem.exists_cons {u : Item} {t : List Char} (h : SpellsItem u t) :
    ∃ c t', t = c :: t' ∧ isOpening c = true := by
  cases h with
  | negation _ => exact ⟨'!', _, rfl, rfl⟩
  | group _ => exact ⟨'(', _, rfl, rfl⟩
  | tag _ _ _ => exact ⟨'|', _, rfl, rfl⟩
  | comparison hf _ _ _ _ =>
    obtain ⟨c, t', rfl, hc⟩ := hf.exists_cons
    exact ⟨c, _, rfl, isOpening_of_isLeading hc⟩
  | phrase s => exact ⟨'"', _, rfl, rfl⟩
  | word h =>
    obtain ⟨c, t', rfl, hc⟩ := h.escaped.exists_cons h.ne_nil
    exact ⟨c, t', rfl, isOpening_of_isLeading (isLeading_of_isBare_or hc)⟩

theorem SpellsItem.opens {u : Item} {t rest : List Char} (h : SpellsItem u t)
    (hr : NotBare rest) : Opens (t ++ rest) := by
  cases h with
  | negation h =>
    obtain ⟨c, t', rfl, hc⟩ := h.exists_cons
    refine opens_mark (by decide) (by decide) fun _ => ?_
    intro he
    cases he
    cases hc
  | group _ => exact opens_mark (by decide) (by decide) fun he => absurd he (by decide)
  | tag _ _ _ => exact opens_mark (by decide) (by decide) fun he => absurd he (by decide)
  | comparison hf hb ho _ _ =>
    rw [List.append_assoc, List.append_assoc, List.append_assoc]
    exact hf.opens (notBare_operator hb ho)
  | phrase s => exact opens_quotedText s rest
  | word h => exact h.opens hr

theorem keyword_or {k : List Char} (h : k.map Char.toLower = "or".toList) :
    ∃ a b, k = [a, b] ∧ (a = 'o' ∨ a = 'O') ∧ (b = 'r' ∨ b = 'R') := by
  match k with
  | [] => simp at h
  | [_] => simp at h
  | [a, b] =>
    simp only [List.map_cons, List.map_nil, String.reduceToList, List.cons.injEq, and_true] at h
    exact ⟨a, b, rfl, eq_or_of_toLower h.1 rfl, eq_or_of_toLower h.2 rfl⟩
  | _ :: _ :: _ :: _ => simp at h

theorem keyword_and {k : List Char} (h : k.map Char.toLower = "and".toList) :
    ∃ a b c, k = [a, b, c] ∧ (a = 'a' ∨ a = 'A') ∧ (b = 'n' ∨ b = 'N') ∧ (c = 'd' ∨ c = 'D') := by
  match k with
  | [] => simp at h
  | [_] => simp at h
  | [_, _] => simp at h
  | [a, b, c] =>
    simp only [List.map_cons, List.map_nil, String.reduceToList, List.cons.injEq, and_true] at h
    exact ⟨a, b, c, rfl, eq_or_of_toLower h.1 rfl, eq_or_of_toLower h.2.1 rfl,
      eq_or_of_toLower h.2.2 rfl⟩
  | _ :: _ :: _ :: _ :: _ => simp at h

theorem endsKeyword_gap {b : List Char} (hb : Gap b) (cs : List Char) :
    endsKeyword (b ++ cs).head? = true := by
  obtain ⟨c, b', rfl⟩ := List.exists_cons_of_ne_nil hb.1
  have hc := hb.2 c List.mem_cons_self
  simp [endsKeyword, hc]

/-- What stands at an `or`, from the blanks in front of it on. -/
theorem at_or {b k b' : List Char} (hb : Gap b) (hk : k.map Char.toLower = "or".toList)
    (hb' : Gap b') (cs : List Char) :
    Follows (b ++ (k ++ (b' ++ cs))) ∧
      atOr (Text.skipBlanks (b ++ (k ++ (b' ++ cs)))) = true ∧
      (Text.skipBlanks (b ++ (k ++ (b' ++ cs)))).drop 2 = b' ++ cs := by
  obtain ⟨c, d, rfl, hc, hd⟩ := keyword_or hk
  have hl : isLeading c = true := by rcases hc with rfl | rfl <;> decide
  have hs : Text.skipBlanks ([c, d] ++ (b' ++ cs)) = [c, d] ++ (b' ++ cs) :=
    Text.skipBlanks_cons (isBlank_of_isOpening (isOpening_of_isLeading hl)) _
  refine ⟨follows_gap hb ?_, ?_, ?_⟩
  · rw [hs]
    exact atOperator_of_isLeading hl _
  · rw [Text.skipBlanks_append hb.2, hs]
    exact atOr_iff.mpr ⟨c, d, b' ++ cs, rfl, hc, hd, endsKeyword_gap hb' cs⟩
  · rw [Text.skipBlanks_append hb.2, hs]
    rfl

/-- What stands at a joint: no operator, no `or`, and behind it the next item. -/
theorem Joint.reads {j cs : List Char} (hj : Joint j) (ho : Opens cs) :
    Follows (j ++ cs) ∧ atOr (Text.skipBlanks (j ++ cs)) = false ∧
      ∃ b, Blanks b ∧ skipAnd (Text.skipBlanks (j ++ cs)) = b ++ cs := by
  cases hj with
  | blanks hb =>
    rw [Text.skipBlanks_append hb.2, ho.blank]
    refine ⟨follows_gap hb ?_, ho.or, [], by simp [Blanks], ho.and⟩
    rw [ho.blank, ho.operator]
  | @word b k b' hb hk hb' =>
    obtain ⟨c, d, e, rfl, hc, hd, he⟩ := keyword_and hk
    have hl : isLeading c = true := by rcases hc with rfl | rfl <;> decide
    have hs : Text.skipBlanks ([c, d, e] ++ (b' ++ cs)) = [c, d, e] ++ (b' ++ cs) :=
      Text.skipBlanks_cons (isBlank_of_isOpening (isOpening_of_isLeading hl)) _
    have ha : atAnd ([c, d, e] ++ (b' ++ cs)) = true :=
      atAnd_iff.mpr ⟨c, d, e, b' ++ cs, rfl, hc, hd, he, endsKeyword_gap hb' cs⟩
    have hn : atOr ([c, d, e] ++ (b' ++ cs)) = false := by
      rcases hc with rfl | rfl <;> simp [atOr]
    rw [List.append_assoc, List.append_assoc, Text.skipBlanks_append hb.2, hs]
    refine ⟨follows_gap hb ?_, hn, b', hb'.2, ?_⟩
    · rw [hs]
      exact atOperator_of_isLeading hl _
    · rw [skipAnd, if_pos ha]
      rfl
  | @ampersands b b' hb hb' =>
    have hs : Text.skipBlanks ("&&".toList ++ (b' ++ cs)) = "&&".toList ++ (b' ++ cs) :=
      Text.skipBlanks_cons (by decide) _
    rw [List.append_assoc, List.append_assoc, Text.skipBlanks_append hb.2, hs]
    refine ⟨follows_gap hb ?_, ?_, b', hb'.2, ?_⟩
    · rw [hs]
      rfl
    · exact (not_keyword_of_not_bare (by decide) _).1
    · rw [skipAnd, if_neg]
      · rfl
      · exact Bool.eq_false_iff.mp (not_keyword_of_not_bare (c := '&') (by decide) _).2

theorem SpellsConjuncts.opens {c : Conjuncts} {t rest : List Char} (h : SpellsConjuncts c t)
    (hr : NotBare rest) : Opens (t ++ rest) := by
  cases h with
  | one h => exact h.opens hr
  | more hu hj hc =>
    rw [List.append_assoc, List.append_assoc]
    exact hu.opens (hj.reads (hc.opens hr)).1.edge.notBare

theorem SpellsAlternatives.opens {q : Alternatives} {t rest : List Char}
    (h : SpellsAlternatives q t) (hr : NotBare rest) : Opens (t ++ rest) := by
  cases h with
  | one h => exact h.opens hr
  | @more _ _ t b k b' t' hc hb hk hb' _ =>
    simp only [List.append_assoc]
    exact hc.opens (at_or hb hk hb' (t' ++ rest)).1.edge.notBare

theorem eq_nil_or_cons_of_atClose {cs : List Char} (h : atClose cs = true) :
    cs = [] ∨ ∃ ds, cs = ')' :: ds := by
  cases cs with
  | nil => exact .inl rfl
  | cons c cs =>
    have hc : c = ')' := by simpa [atClose] using h
    exact .inr ⟨cs, by rw [hc]⟩

theorem skipAnd_of_atClose {cs : List Char} (h : atClose cs = true) : skipAnd cs = cs := by
  rcases eq_nil_or_cons_of_atClose h with rfl | ⟨ds, rfl⟩
  · rfl
  · simp [skipAnd, (not_keyword_of_not_bare (c := ')') (by decide) ds).2, atAmpersands]

theorem atOr_of_atClose {cs : List Char} (h : atClose cs = true) : atOr cs = false := by
  rcases eq_nil_or_cons_of_atClose h with rfl | ⟨ds, rfl⟩
  · rfl
  · exact (not_keyword_of_not_bare (by decide) ds).1

theorem skipBlanks_of_atClose {cs : List Char} (h : atClose cs = true) :
    Text.skipBlanks cs = cs := by
  rcases eq_nil_or_cons_of_atClose h with rfl | ⟨ds, rfl⟩
  · rfl
  · exact skipBlanks_close ds

theorem not_atClose_of_opens {cs : List Char} (h : Opens (Text.skipBlanks cs)) :
    ¬atClose cs = true := by
  intro hc
  have hcl := h.close
  cases cs with
  | nil => cases hcl
  | cons c cs =>
    have he : c = ')' := by simpa [atClose] using hc
    subst he
    rw [skipBlanks_close] at hcl
    cases hcl

end FilterQuery.Query
