import FilterQuery.Proofs.Query.Grammar
import FilterQuery.Proofs.Query.ScanLength

/-!
Spelled terms are read back. Each scanner takes exactly the spelling of a field, an operator or
a value, whatever stands after it, as long as that cannot be part of the spelling.
-/
namespace FilterQuery.Query

theorem isBare_range {c : Char} (h : isBare c = true) :
    (48 ≤ c.toNat ∧ c.toNat ≤ 57) ∨ (65 ≤ c.toNat ∧ c.toNat ≤ 90) ∨
      (97 ≤ c.toNat ∧ c.toNat ≤ 122) ∨ c.toNat = 95 ∨ c.toNat = 46 := by
  simp only [isBare, Char.isAlphanum, Char.isAlpha, Char.isUpper, Char.isLower, Char.isDigit,
    Bool.or_eq_true, Bool.and_eq_true, decide_eq_true_eq, beq_iff_eq, ge_iff_le,
    UInt32.le_iff_toNat_le] at h
  rcases h with (((h | h) | h) | rfl) | rfl
  · exact .inr (.inl h)
  · exact .inr (.inr (.inl h))
  · exact .inl h
  · exact .inr (.inr (.inr (.inl rfl)))
  · exact .inr (.inr (.inr (.inr rfl)))

theorem isBlank_of_isBare {c : Char} (h : isBare c = true) : Text.isBlank c = false := by
  have hr := isBare_range h
  apply Text.isBlank_of_printed <;> omega

/-- The characters that may start an item. -/
def isOpening (c : Char) : Bool :=
  isBare c || c == '\\' || c == '"' || c == '!' || c == '(' || c == '|'

theorem isBlank_of_isOpening {c : Char} (h : isOpening c = true) : Text.isBlank c = false := by
  simp only [isOpening, Bool.or_eq_true, beq_iff_eq] at h
  rcases h with ((((h | rfl) | rfl) | rfl) | rfl) | rfl
  · exact isBlank_of_isBare h
  all_goals decide

/-- The characters that start a term: a bare one, a backslash or a quote. -/
def isLeading (c : Char) : Bool := isBare c || c == '\\' || c == '"'

theorem isOpening_of_isLeading {c : Char} (h : isLeading c = true) : isOpening c = true := by
  simp only [isLeading, Bool.or_eq_true] at h
  simp only [isOpening, Bool.or_eq_true]
  tauto

/-- An opening character is no other than these. -/
theorem ne_of_isOpening {c d : Char} (h : isOpening c = true) (hd : isOpening d = false) :
    c ≠ d := by
  rintro rfl
  rw [h] at hd
  cases hd

theorem ne_of_isLeading {c d : Char} (h : isLeading c = true) (hd : isLeading d = false) :
    c ≠ d := by
  rintro rfl
  rw [h] at hd
  cases hd

theorem matchAt_eq_none {c : Char} (h₁ : c ≠ '!') (h₂ : c ≠ '<') (h₃ : c ≠ '>') (h₄ : c ≠ '=')
    (h₅ : c ≠ ':') (next : Option Char) : Operator.matchAt c next = none := by
  fun_cases Operator.matchAt c next <;> simp_all

theorem matchAt_mark {next : Option Char} (h : next ≠ some '=') :
    Operator.matchAt '!' next = none := by
  rw [Operator.matchAt] <;> simp_all

/-- The characters that operators start with. -/
def startsOperator (c : Char) : Bool := c == '=' || c == ':' || c == '<' || c == '>' || c == '!'

theorem atOperator_of_startsOperator {c : Char} (h : startsOperator c = true) (hm : c ≠ '!')
    (cs : List Char) : atOperator (c :: cs) = true := by
  simp only [startsOperator, Bool.or_eq_true, beq_iff_eq] at h
  rcases h with (((rfl | rfl) | rfl) | rfl) | rfl
  · rfl
  · rfl
  · rw [atOperator, Operator.at?, Operator.matchAt.eq_def]
    split <;> simp_all
  · rw [atOperator, Operator.at?, Operator.matchAt.eq_def]
    split <;> simp_all
  · exact absurd rfl hm

theorem atOperator_of_not_startsOperator {c : Char} (h : startsOperator c = false)
    (cs : List Char) : atOperator (c :: cs) = false := by
  simp only [startsOperator, Bool.or_eq_false_iff, beq_eq_false_iff_ne] at h
  obtain ⟨⟨⟨⟨h₁, h₂⟩, h₃⟩, h₄⟩, h₅⟩ := h
  rw [atOperator, Operator.at?, matchAt_eq_none h₅ h₃ h₄ h₁ h₂]
  rfl

theorem inWord_of_not_startsOperator {c : Char} (ho : startsOperator c = false)
    (hb : Text.isBlank c = false) (hc : c ≠ ')') (cs : List Char) : inWord (c :: cs) = true := by
  have hn : c ≠ ':' := by
    rintro rfl
    cases ho
  simp [inWord, hb, hc, hn, atOperator_of_not_startsOperator ho]

theorem startsOperator_of_isLeading {c : Char} (h : isLeading c = true) :
    startsOperator c = false := by
  simp only [startsOperator, Bool.or_eq_false_iff, beq_eq_false_iff_ne]
  refine ⟨⟨⟨⟨?_, ?_⟩, ?_⟩, ?_⟩, ?_⟩ <;> exact ne_of_isLeading h (by decide)

theorem atOperator_of_isLeading {c : Char} (h : isLeading c = true) (cs : List Char) :
    atOperator (c :: cs) = false :=
   atOperator_of_not_startsOperator (startsOperator_of_isLeading h) cs

theorem inWord_of_isLeading {c : Char} (h : isLeading c = true) (cs : List Char) :
    inWord (c :: cs) = true :=
  inWord_of_not_startsOperator (startsOperator_of_isLeading h)
    (isBlank_of_isOpening (isOpening_of_isLeading h)) (ne_of_isLeading h (by decide)) cs

theorem takeEscapedWhile_stop {p : List Char → Bool} {rest : List Char}
    (h : rest = [] ∨ p rest = false) : takeEscapedWhile p rest = ([], rest) := by
  fun_cases takeEscapedWhile p rest <;> simp_all

theorem takeEscapedWhile_marked {p : List Char → Bool} {c : Char} {cs : List Char}
    (h : p ('\\' :: c :: cs) = true) : takeEscapedWhile p ('\\' :: c :: cs) =
      (c :: (takeEscapedWhile p cs).1, (takeEscapedWhile p cs).2) := by
  rw [takeEscapedWhile, if_pos h]

theorem takeEscapedWhile_cons {p : List Char → Bool} {c : Char} {cs : List Char} (hc : c ≠ '\\')
    (h : p (c :: cs) = true) : takeEscapedWhile p (c :: cs) =
      (c :: (takeEscapedWhile p cs).1, (takeEscapedWhile p cs).2) := by
  rw [takeEscapedWhile, if_pos h]
  · simp only [if_neg hc]
  · intro d ds he
    exact absurd he hc

theorem takeEscaped_cons {c : Char} (hc : c ≠ '\\') (cs : List Char) :
    takeEscaped (c :: cs) = ([c], cs) := by
  rw [takeEscaped, if_neg hc]
  intro d ds he
  exact absurd he hc

theorem takeTerm_bare {cs : List Char} (h : cs.head? ≠ some '"') : takeTerm cs =
    (⟨String.ofList (takeWord cs).1, false⟩, (takeWord cs).2) := by
  rw [takeTerm]
  rintro ds rfl
  exact h rfl

theorem takeValue_bare {cs : List Char} (h : (Text.skipBlanks cs).head? ≠ some '"') :
    takeValue cs = (⟨String.ofList (takeEscapedWhile inValue (Text.skipBlanks cs)).1, false⟩,
      (takeEscapedWhile inValue (Text.skipBlanks cs)).2) := by
  rw [takeValue]
  split
  · next ds hs => exact absurd (by rw [hs]; rfl) h
  · rfl

/-- A word is taken to where a character cannot belong to it. -/
theorem takeWord_eq {cs : List Char} (h : (inWord cs && cs.head? != some '!') = true) :
    takeWord cs = takeEscapedWhile (fun cs => inWord cs && cs.head? != some '!') cs := by
  cases cs with
  | nil => cases h
  | cons c cs =>
    by_cases hc : c = '\\'
    · subst hc
      cases cs with
      | nil => rfl
      | cons d cs =>
        rw [takeEscapedWhile_marked h]
        rfl
    · rw [takeWord, takeEscaped_cons hc, takeEscapedWhile_cons hc h]
      rfl

/-- Characters without a backslash are taken whole if `p` stops at none of them. -/
theorem takeEscapedWhile_all {p : List Char → Bool} {s rest : List Char}
    (hs : ∀ c ∈ s, c ≠ '\\' ∧ ∀ cs, p (c :: cs) = true) (hr : rest = [] ∨ p rest = false) :
    takeEscapedWhile p (s ++ rest) = (s, rest) := by
  induction s with
  | nil => exact takeEscapedWhile_stop hr
  | cons c s ih =>
    obtain ⟨hc, hp⟩ := hs c List.mem_cons_self
    rw [List.cons_append, takeEscapedWhile_cons hc (hp _),
      ih fun d hd => hs d (List.mem_cons_of_mem c hd)]

/-- An escaped text is taken whole if `p` does not stop inside it. -/
theorem takeEscapedWhile_escaped {p : List Char → Bool}
    (hp : ∀ c cs, isBare c = true ∨ c = '\\' → p (c :: cs) = true) {s t rest : List Char}
    (h : Escaped s t) (hr : rest = [] ∨ p rest = false) :
    takeEscapedWhile p (t ++ rest) = (s, rest) := by
  induction h with
  | nil => exact takeEscapedWhile_stop hr
  | @bare c s t hc h ih =>
    have hne : c ≠ '\\' := by
      rintro rfl
      cases hc
    rw [List.cons_append, takeEscapedWhile_cons hne (hp c _ (.inl hc)), ih]
  | @marked c s t h ih =>
    rw [List.cons_append, List.cons_append, takeEscapedWhile_marked (hp '\\' _ (.inr rfl)), ih]

theorem takeEscapedWhile_quotedBody (s rest : List Char) :
    takeEscapedWhile (·.head? != some '"') (quotedBody s ++ '"' :: rest) = (s, '"' :: rest) := by
  induction s with
  | nil => exact takeEscapedWhile_stop (.inr rfl)
  | cons c s ih =>
    by_cases hc : c = '"' ∨ c = '\\'
    · have hb : quotedBody (c :: s) = '\\' :: c :: quotedBody s := by simp [quotedBody, hc]
      rw [hb, List.cons_append, List.cons_append, takeEscapedWhile_marked rfl, ih]
    · have hb : quotedBody (c :: s) = c :: quotedBody s := by simp [quotedBody, hc]
      rw [not_or] at hc
      rw [hb, List.cons_append, takeEscapedWhile_cons hc.2 (by simp [hc.1]), ih]

theorem takeQuoted_quotedBody (s rest : List Char) :
    takeQuoted (quotedBody s ++ '"' :: rest) = (s, rest) := by
  rw [takeQuoted, takeEscapedWhile_quotedBody]
  rfl

/-- Where a spelling outside quotes starts. -/
theorem Escaped.exists_cons {s t : List Char} (h : Escaped s t) (hne : t ≠ []) :
    ∃ c t', t = c :: t' ∧ (isBare c = true ∨ c = '\\') := by
  cases h with
  | nil => exact absurd rfl hne
  | bare hc _ => exact ⟨_, _, rfl, .inl hc⟩
  | marked _ => exact ⟨_, _, rfl, .inr rfl⟩

theorem escaped_of_isBare {s : List Char} (h : ∀ c ∈ s, isBare c = true) : Escaped s s := by
  induction s with
  | nil => exact .nil
  | cons c s ih =>
    exact .bare (h c List.mem_cons_self) (ih fun d hd => h d (List.mem_cons_of_mem c hd))

/-- A text of bare characters may stand for itself, unless it is a keyword. -/
theorem plain_of_isBare {s : String} (h : ∀ c ∈ s.toList, isBare c = true) (hne : s.toList ≠ [])
    (ho : s.toList.map Char.toLower ≠ "or".toList)
    (ha : s.toList.map Char.toLower ≠ "and".toList) : Plain s s.toList :=
  ⟨escaped_of_isBare h, hne, ho, ha⟩

theorem isLeading_of_isBare_or {c : Char} (h : isBare c = true ∨ c = '\\') :
    isLeading c = true := by
  rcases h with h | rfl
  · simp [isLeading, h]
  · rfl

/-- What may stand after a spelling outside quotes: neither a word's next character nor a bare
exclamation mark. -/
def EndsWord (rest : List Char) : Prop :=
  rest = [] ∨ (inWord rest && rest.head? != some '!') = false

theorem inWord_of_isBare_or {c : Char} (h : isBare c = true ∨ c = '\\') (cs : List Char) :
    (inWord (c :: cs) && (c :: cs).head? != some '!') = true := by
  have hl := isLeading_of_isBare_or h
  have hne : c ≠ '!' := ne_of_isLeading hl (by decide)
  simp [inWord_of_isLeading hl, hne]

theorem takeWord_escaped {s t rest : List Char} (h : Escaped s t) (hne : t ≠ [])
    (hr : EndsWord rest) : takeWord (t ++ rest) = (s, rest) := by
  obtain ⟨c, t', rfl, hc⟩ := h.exists_cons hne
  rw [List.cons_append, takeWord_eq (inWord_of_isBare_or hc _), ← List.cons_append]
  exact takeEscapedWhile_escaped (fun c cs hc => inWord_of_isBare_or hc cs) h hr

theorem takeTerm_quotedText (s : String) (rest : List Char) :
    takeTerm (quotedText s ++ rest) = (⟨s, true⟩, rest) := by
  rw [quotedText, List.cons_append, List.append_assoc, List.singleton_append, takeTerm,
    takeQuoted_quotedBody]
  simp

theorem takeTerm_plain {s : String} {t rest : List Char} (h : Plain s t) (hr : EndsWord rest) :
    takeTerm (t ++ rest) = (⟨s, false⟩, rest) := by
  have hw := takeWord_escaped h.escaped h.ne_nil hr
  obtain ⟨c, t', rfl, hc⟩ := h.escaped.exists_cons h.ne_nil
  have hne : c ≠ '"' := by
    rintro rfl
    revert hc
    decide
  rw [takeTerm_bare (by simpa using hne), hw, String.ofList_toList]

/-- What a field is read as; it is exact between quotes. -/
theorem FieldSpelling.takeTerm {field : String} {t rest : List Char}
    (h : FieldSpelling field t) (hr : EndsWord rest) :
    ∃ exact, takeTerm (t ++ rest) = (⟨field, exact⟩, rest) := by
  cases h with
  | quoted => exact ⟨true, takeTerm_quotedText field rest⟩
  | plain h => exact ⟨false, takeTerm_plain h hr⟩

theorem FieldSpelling.exists_cons {field : String} {t : List Char} (h : FieldSpelling field t) :
    ∃ c t', t = c :: t' ∧ isLeading c = true := by
  cases h with
  | quoted => exact ⟨'"', _, rfl, rfl⟩
  | plain h =>
    obtain ⟨c, t', ht, hc⟩ := h.escaped.exists_cons h.ne_nil
    exact ⟨c, t', ht, isLeading_of_isBare_or hc⟩

/-- Where a value outside quotes ends: at the end, a blank or a closing bracket. -/
def AtEdge (rest : List Char) : Prop := rest = [] ∨ inValue rest = false

theorem takeValue_blanks {b : List Char} (hb : Blanks b) (cs : List Char) :
    takeValue (b ++ cs) = takeValue cs := by
  rw [takeValue, takeValue, Text.skipBlanks_append hb]

theorem takeValue_quotedText (s : String) (rest : List Char) :
    takeValue (quotedText s ++ rest) = (⟨s, true⟩, rest) := by
  have hq : Text.isBlank '"' = false := by decide
  rw [quotedText, List.cons_append, List.append_assoc, List.singleton_append, takeValue,
    Text.skipBlanks_cons hq]
  simp [takeQuoted_quotedBody]

/-- A value outside quotes, from a character on that is neither blank nor a quote. -/
theorem takeValue_cons {c : Char} (hb : Text.isBlank c = false) (hq : c ≠ '"') (cs : List Char) :
    takeValue (c :: cs) =
      (⟨String.ofList (takeEscapedWhile inValue (c :: cs)).1, false⟩,
        (takeEscapedWhile inValue (c :: cs)).2) := by
  have hs := Text.skipBlanks_cons hb cs
  rw [takeValue_bare (by rw [hs]; simpa using hq), hs]

theorem inValue_of_isBare_or {c : Char} (h : isBare c = true ∨ c = '\\') (cs : List Char) :
    inValue (c :: cs) = true := by
  have hl := isLeading_of_isBare_or h
  have hne : c ≠ ')' := ne_of_isLeading hl (by decide)
  simp [inValue, hne, isBlank_of_isOpening (isOpening_of_isLeading hl)]

/-- The term that the spelling of an operand is read as. -/
theorem OperandSpelling.takeValue {operand : Operand} {t rest : List Char}
    (h : OperandSpelling operand t) (hr : AtEdge rest) :
    ∃ term, takeValue (t ++ rest) = (term, rest) ∧
      ∀ r, operandValue r term = operand.value r := by
  cases h with
  | quoted s => exact ⟨_, takeValue_quotedText s rest, fun r => rfl⟩
  | @plain s t h hs =>
    have hw := takeEscapedWhile_escaped (fun c cs hc => inValue_of_isBare_or hc cs) h.escaped hr
    obtain ⟨c, t', rfl, hc⟩ := h.escaped.exists_cons h.ne_nil
    have hl := isLeading_of_isBare_or hc
    have hq : c ≠ '"' := by
      rintro rfl
      revert hc
      decide
    rw [List.cons_append] at hw ⊢
    rw [takeValue_cons (isBlank_of_isOpening (isOpening_of_isLeading hl)) hq, hw]
    refine ⟨_, rfl, fun r => ?_⟩
    simp [operandValue, nullSign, hs, Operand.value]
  | missing =>
    have hw : takeEscapedWhile inValue ('-' :: rest) = (['-'], rest) := by
      rw [takeEscapedWhile]
      · rw [takeEscapedWhile_stop hr]
        rfl
      · intro d ds he
        cases he
    rw [List.singleton_append, takeValue_cons (by decide) (by decide), hw]
    exact ⟨_, rfl, fun r => rfl⟩

/-- The operator that a spelling starts with, if what follows cannot extend it. -/
theorem at?_operatorText {op : Operator} {o : String} (ho : o ∈ operatorTexts op) {cs : List Char}
    (h₁ : cs.head? ≠ some '=') (h₂ : cs.head? ≠ some '>') :
    Operator.at? (o.toList ++ cs) = some (op, o.toList.length) := by
  cases op <;> simp only [operatorTexts, List.mem_cons, List.not_mem_nil, or_false] at ho
  case equal => rcases ho with rfl | rfl <;> rfl
  case notEqual => rcases ho with rfl | rfl <;> rfl
  case greaterOrEqual => subst ho; rfl
  case lessOrEqual => subst ho; rfl
  case greaterThan =>
    subst ho
    show Operator.matchAt '>' cs.head? = _
    rw [Operator.matchAt]
    · rfl
    · exact h₁
  case lessThan =>
    subst ho
    show Operator.matchAt '<' cs.head? = _
    rw [Operator.matchAt]
    · rfl
    · exact h₂
    · exact h₁

/-- A letter and its lower case differ by 32. -/
theorem eq_or_of_toLower {c d u : Char} (h : c.toLower = d) (hu : u.toNat + 32 = d.toNat) :
    c = d ∨ c = u := by
  rw [Char.toLower] at h
  split at h
  · next hc =>
    right
    have hv : c.toNat + 32 = d.toNat := by
      rw [← h]
      have h₁ := UInt32.le_iff_toNat_le.mp hc.2
      have h₂ : ('Z').val.toNat = 90 := rfl
      have h₃ : (c.val + ('a'.val - 'A'.val)).toNat = (c.val.toNat + 32) % 4294967296 :=
        UInt32.toNat_add _ _
      show c.val.toNat + 32 = (c.val + ('a'.val - 'A'.val)).toNat
      omega
    exact Char.toNat_inj.mp (by omega)
  · exact .inl h

/-- What follows a spelling outside quotes starts with no bare character. -/
def NotBare (rest : List Char) : Prop := ∀ c ∈ rest.head?, isBare c = false

theorem endsKeyword_of_isBare_or {c : Char} (h : isBare c = true ∨ c = '\\') :
    endsKeyword (some c) = false := by
  have hl := isLeading_of_isBare_or h
  have hq : c ≠ '"' := by
    rintro rfl
    revert h
    decide
  have h₁ : c ≠ '(' := ne_of_isLeading hl (by decide)
  have h₂ : c ≠ ')' := ne_of_isLeading hl (by decide)
  have h₃ : c ≠ '!' := ne_of_isLeading hl (by decide)
  have h₄ : c ≠ '|' := ne_of_isLeading hl (by decide)
  simp [endsKeyword, hq, h₁, h₂, h₃, h₄, isBlank_of_isOpening (isOpening_of_isLeading hl)]

/-- If a text outside quotes starts with letters that end like a keyword, it is those letters. -/
theorem Escaped.eq_of_append {s t rest k tail : List Char} (h : Escaped s t) (hr : NotBare rest)
    (he : t ++ rest = k ++ tail) (hk : ∀ c ∈ k, isBare c = true)
    (ht : endsKeyword tail.head? = true) : t = k := by
  induction k generalizing s t with
  | nil =>
    by_cases hne : t = []
    · exact hne
    · obtain ⟨c, t', rfl, hc⟩ := h.exists_cons hne
      rw [List.nil_append] at he
      rw [← he, List.cons_append, List.head?_cons, endsKeyword_of_isBare_or hc] at ht
      cases ht
  | cons c k ih =>
    have hc := hk c List.mem_cons_self
    have hk' : ∀ d ∈ k, isBare d = true := fun d hd => hk d (List.mem_cons_of_mem c hd)
    cases h with
    | nil =>
      rw [List.nil_append] at he
      have hb := hr c (by simp [he])
      rw [hc] at hb
      cases hb
    | bare _ h =>
      obtain ⟨rfl, he'⟩ := List.cons.inj he
      rw [ih h he' hk']
    | marked h =>
      have hm := (List.cons.inj he).1
      subst hm
      cases hc

theorem atOr_iff {cs : List Char} :
    atOr cs = true ↔ ∃ a b tail, cs = a :: b :: tail ∧ (a = 'o' ∨ a = 'O') ∧
      (b = 'r' ∨ b = 'R') ∧ endsKeyword tail.head? = true := by
  fun_cases atOr cs with
  | case1 a b tail => simp [and_assoc]
  | case2 cs hc =>
    simp only [Bool.false_eq_true, false_iff]
    rintro ⟨a, b, tail, rfl, -⟩
    exact hc a b tail rfl

theorem atAnd_iff {cs : List Char} :
    atAnd cs = true ↔ ∃ a b c tail, cs = a :: b :: c :: tail ∧ (a = 'a' ∨ a = 'A') ∧
      (b = 'n' ∨ b = 'N') ∧ (c = 'd' ∨ c = 'D') ∧ endsKeyword tail.head? = true := by
  fun_cases atAnd cs with
  | case1 a b c tail => simp [and_assoc]
  | case2 cs hc =>
    simp only [Bool.false_eq_true, false_iff]
    rintro ⟨a, b, c, tail, rfl, -⟩
    exact hc a b c tail rfl

theorem Plain.not_atOr {s : String} {t rest : List Char} (h : Plain s t) (hr : NotBare rest) :
    atOr (t ++ rest) = false := by
  rw [← Bool.not_eq_true, atOr_iff]
  rintro ⟨a, b, tail, he, ha, hb, ht⟩
  have hk : ∀ c ∈ [a, b], isBare c = true := by
    rcases ha with rfl | rfl <;> rcases hb with rfl | rfl <;> simp [isBare]
  have hc := h.escaped.eq_of_append hr (k := [a, b]) he hk ht
  apply h.ne_or
  rw [hc]
  rcases ha with rfl | rfl <;> rcases hb with rfl | rfl <;> simp

theorem Plain.not_atAnd {s : String} {t rest : List Char} (h : Plain s t) (hr : NotBare rest) :
    atAnd (t ++ rest) = false := by
  rw [← Bool.not_eq_true, atAnd_iff]
  rintro ⟨a, b, c, tail, he, ha, hb, hc, ht⟩
  have hk : ∀ d ∈ [a, b, c], isBare d = true := by
    rcases ha with rfl | rfl <;> rcases hb with rfl | rfl <;> rcases hc with rfl | rfl <;>
      simp [isBare]
  have hk' := h.escaped.eq_of_append hr (k := [a, b, c]) he hk ht
  apply h.ne_and
  rw [hk']
  rcases ha with rfl | rfl <;> rcases hb with rfl | rfl <;> rcases hc with rfl | rfl <;> simp

end FilterQuery.Query
