import FilterQuery.Json.Printer
import FilterQuery.Json.Scanner
import FilterQuery.Proofs.Number.Digits

/-!
Tokens are read back from their text. A string is read one character at a time, escaped or not,
and an integer up to the first character that cannot continue it. Every other token ends by
itself.
-/
namespace FilterQuery

/-- An integer that has 64 bits, with or without a sign. -/
def Numeral.IsWord : Numeral → Prop
  | .integer i => Int64.minValue.toInt ≤ i ∧ i < UInt64.size
  | .real _ => False

namespace Json

/-- The ways to write a character between quotes: as it is, or with one of the escapes. -/
inductive Writes (c : Char) : List Char → Prop where
  | plain (hquote : c ≠ '"') (hslash : c ≠ '\\') (hcontrol : ¬c.toNat < 0x20) : Writes c [c]
  | short {e : Char} (h : escapeUnit? e = some c.toNat) : Writes c ['\\', e]
  | numbered {x y z w : Char} (h : hexValue? [x, y, z, w] = some c.toNat) :
      Writes c ['\\', 'u', x, y, z, w]

theorem hexValue?_control : ∀ n < 0x20,
    hexValue? ['0', '0', Nat.digitChar (n / 16), Nat.digitChar (n % 16)] = some n := by
  decide

theorem writes_escapedChar (c : Char) : Writes c (escapedChar c) := by
  rw [escapedChar]
  split
  · next h =>
    apply Writes.short
    rcases h with rfl | rfl <;> rfl
  · next hspecial =>
    rw [not_or] at hspecial
    split
    · next h => exact .short (congrArg some h.symm)
    split
    · next h =>
      subst h
      exact .short rfl
    split
    · next h =>
      subst h
      exact .short rfl
    split
    · next h => exact .short (congrArg some h.symm)
    split
    · next h =>
      subst h
      exact .short rfl
    split
    · next h => exact .numbered (hexValue?_control _ h)
    · next h => exact .plain hspecial.1 hspecial.2 h

/-- A written character is read as its code point. -/
theorem scanUnits_append {c : Char} {w : List Char} (h : Writes c w) (cs : List Char) :
    scanUnits (w ++ cs) = (scanUnits cs).map fun (us, rest) => (c.toNat :: us, rest) := by
  cases h with
  | plain hquote hslash hcontrol =>
    rw [List.singleton_append, scanUnits, if_neg hcontrol]
    · intro hc
      exact absurd hc hslash
    · exact hquote
    · intro _ _ _ _ _ hc
      exact absurd hc hslash
    · intro _ _ hc
      exact absurd hc hslash
  | @short e h =>
    rw [List.cons_append, List.singleton_append, scanUnits, h]
    · cases scanUnits cs <;> rfl
    · rintro _ _ _ _ _ rfl
      cases h
  | numbered h =>
    simp only [List.cons_append, List.nil_append]
    rw [scanUnits, h]
    cases scanUnits cs <;> rfl

theorem scanUnits_escaped (cs rest : List Char) :
    scanUnits (cs.flatMap escapedChar ++ '"' :: rest) = some (cs.map Char.toNat, rest) := by
  induction cs with
  | nil => rfl
  | cons c cs ih =>
    rw [List.flatMap_cons, List.append_assoc, scanUnits_append (writes_escapedChar c), ih]
    rfl

/-- No character is half of a pair. -/
theorem not_isHalf (c : Char) : isHighHalf c.toNat = false ∧ isLowHalf c.toNat = false := by
  have hvalid : c.toNat < 0xD800 ∨ 0xDFFF < c.toNat := by
    rcases c.valid with h | h
    · exact .inl h
    · exact .inr h.1
  simp only [isHighHalf, isLowHalf, Bool.and_eq_false_iff, decide_eq_false_iff_not]
  omega

theorem joinUnits_map (cs : List Char) : joinUnits (cs.map Char.toNat) = some cs := by
  induction cs with
  | nil => rfl
  | cons c cs ih =>
    obtain ⟨hhigh, hlow⟩ := not_isHalf c
    cases cs with
    | nil => simp [joinUnits, hhigh, hlow]
    | cons d cs =>
      rw [List.map_cons] at ih
      rw [List.map_cons, List.map_cons, joinUnits, hhigh, hlow, if_neg Bool.false_ne_true, if_neg Bool.false_ne_true, ih]
      simp

/-- A text starts escaped if one of its characters needs an escape. -/
theorem startsEscaped_escaped (cs rest : List Char) :
    startsEscaped (cs.flatMap escapedChar ++ '"' :: rest) =
      cs.any fun c => escapedChar c != [c] := by
  have hslash (w : List Char) : startsEscaped ('\\' :: w) = true := by simp [startsEscaped]
  induction cs with
  | nil => rfl
  | cons c cs ih =>
    have hwrites := writes_escapedChar c
    rw [List.flatMap_cons, List.append_assoc, List.any_cons, ← ih]
    generalize escapedChar c = w at hwrites ⊢
    generalize cs.flatMap escapedChar ++ '"' :: rest = after
    cases hwrites with
    | plain hquote hslash hcontrol =>
      have hc : '\\' ≠ c := Ne.symm hslash
      simp [startsEscaped, hquote, hc]
    | short h => simp [hslash]
    | numbered h => simp [hslash]

/-- No number but zero starts with a zero. -/
theorem head?_write {n : Nat} (h : n ≠ 0) : (Digits.write n).head? ≠ some '0' := by
  have hdigit : ∀ m < 10, m ≠ 0 → Nat.digitChar m ≠ '0' := by decide
  induction n using Nat.strong_induction_on with
  | _ n ih =>
    rw [Digits.write, Nat.toDigits_eq_if (by omega)]
    split
    · next hn => simpa using hdigit n hn h
    · next hn =>
      have hfront := ih (n / 10) (by omega) (by omega)
      rw [Digits.write] at hfront
      rwa [List.head?_append_of_ne_nil _ Nat.toDigits_ne_nil]

/-- A text that does not continue the number in front of it. -/
def EndsNumber (rest : List Char) : Prop :=
  ∀ c ∈ rest.head?, c.isDigit = false ∧ c ≠ '.' ∧ c ≠ 'e' ∧ c ≠ 'E'

theorem endsNumber_cons {c : Char} (h : c.isDigit = false ∧ c ≠ '.' ∧ c ≠ 'e' ∧ c ≠ 'E')
    (cs : List Char) : EndsNumber (c :: cs) := by
  rintro _ ⟨rfl⟩
  exact h

variable {rest : List Char}

theorem takeWhole?_write (n : Nat) (h : EndsNumber rest) :
    takeWhole? (Digits.write n ++ rest) = some (Digits.write n, rest) := by
  by_cases hn : n = 0
  · subst hn
    rfl
  · have hall : ∀ c ∈ Digits.write n, c.isDigit = true := fun c hc =>
      Digits.isDigit_of_mem_write hc
    have hstop : rest.takeWhile Char.isDigit = [] ∧ rest.dropWhile Char.isDigit = rest := by
      cases rest with
      | nil => simp
      | cons c rest => simp [(h c rfl).1]
    have hhead := head?_write hn
    have hne := Digits.write_ne_nil n
    rw [takeWhole?, List.takeWhile_append_of_pos hall, List.dropWhile_append_of_pos hall,
      hstop.1, hstop.2, List.append_nil, if_neg hne]
    intro cs hcs
    rw [← List.head?_append_of_ne_nil _ hne, hcs] at hhead
    exact hhead rfl

theorem takeFraction?_none (h : EndsNumber rest) : takeFraction? rest = some (none, rest) := by
  rw [takeFraction?]
  rintro cs rfl
  exact (h '.' rfl).2.1 rfl

theorem takeExponent?_none (h : EndsNumber rest) : takeExponent? rest = some (none, rest) := by
  cases rest with
  | nil => rfl
  | cons c rest =>
    have hc := (h c rfl).2.2
    rw [takeExponent?, if_neg (by simpa using hc)]

theorem takeNumber?_writeInt (i : Int) (h : EndsNumber rest) :
    takeNumber? (Digits.writeInt i ++ rest) =
      some (⟨decide (i < 0), Digits.write i.natAbs, none, none⟩, rest) := by
  rw [Digits.writeInt]
  split
  · next hi =>
    rw [List.cons_append, takeNumber?]
    simp [takeWhole?_write _ h, takeFraction?_none h, takeExponent?_none h, hi]
  · next hi =>
    rw [takeNumber?]
    · simp [takeWhole?_write _ h, takeFraction?_none h, takeExponent?_none h, hi]
    · intro cs hcs
      have hhead : (Digits.write i.natAbs).head? = some '-' := by
        rw [← List.head?_append_of_ne_nil _ (Digits.write_ne_nil _), hcs]
        rfl
      have hdigit := Digits.isDigit_of_mem_write (List.mem_of_head? hhead)
      cases hdigit

theorem numeral?_writeInt {i : Int} (h : (Numeral.integer i).IsWord) :
    NumberText.numeral? ⟨decide (i < 0), Digits.write i.natAbs, none, none⟩ =
      some (.integer i) := by
  obtain ⟨hmin, hmax⟩ := h
  have hvalue : Digits.applySign (decide (i < 0)) (Digits.value (Digits.write i.natAbs)) = i := by
    rw [Digits.value_write, Digits.applySign_natAbs]
  have hfits : (if decide (i < 0) then decide (Int64.minValue.toInt ≤ i) && decide (i < 0)
      else decide (i < UInt64.size)) = true := by
    by_cases hi : i < 0
    · rw [decide_eq_true hi, if_pos rfl, decide_eq_true hmin]
      rfl
    · rw [decide_eq_false hi, if_neg Bool.false_ne_true, decide_eq_true hmax]
  simp only [NumberText.numeral?, hvalue]
  rw [if_pos ⟨trivial, trivial, hfits⟩]

/-- A token that its text keeps: no double, and nothing that denotes nothing. -/
def Token.IsPlain : Token → Prop
  | .number n => n.IsWord
  | .string s escaped => escaped = hasEscapes s
  | .unreadableNumber => False
  | .unreadableString => False
  | _ => True

theorem scan_space {c : Char} (h : isSpace c = true) (cs : List Char) :
    scan (c :: cs) = scan cs := by
  rw [scan, if_pos h]

theorem scan_of_takeToken? {c : Char} {cs : List Char} {t : Token} (hc : isSpace c = false)
    (h : takeToken? (c :: cs) = some (t, rest)) (hl : rest.length ≤ cs.length) :
    scan (c :: cs) = (scan rest).map (t :: ·) := by
  rw [scan, hc, if_neg Bool.false_ne_true, h]
  simp [hl]

theorem scan_writeString (s : String) (rest : List Char) :
    scan (writeString s ++ rest) = (scan rest).map (.ofText s :: ·) := by
  have htake : takeToken? ('"' :: (s.toList.flatMap escapedChar ++ '"' :: rest)) =
      some (.ofText s, rest) := by
    have hunits := scanUnits_escaped s.toList rest
    have hescaped := startsEscaped_escaped s.toList rest
    simp [takeToken?, hunits, hescaped, joinUnits_map, Token.ofText, hasEscapes]
  have htext : writeString s ++ rest = '"' :: (s.toList.flatMap escapedChar ++ '"' :: rest) := by
    simp [writeString]
  rw [htext]
  exact scan_of_takeToken? rfl htake (by simp; omega)

/-- What a sign or a digit starts is a number. -/
theorem takeToken?_number {c : Char} (h : c = '-' ∨ c.isDigit = true) (cs : List Char) :
    isSpace c = false ∧ takeToken? (c :: cs) = (takeNumber? (c :: cs)).map fun (t, rest) =>
      ((t.numeral?.map Token.number).getD .unreadableNumber, rest) := by
  have hr : c.toNat = 45 ∨ (48 ≤ c.toNat ∧ c.toNat ≤ 57) := by
    rcases h with rfl | h
    · exact .inl rfl
    · exact .inr (by simpa [Char.isDigit, UInt32.le_iff_toNat_le] using h)
  have hne (d : Char) (hd : d.toNat < 45 ∨ d.toNat = 46 ∨ d.toNat = 47 ∨ 57 < d.toNat) : c ≠ d := by
    rintro rfl
    omega
  refine ⟨?_, ?_⟩
  · simp [isSpace, hne ' ' (by decide), hne '\n' (by decide), hne '\t' (by decide),
      hne '\r' (by decide)]
  · rw [takeToken?, if_neg (hne '[' (by decide)), if_neg (hne ']' (by decide)), if_neg (by omega),
      if_neg (by omega), if_neg (hne ',' (by decide)), if_neg (hne ':' (by decide)),
      if_neg (hne 'n' (by decide)), if_neg (hne 't' (by decide)), if_neg (hne 'f' (by decide)),
      if_neg (hne '"' (by decide))]

theorem writeInt_eq_cons (i : Int) :
    ∃ c cs, Digits.writeInt i = c :: cs ∧ (c = '-' ∨ c.isDigit = true) := by
  rw [Digits.writeInt]
  split
  · exact ⟨'-', _, rfl, .inl rfl⟩
  · obtain ⟨c, cs, hcs⟩ := List.exists_cons_of_ne_nil (Digits.write_ne_nil i.natAbs)
    have hc : c ∈ Digits.write i.natAbs := by simp [hcs]
    exact ⟨c, cs, hcs, .inr (Digits.isDigit_of_mem_write hc)⟩

theorem scan_writeInt {i : Int} (hi : (Numeral.integer i).IsWord) (h : EndsNumber rest) :
    scan (Digits.writeInt i ++ rest) = (scan rest).map (.number (.integer i) :: ·) := by
  have hnumber := takeNumber?_writeInt i h
  obtain ⟨c, cs, hcs, hc⟩ := writeInt_eq_cons i
  rw [hcs, List.cons_append] at hnumber ⊢
  obtain ⟨hspace, htake⟩ := takeToken?_number hc (cs ++ rest)
  apply scan_of_takeToken? hspace
  · rw [htake, hnumber]
    simp only [Option.map_some, numeral?_writeInt hi, Option.getD_some]
  · simp

/-- A token is read back from its text. Only a number has to end in front of the rest. -/
theorem scan_write {t : Token} (ht : t.IsPlain) (h : ∀ n, t = .number n → EndsNumber rest) :
    scan (t.write ++ rest) = (scan rest).map (t :: ·) := by
  cases t with
  | number n =>
    cases n with
    | integer i => exact scan_writeInt ht (h _ rfl)
    | real x => exact absurd ht id
  | string s escaped =>
    obtain rfl : escaped = hasEscapes s := ht
    exact scan_writeString s rest
  | unreadableNumber => exact absurd ht id
  | unreadableString => exact absurd ht id
  | bool b =>
    cases b
    · exact scan_of_takeToken? rfl rfl (by simp; omega)
    · exact scan_of_takeToken? rfl rfl (by simp; omega)
  | null => exact scan_of_takeToken? rfl rfl (by simp; omega)
  | _ => exact scan_of_takeToken? rfl rfl (Nat.le_refl _)

end Json

end FilterQuery
