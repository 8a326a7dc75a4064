import FilterQuery.Calendar.Format
import FilterQuery.Proofs.Number.Digits

/-!
Dates and times are read back from their text. Each item of a format takes what is written for its
part and leaves what follows. So the first format for dates takes every date that is written, and
the internet format every time in a year of four digits.
-/
namespace FilterQuery

namespace Calendar

/-- A number ends where its width does, or in front of a character that is no digit. -/
theorem takeNumber?_append {width : Nat} {ds rest : List Char} (hne : ds ≠ [])
    (hds : ∀ c ∈ ds, c.isDigit = true) (hw : ds.length ≤ width)
    (hrest : ds.length = width ∨ ∀ c ∈ rest.head?, c.isDigit = false) :
    takeNumber? width (ds ++ rest) = some (Digits.value ds, rest) := by
  have hstop : (rest.take (width - ds.length)).takeWhile Char.isDigit = [] := by
    rcases hrest with hl | hrest
    · rw [hl, Nat.sub_self, List.take_zero, List.takeWhile_nil]
    · cases rest with
      | nil => simp
      | cons c rest =>
        cases width - ds.length with
        | zero => rfl
        | succ k =>
          rw [List.take_succ_cons]
          exact List.takeWhile_cons_of_neg (by simp [hrest c rfl])
  have htake : ((ds ++ rest).take width).takeWhile Char.isDigit = ds := by
    rw [List.take_append, List.take_of_length_le hw, List.takeWhile_append_of_pos hds, hstop,
      List.append_nil]
  rw [takeNumber?, htake, Digits.read?_of_isDigit hne hds, List.drop_left]
  rfl

theorem skipBlanks_digits {ds : List Char} (hne : ds ≠ []) (hds : ∀ c ∈ ds, c.isDigit = true)
    (rest : List Char) : Text.skipBlanks (ds ++ rest) = ds ++ rest := by
  cases ds with
  | nil => exact absurd rfl hne
  | cons d ds => exact Text.skipBlanks_cons (Text.isBlank_of_isDigit (hds d List.mem_cons_self)) _

theorem not_isBlank_of_mem_marked {mark : Char} (h : Text.isBlank mark = false) (width n : Nat) :
    ∀ c ∈ mark :: Digits.padded width n, Text.isBlank c = false :=
  List.forall_mem_cons.mpr ⟨h, Digits.not_isBlank_of_mem_padded width n⟩

theorem takeLoose?_digits (part : Part) {ds rest : List Char} (hne : ds ≠ [])
    (hds : ∀ c ∈ ds, c.isDigit = true) (hl : ds.length = part.width) :
    takeLoose? part (ds ++ rest) = some ((Digits.value ds : Int), rest) := by
  have hsigned : ¬(part = .year ∧
      ((ds ++ rest).head? = some '-' ∨ (ds ++ rest).head? = some '+')) := by
    rintro ⟨-, h⟩
    cases ds with
    | nil => exact hne rfl
    | cons d ds =>
      have hd := hds d List.mem_cons_self
      rcases h with h | h <;> cases h <;> cases hd
  rw [takeLoose?, skipBlanks_digits hne hds, if_neg hsigned,
    takeNumber?_append hne hds hl.le (.inl hl)]
  rfl

/-- A year with a sign has all the digits that follow. -/
theorem takeLoose?_signed (negative : Bool) {ds rest : List Char} (hne : ds ≠ [])
    (hds : ∀ c ∈ ds, c.isDigit = true) (hrest : ∀ c ∈ rest.head?, c.isDigit = false) :
    takeLoose? .year ((if negative then '-' else '+') :: ds ++ rest) =
      some (Digits.applySign negative (Digits.value ds), rest) := by
  have hnumber : takeNumber? (ds ++ rest).length (ds ++ rest) = some (Digits.value ds, rest) :=
    takeNumber?_append hne hds (by simp) (.inr hrest)
  cases negative with
  | false =>
    have hskip : Text.skipBlanks ('+' :: ds ++ rest) = '+' :: ds ++ rest :=
      Text.skipBlanks_cons (by decide) _
    rw [takeLoose?, if_neg Bool.false_ne_true, hskip, if_pos ⟨rfl, .inr rfl⟩, List.cons_append,
      Digits.splitSign]
    simp only [hnumber, Option.map_some]
  | true =>
    have hskip : Text.skipBlanks ('-' :: ds ++ rest) = '-' :: ds ++ rest :=
      Text.skipBlanks_cons (by decide) _
    rw [takeLoose?, if_pos rfl, hskip, if_pos ⟨rfl, .inl rfl⟩, List.cons_append, Digits.splitSign]
    simp only [hnumber, Option.map_some]

theorem takeExact?_digits (part : Part) {ds rest : List Char} (hne : ds ≠ [])
    (hds : ∀ c ∈ ds, c.isDigit = true) (hl : ds.length = part.width) :
    takeExact? part (ds ++ rest) = some ((Digits.value ds : Int), rest) := by
  rw [takeExact?, ← hl, List.take_left, List.drop_left]
  simp [Digits.read?_of_isDigit hne hds]

variable (items : List Item) (r : Reading)

theorem takeItems?_literal (c : Char) (rest : List Char) :
    takeItems? (.literal c :: items) r (c :: rest) = takeItems? items r rest := by
  rw [takeItems?, Item.take?, List.head?_cons, if_pos rfl]
  rfl

theorem takeItems?_separator (rest : List Char) :
    takeItems? (.separator :: items) r ('T' :: rest) = takeItems? items r rest := rfl

theorem takeItems?_loose (part : Part) (width : Nat) (hw : part.width = width) {n : Nat}
    (h : n < 10 ^ width) (rest : List Char) :
    takeItems? (.loose part :: items) r (Digits.padded width n ++ rest) =
      takeItems? items (r.set part n) rest := by
  subst hw
  have hw : 0 < part.width := by cases part <;> decide
  rw [takeItems?, Item.take?, takeLoose?_digits part (Digits.padded_ne_nil _ n)
    (fun c hc => Digits.isDigit_of_mem_padded hc) (Digits.length_padded hw h), Digits.value_padded]
  rfl

theorem takeItems?_exact (part : Part) (width : Nat) (hw : part.width = width) {n : Nat}
    (h : n < 10 ^ width) (rest : List Char) :
    takeItems? (.exact part :: items) r (Digits.padded width n ++ rest) =
      takeItems? items (r.set part n) rest := by
  subst hw
  have hw : 0 < part.width := by cases part <;> decide
  rw [takeItems?, Item.take?, takeExact?_digits part (Digits.padded_ne_nil _ n)
    (fun c hc => Digits.isDigit_of_mem_padded hc) (Digits.length_padded hw h), Digits.value_padded]
  rfl

/-- A year is read with its sign, if it is written with one. -/
theorem takeItems?_year (y : Int) {rest : List Char} (h : ∀ c ∈ rest.head?, c.isDigit = false) :
    takeItems? (.loose .year :: items) r (Date.writeYear y ++ rest) =
      takeItems? items (r.set .year y) rest := by
  rw [Date.writeYear]
  split
  · next hy =>
    have hn : ((y.natAbs : Nat) : Int) = y := by omega
    rw [takeItems?_loose items r .year 4 rfl (by omega), hn]
  · next hy =>
    have hn : Digits.applySign (decide (y < 0)) (Digits.value (Digits.padded 4 y.natAbs)) = y := by
      rw [Digits.value_padded, Digits.applySign_natAbs]
    have htake := takeLoose?_signed (decide (y < 0)) (Digits.padded_ne_nil 4 y.natAbs)
      (fun c hc => Digits.isDigit_of_mem_padded hc) h
    rw [hn] at htake
    simp only [decide_eq_true_eq] at htake
    rw [takeItems?, Item.take?, htake]
    rfl

theorem takeFraction?_padded {width n : Nat} (hw : 0 < width) (h9 : width ≤ 9) (hn : n < 10 ^ width)
    {rest : List Char} (hrest : ∀ c ∈ rest.head?, c.isDigit = false) :
    takeFraction? ('.' :: Digits.padded width n ++ rest) = some (n * 10 ^ (9 - width), rest) := by
  have hstop : rest.takeWhile Char.isDigit = [] := by
    cases rest with
    | nil => rfl
    | cons c rest => exact List.takeWhile_cons_of_neg (by simp [hrest c rfl])
  have htake : (Digits.padded width n ++ rest).takeWhile Char.isDigit = Digits.padded width n := by
    rw [List.takeWhile_append_of_pos (fun c hc => Digits.isDigit_of_mem_padded hc), hstop,
      List.append_nil]
  have hlength := Digits.length_padded hw hn
  have hcounted : (Digits.padded width n).take 9 = Digits.padded width n :=
    List.take_of_length_le (by omega)
  have hnanos : fractionNanos (Digits.padded width n) = n * 10 ^ (9 - width) := by
    rw [fractionNanos, hcounted, Digits.value_padded, hlength]
    rfl
  rw [List.cons_append, takeFraction?, htake]
  simp only [if_neg (Digits.padded_ne_nil width n), List.drop_left, hnanos]

/-- However many digits a fraction is written with, they are exact. -/
theorem takeFraction?_writeFraction {nano : Nat} (hn : nano < 10 ^ 9) {rest : List Char}
    (hrest : ∀ c ∈ rest.head?, c.isDigit = false ∧ c ≠ '.') :
    takeFraction? (Timestamp.writeFraction nano ++ rest) = some (nano, rest) := by
  have hdigit : ∀ c ∈ rest.head?, c.isDigit = false := fun c hc => (hrest c hc).1
  rw [Timestamp.writeFraction]
  split
  · next h =>
    subst h
    rw [List.nil_append, takeFraction?]
    rintro cs rfl
    exact (hrest '.' rfl).2 rfl
  · split
    · next h =>
      rw [takeFraction?_padded (by omega) (by omega) (by omega) hdigit]
      congr 2
      omega
    · split
      · next h =>
        rw [takeFraction?_padded (by omega) (by omega) (by omega) hdigit]
        congr 2
        omega
      · rw [takeFraction?_padded (by omega) (by omega) hn hdigit]
        congr 2
        omega

theorem takeItems?_fraction {nano : Nat} (hn : nano < 10 ^ 9) {rest : List Char}
    (hrest : ∀ c ∈ rest.head?, c.isDigit = false ∧ c ≠ '.') :
    takeItems? (.fraction :: items) r (Timestamp.writeFraction nano ++ rest) =
      takeItems? items { r with nano := nano } rest := by
  rw [takeItems?, Item.take?, takeFraction?_writeFraction hn hrest]
  rfl

/-- No blanks are taken where none are written. -/
theorem takeItems?_blanks {rest : List Char} (h : ∀ c ∈ rest.head?, Text.isBlank c = false) :
    takeItems? (.blanks :: items) r rest = takeItems? items r rest := by
  have hskip : Text.skipBlanks rest = rest := by
    cases rest with
    | nil => rfl
    | cons c rest => exact Text.skipBlanks_cons (h c rfl) rest
  rw [takeItems?, Item.take?, hskip]
  rfl

theorem daysInMonth_le (y : Int) (m : Nat) : daysInMonth y m ≤ 31 := by
  rw [daysInMonth]
  repeat' split
  all_goals omega

/-- A zone of no minutes, with a colon. -/
theorem takeZone?_zero {gap? : List Char → Option (List Char)}
    (h : gap? ":00".toList = some "00".toList) : takeZone? gap? "+00:00".toList = some (0, []) := by
  have hhours : takeTwo? "00:00".toList = some (0, ":00".toList) := by decide
  have hminutes : takeTwo? "00".toList = some (0, []) := by decide
  change takeZone? gap? ('+' :: "00:00".toList) = _
  rw [takeZone?, if_neg (by decide)]
  simp only [zoneSign?, hhours, h, hminutes, Option.bind_eq_bind, Option.bind_some]
  rfl

end Calendar

open Calendar

namespace Date

theorem month_lt (d : Date) : d.month < 10 ^ 2 := by
  have h := d.isDay.2.1.2
  omega

theorem day_lt (d : Date) : d.day < 10 ^ 2 := by
  have h := d.isDay.2.2.2
  have hdays := daysInMonth_le d.year d.month
  omega

theorem ofParts?_self (d : Date) : ofParts? d.year d.month d.day = some d := dif_pos d.isDay

theorem takeItems?_write (d : Date) (items : List Item) (r : Reading) (rest : List Char) :
    takeItems? (isoDate ++ items) r (d.write ++ rest) =
      takeItems? items { r with year := d.year, month := d.month, day := d.day } rest := by
  rw [isoDate, write]
  simp only [List.cons_append, List.nil_append, List.append_assoc]
  rw [takeItems?_year _ _ _ (by simp), takeItems?_literal,
    takeItems?_loose _ _ .month 2 rfl d.month_lt, takeItems?_literal,
    takeItems?_loose _ _ .day 2 rfl d.day_lt]
  rfl

/-- The form with hyphens is the first one tried, and it takes every year with its sign. -/
theorem read?_write (d : Date) : read? d.write = some d := by
  have htake := d.takeItems?_write [] {} []
  have hread : readAll? isoDate d.write =
      some { year := d.year, month := d.month, day := d.day } := by
    rw [List.append_nil, List.append_nil] at htake
    rw [readAll?, htake]
    rfl
  rw [read?, dateFormats, List.findSome?_cons, hread, Option.bind_some, Reading.date?,
    ofParts?_self]

/-- The tolerant form takes the form without blanks as well. -/
theorem takeItems?_tolerant (d : Date) (items : List Item) (r : Reading) (rest : List Char) :
    takeItems? (tolerantDate ++ items) r (d.write ++ rest) =
      takeItems? items { r with year := d.year, month := d.month, day := d.day } rest := by
  have hhyphen (cs : List Char) : ∀ c ∈ ('-' :: cs).head?, Text.isBlank c = false := by
    rintro _ ⟨rfl⟩
    decide
  rw [tolerantDate, write]
  simp only [List.cons_append, List.nil_append, List.append_assoc]
  rw [takeItems?_year _ _ _ (by simp), takeItems?_blanks _ _ (hhyphen _), takeItems?_literal,
    takeItems?_loose _ _ .month 2 rfl d.month_lt, takeItems?_blanks _ _ (hhyphen _),
    takeItems?_literal, takeItems?_loose _ _ .day 2 rfl d.day_lt]
  rfl

theorem readTolerant?_write (d : Date) : readTolerant? d.write = some d := by
  have htake := d.takeItems?_tolerant [.blanks] {} []
  have hread : readAll? (tolerantDate ++ [.blanks]) d.write =
      some { year := d.year, month := d.month, day := d.day } := by
    rw [List.append_nil, takeItems?_blanks _ _ (by simp), takeItems?] at htake
    rw [readAll?, htake]
    rfl
  rw [readTolerant?, hread, Option.bind_some, Reading.date?, ofParts?_self]

theorem not_isBlank_of_mem_write (d : Date) : ∀ c ∈ d.write, Text.isBlank c = false := by
  have hyear : ∀ c ∈ writeYear d.year, Text.isBlank c = false := by
    rw [writeYear]
    split
    · exact Digits.not_isBlank_of_mem_padded 4 _
    · split <;> exact not_isBlank_of_mem_marked (by decide) 4 _
  simp only [write, List.forall_mem_append]
  exact ⟨⟨hyear, not_isBlank_of_mem_marked (by decide) 2 _⟩,
    not_isBlank_of_mem_marked (by decide) 2 _⟩

end Date

namespace Timestamp

theorem ofParts?_shown (t : Timestamp) :
    ofParts? t.date t.hour t.minute t.shownSecond t.shownNano = some t := by
  have htime := t.isTime
  obtain ⟨-, -, hsecond, hnano, hleap⟩ := htime
  rw [ofParts?, shownSecond, shownNano]
  by_cases h : nanosPerSecond ≤ t.nano
  · have h59 := hleap h
    have hparts : t.nano % nanosPerSecond + nanosPerSecond = t.nano := by
      rw [Nat.mod_eq_sub_mod h, Nat.mod_eq_of_lt (by omega)]
      omega
    rw [if_pos h, if_pos (by omega), hparts, ← h59]
    exact dif_pos t.isTime
  · rw [if_neg h, if_neg (by omega), Nat.mod_eq_of_lt (by omega)]
    exact dif_pos t.isTime

theorem toUniversal?_zero (t : Timestamp) : t.toUniversal? 0 = some t := by
  obtain ⟨hhour, hminute, -⟩ := t.isTime
  have hday : (((t.hour * 60 + t.minute : Int) - 0) % 1440).toNat = t.hour * 60 + t.minute := by
    omega
  have hhours : (t.hour * 60 + t.minute) / 60 = t.hour := by omega
  have hminutes : (t.hour * 60 + t.minute) % 60 = t.minute := by omega
  simp only [toUniversal?, hday, hhours, hminutes]
  rw [if_neg (by omega), if_pos (by omega), Option.bind_some]
  exact dif_pos t.isTime

theorem shownNano_lt (t : Timestamp) : t.shownNano < 10 ^ 9 := Nat.mod_lt _ (by decide)

theorem shownSecond_lt (t : Timestamp) : t.shownSecond < 10 ^ 2 := by
  have hsecond := t.isTime.2.2.1
  rw [shownSecond]
  split <;> omega

theorem takeItems?_write (t : Timestamp) (hyear : 0 ≤ t.date.year ∧ t.date.year ≤ 9999) :
    takeItems? internetItems {} t.write =
      some (⟨t.date.year, t.date.month, t.date.day, t.hour, t.minute, t.shownSecond, t.shownNano⟩,
        "+00:00".toList) := by
  obtain ⟨hhour, hminute, -⟩ := t.isTime
  have hdigits : t.date.year.natAbs < 10 ^ 4 := by omega
  have hsign : ((t.date.year.natAbs : Nat) : Int) = t.date.year := by omega
  have hzone : ∀ c ∈ "+00:00".toList.head?, c.isDigit = false ∧ c ≠ '.' := by
    rintro _ ⟨rfl⟩
    decide
  rw [write, writeWith, Date.write, Date.writeYear, if_pos hyear, internetItems]
  simp only [List.cons_append, List.append_assoc]
  rw [takeItems?_exact _ _ .year 4 rfl hdigits, takeItems?_literal,
    takeItems?_exact _ _ .month 2 rfl t.date.month_lt, takeItems?_literal,
    takeItems?_exact _ _ .day 2 rfl t.date.day_lt, takeItems?_separator,
    takeItems?_exact _ _ .hour 2 rfl (by omega), takeItems?_literal,
    takeItems?_exact _ _ .minute 2 rfl (by omega), takeItems?_literal,
    takeItems?_exact _ _ .second 2 rfl t.shownSecond_lt,
    takeItems?_fraction _ _ t.shownNano_lt hzone, takeItems?, hsign]
  rfl

/-- A year of four digits is read in the internet format, which is tried first. -/
theorem read?_write (t : Timestamp) (hyear : 0 ≤ t.date.year ∧ t.date.year ≤ 9999) :
    read? t.write = some t := by
  have hinternet : readInternet? t.write = some t := by
    rw [readInternet?, t.takeItems?_write hyear, Option.bind_eq_bind, Option.bind_some]
    dsimp only
    rw [takeZone?_zero rfl]
    simp only [Option.bind_eq_bind, Option.bind_some, ofZoned?, if_pos, Reading.timestamp?,
      Reading.date?, Date.ofParts?_self, ofParts?_shown, toUniversal?_zero]
  rw [read?, hinternet]
  rfl

theorem takeItems?_writeZulu (t : Timestamp) :
    takeItems? (tolerantDate ++ .separator :: tolerantTime) {} t.writeZulu =
      some (⟨t.date.year, t.date.month, t.date.day, t.hour, t.minute, t.shownSecond, t.shownNano⟩,
        ['Z']) := by
  obtain ⟨hhour, hminute, -⟩ := t.isTime
  have hcolon (cs : List Char) : ∀ c ∈ (':' :: cs).head?, Text.isBlank c = false := by
    rintro _ ⟨rfl⟩
    decide
  have hzone : ∀ c ∈ ['Z'].head?, c.isDigit = false ∧ c ≠ '.' := by
    rintro _ ⟨rfl⟩
    decide
  have hblank : ∀ c ∈ ['Z'].head?, Text.isBlank c = false := by
    rintro _ ⟨rfl⟩
    decide
  rw [writeZulu, writeWith, tolerantTime]
  simp only [List.cons_append, List.append_assoc]
  rw [t.date.takeItems?_tolerant, takeItems?_separator, takeItems?_loose _ _ .hour 2 rfl (by omega),
    takeItems?_blanks _ _ (hcolon _), takeItems?_literal,
    takeItems?_loose _ _ .minute 2 rfl (by omega), takeItems?_blanks _ _ (hcolon _),
    takeItems?_literal, takeItems?_loose _ _ .second 2 rfl t.shownSecond_lt,
    takeItems?_fraction _ _ t.shownNano_lt hzone, takeItems?_blanks _ _ hblank, takeItems?]
  rfl

/-- The tolerant form takes a time of every year, with its sign. -/
theorem readTolerant?_writeZulu (t : Timestamp) : readTolerant? t.writeZulu = some t := by
  rw [readTolerant?, t.takeItems?_writeZulu, Option.bind_eq_bind, Option.bind_some]
  have hzone : takeZone? (fun cs => some (cs.dropWhile fun c => c == ':' || Text.isBlank c)) ['Z'] =
      some (0, []) := rfl
  have hutc : (['Z'].take 3).map Char.toLower ≠ "utc".toList := by decide
  dsimp only
  rw [if_neg hutc, hzone]
  simp only [Option.bind_eq_bind, Option.bind_some, ofZoned?, Text.skipBlanks, Reading.timestamp?,
    Reading.date?, Date.ofParts?_self, ofParts?_shown, toUniversal?_zero]
  rfl

theorem not_isBlank_of_mem_write (t : Timestamp) : ∀ c ∈ t.write, Text.isBlank c = false := by
  have hfraction : ∀ c ∈ writeFraction t.shownNano, Text.isBlank c = false := by
    rw [writeFraction]
    repeat' split
    · exact List.forall_mem_nil _
    all_goals exact not_isBlank_of_mem_marked (by decide) _ _
  have hzone : ∀ c ∈ "+00:00".toList, Text.isBlank c = false :=
    Text.not_isBlank_of_all (by decide)
  simp only [write, writeWith, List.forall_mem_append]
  exact ⟨⟨⟨⟨⟨t.date.not_isBlank_of_mem_write, not_isBlank_of_mem_marked (by decide) 2 _⟩,
    not_isBlank_of_mem_marked (by decide) 2 _⟩, not_isBlank_of_mem_marked (by decide) 2 _⟩,
    hfraction⟩, hzone⟩

end Timestamp

end FilterQuery
