import FilterQuery.Proofs.Calendar.Format
import FilterQuery.Proofs.Number.Decimal
import FilterQuery.Value.DataType

/-!
Values are read back from their text by the type that read them. The text has no blanks around
it, so trimming keeps it. What is left is one fact for each type about its own text, and for an
enumeration that the constant it found finds itself.
-/
namespace FilterQuery

namespace Text

theorem trim_ofList {cs : List Char} (h : ∀ c ∈ cs, isBlank c = false) :
    trim (String.ofList cs) = String.ofList cs := by
  rw [trim, String.toList_ofList, trimChars_of_not_isBlank h]

variable {s t : String}

theorem map_toLower_of_same (h : sameIgnoringAsciiCase s t = true) :
    s.toList.map Char.toLower = t.toList.map Char.toLower :=
  eq_of_beq h

/-- Texts that are the same up to case are the same to every other text. -/
theorem sameIgnoringAsciiCase_right (h : sameIgnoringAsciiCase s t = true) (u : String) :
    sameIgnoringAsciiCase u s = sameIgnoringAsciiCase u t := by
  rw [sameIgnoringAsciiCase, sameIgnoringAsciiCase, map_toLower_of_same h]

/-- Case does not turn blanks into letters, so a text that is the same as a trimmed one up to
case has no blanks around it. -/
theorem trim_of_same (h : sameIgnoringAsciiCase s (trim t) = true) : trim s = s := by
  have hmap : s.toList.map Char.toLower = (trimChars t.toList).map Char.toLower := by
    rw [map_toLower_of_same h, trim, String.toList_ofList]
  have hend : ∀ a b : Option Char, a.map Char.toLower = b.map Char.toLower →
      (∀ c ∈ b, isBlank c = false) → ∀ c ∈ a, isBlank c = false := by
    rintro _ b hab hb c ⟨rfl⟩
    cases b with
    | none => cases hab
    | some d =>
      rw [← isBlank_toLower c, Option.some.inj hab, isBlank_toLower]
      exact hb d rfl
  have htrim : trimChars s.toList = s.toList := by
    apply trimChars_eq_self
    · apply hend _ _ _ (head?_trimChars t.toList)
      rw [← List.head?_map, hmap, List.head?_map]
    · apply hend _ _ _ (getLast?_trimChars t.toList)
      rw [← List.getLast?_map, hmap, List.getLast?_map]
  rw [trim, htrim, String.ofList_toList]

end Text

namespace Value

/-- The same value, where a decimal is the number it stands for. -/
def Same : Value → Value → Prop
  | .decimal d, .decimal e => d.toRat = e.toRat
  | v, w => v = w

theorem Same.refl (v : Value) : v.Same v := by
  cases v <;> rfl

/-- A time is in a year that is written without a sign. -/
def HasPlainYear : Value → Prop
  | .timestamp t => 0 ≤ t.date.year ∧ t.date.year ≤ 9999
  | _ => True

/-- The type reads the text of the value as the same value again. -/
def ReadsBack (t : DataType) (v : Value) : Prop :=
  ∃ text w, v.text? = some text ∧ t.read text = .ok w ∧ w.Same v

end Value

namespace DataType

variable {raw s : String}

/-- A type that has neither texts nor constants reads what the trimmed text denotes. -/
theorem read_eq_ok_iff {t : DataType} {v : Value} (hstring : t ≠ .string)
    (henumeration : ∀ constants, t ≠ .enumeration constants) :
    t.read raw = .ok v ↔ t.readTrimmed? (Text.trim raw) = some v := by
  cases t with
  | string => exact absurd rfl hstring
  | enumeration constants => exact absurd rfl (henumeration constants)
  | _ =>
    simp only [read]
    generalize readTrimmed? _ (Text.trim raw) = read?
    cases read? <;> simp

theorem read_of_readTrimmed? {t : DataType} {v : Value} (hs : Text.trim s = s)
    (h : t.readTrimmed? s = some v) : t.read s = .ok v := by
  have hstring : t ≠ .string := by
    rintro rfl
    cases h
  have henumeration : ∀ constants, t ≠ .enumeration constants := by
    rintro constants rfl
    cases h
  rw [read_eq_ok_iff hstring henumeration, hs, h]

/-- A text without blanks is read whole, so what reads it before it becomes a value decides. -/
theorem readsBack_of_written {α : Type} {f : α → Value} {read? : List Char → Option α}
    {t : DataType} (ht : ∀ s, t.readTrimmed? s = (read? s.toList).map f)
    {v : Value} {cs : List Char} {a : α}
    (htext : v.text? = some (String.ofList cs)) (hcs : ∀ c ∈ cs, Text.isBlank c = false)
    (hread : read? cs = some a) (hsame : (f a).Same v) : v.ReadsBack t := by
  refine ⟨String.ofList cs, f a, htext, ?_, hsame⟩
  apply read_of_readTrimmed? (Text.trim_ofList hcs)
  rw [ht, String.toList_ofList, hread]
  rfl

/-- A constant is found by its own name, since the text that found it is the same up to case. -/
theorem readsBack_constant {constants : List String} {name : String}
    (h : constants.find? (Text.sameIgnoringAsciiCase · (Text.trim raw)) = some name) :
    (Value.constant name).ReadsBack (.enumeration constants) := by
  have hname : Text.sameIgnoringAsciiCase name (Text.trim raw) = true := by
    simpa using List.find?_some h
  have htrim : Text.trim name = name := Text.trim_of_same hname
  have hsame : (Text.sameIgnoringAsciiCase · name) =
      (Text.sameIgnoringAsciiCase · (Text.trim raw)) :=
    funext (Text.sameIgnoringAsciiCase_right hname)
  refine ⟨name, .constant name, rfl, ?_, .refl _⟩
  simp only [read, htrim, hsame, h]

theorem readsBack_boolean (b : Bool) : (Value.boolean b).ReadsBack .boolean := by
  refine ⟨_, .boolean b, rfl, ?_, .refl _⟩
  cases b <;> decide

theorem readsBack_of_readTrimmed? {t : DataType} {v : Value} (ht : t ≠ .float)
    (h : t.readTrimmed? s = some v) (hyear : v.HasPlainYear) : v.ReadsBack t := by
  cases t with
  | string => cases h
  | enumeration constants => cases h
  | float => exact absurd rfl ht
  | boolean =>
    obtain ⟨b, -, rfl⟩ := Option.map_eq_some_iff.mp h
    exact readsBack_boolean b
  | int =>
    obtain ⟨i, -, rfl⟩ := Option.map_eq_some_iff.mp h
    exact readsBack_of_written (fun _ => rfl) rfl (Digits.not_isBlank_of_mem_writeInt i.toInt)
      (Digits.readInt64?_writeInt64 i) (.refl _)
  | decimal =>
    obtain ⟨d, -, rfl⟩ := Option.map_eq_some_iff.mp h
    obtain ⟨e, hread, hvalue⟩ := d.read?_write
    exact readsBack_of_written (f := .decimal) (fun _ => rfl) rfl d.not_isBlank_of_mem_write
      hread hvalue
  | date =>
    obtain ⟨d, -, rfl⟩ := Option.map_eq_some_iff.mp h
    exact readsBack_of_written (fun _ => rfl) rfl d.not_isBlank_of_mem_write d.read?_write (.refl _)
  | timestamp =>
    obtain ⟨ts, -, rfl⟩ := Option.map_eq_some_iff.mp h
    exact readsBack_of_written (fun _ => rfl) rfl ts.not_isBlank_of_mem_write
      (ts.read?_write hyear) (.refl _)

/-- A type reads the text of a value that it has read as the same value again. Floating-point
numbers are left out, and so are times in years that are written with a sign. -/
theorem readsBack_of_read {t : DataType} (ht : t ≠ .float) {v : Value} (h : t.read raw = .ok v)
    (hyear : v.HasPlainYear) : v.ReadsBack t := by
  cases t with
  | string =>
    obtain rfl := Except.ok.inj h
    exact ⟨raw, .string raw, rfl, rfl, .refl _⟩
  | enumeration constants =>
    rw [read] at h
    cases hfind : constants.find? (Text.sameIgnoringAsciiCase · (Text.trim raw)) with
    | none =>
      rw [hfind] at h
      cases h
    | some name =>
      rw [hfind] at h
      obtain rfl := Except.ok.inj h
      exact readsBack_constant hfind
  | _ => exact readsBack_of_readTrimmed? ht ((read_eq_ok_iff (by simp) (by simp)).mp h) hyear

/-- A leap second, as it was read five hours behind universal time. -/
def sampleLeapSecond : Timestamp :=
  ⟨⟨2016, 12, 31, by decide⟩, 23, 59, 59, 1250000000, by decide⟩

theorem readsBack_samples :
    (timestamp.read " 2016-12-31T18:59:60.250-05:00\n" = .ok (.timestamp sampleLeapSecond) ∧
      (Value.timestamp sampleLeapSecond).HasPlainYear ∧
      (Value.timestamp sampleLeapSecond).ReadsBack .timestamp) ∧
    (decimal.read " -12.50E+40" = .ok (.decimal ⟨-1250, -38⟩) ∧
      (Value.decimal ⟨-1250, -38⟩).text? = some "-1250e+38" ∧
      (Value.decimal ⟨-1250, -38⟩).ReadsBack .decimal) ∧
    (enumeration ["Open", "OPEN", "open"]).read "\toPEN " = .ok (.constant "Open") ∧
      (Value.constant "Open").ReadsBack (.enumeration ["Open", "OPEN", "open"]) := by
  have htime :
      timestamp.read " 2016-12-31T18:59:60.250-05:00\n" = .ok (.timestamp sampleLeapSecond) := by
    decide
  have hyear : (Value.timestamp sampleLeapSecond).HasPlainYear := ⟨by decide, by decide⟩
  have hdecimal : decimal.read " -12.50E+40" = .ok (.decimal ⟨-1250, -38⟩) := by decide
  have hconstant :
      (enumeration ["Open", "OPEN", "open"]).read "\toPEN " = .ok (.constant "Open") := by decide
  exact ⟨⟨htime, hyear, readsBack_of_read (by decide) htime hyear⟩,
    ⟨hdecimal, by decide, readsBack_of_read (by decide) hdecimal trivial⟩,
    hconstant, readsBack_of_read (by simp) hconstant trivial⟩

end DataType

end FilterQuery
