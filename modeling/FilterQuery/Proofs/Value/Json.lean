import FilterQuery.Proofs.Json.Document
import FilterQuery.Proofs.Value.ReadBack
import FilterQuery.Value.Json

/-!
The JSON form of values and of data types is read back. A decimal comes back as the same number,
a time also in a year that has a sign. Floating-point numbers are left out.
-/
namespace FilterQuery

theorem Numeral.isWord_toInt (i : Int64) : (Numeral.integer i.toInt).IsWord := by
  have hmin := i.minValue_le_toInt
  have hmax := i.toInt_lt
  exact ⟨hmin, by simp only [UInt64.size]; omega⟩

namespace Json

variable {α : Type} {write : α → Json} {xs : List α}

/-- A list is read back if each of its items is. -/
theorem list?_map {read? : Json → Option α} (h : ∀ x ∈ xs, read? (write x) = some x) :
    list? read? (.array (xs.map write)) = some xs := by
  rw [list?, items?, Option.bind_some]
  induction xs with
  | nil => rfl
  | cons x xs ih =>
    have hx := h x List.mem_cons_self
    have hxs := ih fun y hy => h y (List.mem_cons_of_mem x hy)
    simp [hx, hxs]

theorem plainItems_map (h : ∀ x ∈ xs, (write x).IsPlain) : PlainItems (xs.map write) := by
  rw [plainItems_iff]
  intro j hj
  obtain ⟨x, hx, rfl⟩ := List.mem_map.mp hj
  exact h x hx

end Json

namespace Value

/-- No floating-point number. -/
def HasNoFloat : Value → Prop
  | .float _ => False
  | _ => True

instance (v : Value) : Decidable v.HasNoFloat := by
  cases v <;> simp only [HasNoFloat] <;> infer_instance

theorem toJson_isPlain {v : Value} (h : v.HasNoFloat) : v.toJson.IsPlain := by
  cases v with
  | float x => exact absurd h id
  | null => trivial
  | int i => exact ⟨⟨by decide, Numeral.isWord_toInt i⟩, trivial⟩
  | _ => exact ⟨⟨by decide, trivial⟩, trivial⟩

/-- The JSON form of a value is read as the same value. -/
theorem ofJson?_toJson {v : Value} (h : v.HasNoFloat) :
    ∃ w, ofJson? v.toJson = some w ∧ v.Same w := by
  cases v with
  | float x => exact absurd h id
  | null => exact ⟨.null, rfl, .refl _⟩
  | int i =>
    refine ⟨.int i, ?_, .refl _⟩
    simp [ofJson?, toJson, Json.variant?, ofNamedJson?, intOfJson?, Digits.int64?_toInt]
  | decimal d =>
    obtain ⟨e, hread, hvalue⟩ := d.read?_write
    refine ⟨.decimal e, ?_, hvalue.symm⟩
    simp [ofJson?, toJson, Json.variant?, ofNamedJson?, decimalOfJson?, hread]
  | string s => exact ⟨.string s, rfl, .refl _⟩
  | boolean b => exact ⟨.boolean b, rfl, .refl _⟩
  | date d =>
    refine ⟨.date d, ?_, .refl _⟩
    simp [ofJson?, toJson, Json.variant?, ofNamedJson?, Json.string?, d.readTolerant?_write]
  | timestamp t =>
    refine ⟨.timestamp t, ?_, .refl _⟩
    simp [ofJson?, toJson, Json.variant?, ofNamedJson?, Json.string?, t.readTolerant?_writeZulu]
  | constant name => exact ⟨.constant name, rfl, .refl _⟩

theorem depth_toJson_le (v : Value) : v.toJson.depth ≤ 1 := by
  cases v <;> simp [toJson, Json.depth, Json.depthFields]

/-- Only null is read from what holds nothing. -/
theorem depth_toJson_le_of_ofJson? {j : Json} {v : Value} (h : ofJson? j = some v) :
    v.toJson.depth ≤ j.depth := by
  have hv := v.depth_toJson_le
  cases j with
  | string s =>
    rw [ofJson?, Json.variant?] at h
    split at h
    · obtain rfl := Option.some.inj h
      exact Nat.le_refl 0
    · next hpayload => cases hpayload
    · cases h
  | object fields =>
    rw [Json.depth]
    omega
  | _ => cases h

end Value

namespace DataType

theorem toJson_isPlain (t : DataType) : t.toJson.IsPlain := by
  cases t with
  | enumeration constants =>
    exact ⟨⟨by decide, Json.plainItems_map fun _ _ => trivial⟩, trivial⟩
  | _ => trivial

theorem ofJson?_toJson (t : DataType) : ofJson? t.toJson = some t := by
  cases t with
  | enumeration constants =>
    have hitems : Json.list? Json.string? (.array (constants.map .string)) = some constants :=
      Json.list?_map fun _ _ => rfl
    simp [ofJson?, toJson, Json.variant?, hitems]
  | _ => rfl

end DataType

end FilterQuery
