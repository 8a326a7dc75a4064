import FilterQuery.Number.Decimal
import FilterQuery.Proofs.Number.Digits

/-!
Decimals are read back from their text. In each of its layouts the text spells digits, digits
behind a point and an exponent, and reading needs no more than these. It gives the same decimal
again, or the same number with the zeros in front of its point among the digits.
-/
namespace FilterQuery.Decimal

/-- The number that a decimal stands for. -/
def toRat (d : Decimal) : ℚ := d.digits * 10 ^ (-d.scale.toInt)

/-- What stands behind the digits: nothing, or a mark and an exponent. -/
inductive Exponent : List Char → Int → Prop where
  | none : Exponent [] 0
  | marked {mark : Char} {cs : List Char} {x : Int} (hm : isExponentMark mark = true)
      (hcs : ∀ c ∈ cs, Text.isBlank c = false) (hx : readExponent? cs = some x) :
      Exponent (mark :: cs) x

/-- Digits behind a point, which is left out with them. -/
def pointed (back : List Char) : List Char := if back = [] then [] else '.' :: back

def signText (negative : Bool) : List Char := if negative then ['-'] else []

/-- A text with the digits of `n`, some of them behind a point, and an exponent that give the
scale together. -/
inductive Spells : List Char → Nat → Int64 → Prop where
  | mk {front back exponent : List Char} {x : Int} {scale : Int64} (hne : front ≠ [])
      (hfront : ∀ c ∈ front, c.isDigit = true) (hback : ∀ c ∈ back, c.isDigit = true)
      (hx : Exponent exponent x) (hs : (back.length : Int) - x = scale.toInt) :
      Spells (front ++ pointed back ++ exponent) (Digits.value (front ++ back)) scale

variable {negative : Bool} {front back : List Char}

theorem ne_of_isDigit {c d : Char} (h : c.isDigit = true) (hd : d.isDigit = false) : c ≠ d := by
  rintro rfl
  rw [h] at hd
  cases hd

theorem isExponentMark_of_isDigit {c : Char} (h : c.isDigit = true) : isExponentMark c = false := by
  rw [isExponentMark, Bool.or_eq_false_iff, beq_eq_false_iff_ne, beq_eq_false_iff_ne]
  exact ⟨ne_of_isDigit h (by decide), ne_of_isDigit h (by decide)⟩

theorem isBlank_of_isExponentMark {c : Char} (h : isExponentMark c = true) :
    Text.isBlank c = false := by
  simp only [isExponentMark, Bool.or_eq_true, beq_iff_eq] at h
  rcases h with rfl | rfl <;> decide

theorem mem_signText {c : Char} (h : c ∈ signText negative) : c = '-' := by
  cases negative with
  | false => cases h
  | true => simpa [signText] using h

theorem mem_pointed {c : Char} (h : c ∈ pointed back) : c = '.' ∨ c ∈ back := by
  by_cases hb : back = []
  · simp [pointed, hb] at h
  · simpa [pointed, hb] using h

theorem splitPoint_pointed (hfront : ∀ c ∈ front, c.isDigit = true)
    (hback : ∀ c ∈ back, c.isDigit = true) :
    splitPoint (signText negative ++ front ++ pointed back) =
      (signText negative ++ front ++ back, back.length) := by
  have hpoint : ∀ c ∈ signText negative ++ front, (c != '.') = true := by
    intro c hc
    rw [bne_iff_ne]
    rcases List.mem_append.mp hc with hc | hc
    · rw [mem_signText hc]
      decide
    · exact ne_of_isDigit (hfront c hc) (by decide)
  by_cases hb : back = []
  · have hdrop : (signText negative ++ front).dropWhile (· != '.') = [] :=
      List.dropWhile_eq_nil_iff.mpr hpoint
    rw [pointed, if_pos hb, hb, List.append_nil, splitPoint, hdrop]
    rfl
  · have hall : back.filter (· != '_') = back := by
      rw [List.filter_eq_self]
      intro c hc
      rw [bne_iff_ne]
      exact ne_of_isDigit (hback c hc) (by decide)
    rw [pointed, if_neg hb, splitPoint, List.dropWhile_append_of_pos hpoint,
      List.takeWhile_append_of_pos hpoint, List.dropWhile_cons_of_neg (by simp),
      List.takeWhile_cons_of_neg (by simp), List.append_nil]
    change (signText negative ++ front ++ back, (back.filter (· != '_')).length) = _
    rw [hall]

theorem readGrouped?_of_isDigit {cs : List Char} (hne : cs ≠ [])
    (h : ∀ c ∈ cs, c.isDigit = true) : readGrouped? cs = some (Digits.value cs) := by
  have hhead : cs.head? ≠ some '_' := by
    intro hc
    exact ne_of_isDigit (h '_' (List.mem_of_head? hc)) (d := '_') (by decide) rfl
  have hall : cs.all (fun c => c.isDigit || c == '_') = true := by
    rw [List.all_eq_true]
    intro c hc
    rw [h c hc, Bool.true_or]
  have hfilter : cs.filter (· != '_') = cs := by
    rw [List.filter_eq_self]
    intro c hc
    rw [bne_iff_ne]
    exact ne_of_isDigit (h c hc) (by decide)
  rw [readGrouped?, if_neg hhead, if_pos ⟨hne, hall⟩, hfilter]

theorem readInteger?_signText {cs : List Char} (hne : cs ≠ []) (h : ∀ c ∈ cs, c.isDigit = true) :
    readInteger? (signText negative ++ cs) =
      some (Digits.applySign negative (Digits.value cs)) := by
  have hgrouped := readGrouped?_of_isDigit hne h
  cases cs with
  | nil => exact absurd rfl hne
  | cons c cs =>
    have hc := h c List.mem_cons_self
    cases negative with
    | true =>
      rw [signText, if_pos rfl, List.singleton_append, readInteger?, hgrouped]
      · rfl
      · rintro _ ⟨rfl⟩
        cases hc
    | false =>
      have hplus : dropPlus (c :: cs) = c :: cs := by
        rw [dropPlus]
        · rintro _ ⟨rfl⟩
          cases hc
        · rintro _ ⟨rfl⟩
          cases hc
      have hsign : signText false = [] := rfl
      rw [hsign, List.nil_append, readInteger?, hplus, hgrouped]
      · rfl
      · rintro _ ⟨rfl⟩
        cases hc
      · rintro _ ⟨rfl⟩
        cases hc

theorem read?_append {cs exponent : List Char} {x : Int}
    (hcs : ∀ c ∈ cs, isExponentMark c = false) (hx : Exponent exponent x) :
    read? (cs ++ exponent) =
      (Digits.int64? ((splitPoint cs).2 - x)).bind fun scale =>
        (readInteger? (splitPoint cs).1).bind fun n => some ⟨n, scale⟩ := by
  have hall : ∀ c ∈ cs, (! isExponentMark c) = true := by
    intro c hc
    rw [hcs c hc]
    rfl
  rw [read?, List.dropWhile_append_of_pos hall, List.takeWhile_append_of_pos hall]
  cases hx with
  | none => simp
  | @marked mark es x hm _ hx =>
    have hdrop : (mark :: es).dropWhile (! isExponentMark ·) = mark :: es :=
      List.dropWhile_cons_of_neg (by simp [hm])
    have htake : (mark :: es).takeWhile (! isExponentMark ·) = [] :=
      List.takeWhile_cons_of_neg (by simp [hm])
    rw [hdrop, htake, List.append_nil]
    simp [hx]

/-- A spelling, with or without a minus, is read as what it spells. -/
theorem Spells.read? {cs : List Char} {n : Nat} {scale : Int64} (h : Spells cs n scale)
    (negative : Bool) :
    Decimal.read? (signText negative ++ cs) = some ⟨Digits.applySign negative n, scale⟩ := by
  cases h with
  | @mk front back exponent x _ hne hfront hback hx hs =>
    have hmark : ∀ c ∈ signText negative ++ front ++ pointed back, isExponentMark c = false := by
      intro c hc
      simp only [List.mem_append] at hc
      rcases hc with (hc | hc) | hc
      · rw [mem_signText hc]
        decide
      · exact isExponentMark_of_isDigit (hfront c hc)
      · rcases mem_pointed hc with rfl | hc
        · decide
        · exact isExponentMark_of_isDigit (hback c hc)
    have hdigits : ∀ c ∈ front ++ back, c.isDigit = true :=
      List.forall_mem_append.mpr ⟨hfront, hback⟩
    have hmantissa : front ++ back ≠ [] := List.append_ne_nil_of_left_ne_nil hne back
    rw [← List.append_assoc, ← List.append_assoc, read?_append hmark hx,
      splitPoint_pointed hfront hback, hs, Digits.int64?_toInt, Option.bind_some, List.append_assoc,
      readInteger?_signText hmantissa hdigits]
    rfl

theorem Spells.not_isBlank {cs : List Char} {n : Nat} {scale : Int64} (h : Spells cs n scale)
    {c : Char} (hc : c ∈ cs) : Text.isBlank c = false := by
  cases h with
  | mk _ hfront hback hx _ =>
    simp only [List.mem_append] at hc
    rcases hc with (hc | hc) | hc
    · exact Text.isBlank_of_isDigit (hfront c hc)
    · rcases mem_pointed hc with rfl | hc
      · decide
      · exact Text.isBlank_of_isDigit (hback c hc)
    · cases hx with
      | none => cases hc
      | marked hm hcs _ =>
        rcases List.mem_cons.mp hc with rfl | hc
        · exact isBlank_of_isExponentMark hm
        · exact hcs c hc

theorem exponent_writeInt {mark : Char} (hm : isExponentMark mark = true) {x : Int}
    (hl : -exponentBound ≤ x) (hu : x < exponentBound) :
    Exponent (mark :: Digits.writeInt x) x := by
  apply Exponent.marked hm
  · exact Digits.not_isBlank_of_mem_writeInt x
  · rw [readExponent?, Digits.readInt?_writeInt]
    simp [hl, hu]

/-- An exponent that is not negative may have a plus. -/
theorem exponent_plus {mark : Char} (hm : isExponentMark mark = true) {x : Int} (hl : 0 ≤ x)
    (hu : x < exponentBound) : Exponent (mark :: '+' :: Digits.writeInt x) x := by
  have hx : Digits.writeInt x = Digits.write x.natAbs := if_neg (by omega)
  have hn : (x.natAbs : Int) = x := by omega
  rw [hx]
  apply Exponent.marked hm
  · exact List.forall_mem_cons.mpr ⟨by decide, Digits.not_isBlank_of_mem_write _⟩
  · have hb : -exponentBound ≤ x := le_trans (by decide) hl
    rw [readExponent?, Digits.readInt?_plus, hn]
    simp [hb, hu]

/-- Digits without a point. -/
theorem spells_whole {ds exponent : List Char} (hne : ds ≠ []) (hds : ∀ c ∈ ds, c.isDigit = true)
    {x : Int} (hx : Exponent exponent x) {scale : Int64} (hs : -x = scale.toInt) :
    Spells (ds ++ exponent) (Digits.value ds) scale := by
  have hnone : ∀ c ∈ ([] : List Char), c.isDigit = true := List.forall_mem_nil _
  have hlength : (([] : List Char).length : Int) - x = scale.toInt := by simpa using hs
  simpa [pointed] using Spells.mk hne hds hnone hx hlength

theorem spells_digits {ds : List Char} (hne : ds ≠ []) (hds : ∀ c ∈ ds, c.isDigit = true)
    {scale : Int64} (hs : scale.toInt = 0) : Spells ds (Digits.value ds) scale := by
  simpa using spells_whole hne hds .none hs.symm

theorem spells_pointed (hne : front ≠ []) (hback : back ≠ [])
    (hfront : ∀ c ∈ front, c.isDigit = true) (hd : ∀ c ∈ back, c.isDigit = true) {scale : Int64}
    (hs : (back.length : Int) = scale.toInt) :
    Spells (front ++ '.' :: back) (Digits.value (front ++ back)) scale := by
  simpa [pointed, hback] using Spells.mk hne hfront hd .none (by simpa using hs)

/-- The layouts without an exponent. -/
theorem spells_positional {ds : List Char} (hne : ds ≠ []) (hds : ∀ c ∈ ds, c.isDigit = true)
    {scale : Int64} {places : Nat} (hp : places ≠ 0) (hs : (places : Int) = scale.toInt) :
    Spells
      (if places < ds.length then
        ds.take (ds.length - places) ++ '.' :: ds.drop (ds.length - places)
      else '0' :: '.' :: List.replicate (places - ds.length) '0' ++ ds)
      (Digits.value ds) scale := by
  split
  · next hl =>
    have hback : ds.drop (ds.length - places) ≠ [] := by
      rw [ne_eq, List.drop_eq_nil_iff]
      omega
    have hfront : ds.take (ds.length - places) ≠ [] := by
      rw [ne_eq, List.take_eq_nil_iff, not_or]
      exact ⟨by omega, hne⟩
    have hlength : ((ds.drop (ds.length - places)).length : Int) = scale.toInt := by
      rw [List.length_drop]
      omega
    have h := spells_pointed hfront hback (fun c hc => hds c (List.mem_of_mem_take hc))
      (fun c hc => hds c (List.mem_of_mem_drop hc)) hlength
    rwa [List.take_append_drop] at h
  · next hl =>
    have hzeros : ∀ c ∈ List.replicate (places - ds.length) '0' ++ ds, c.isDigit = true :=
      List.forall_mem_append.mpr ⟨fun c hc => Digits.isDigit_of_mem_zeros hc, hds⟩
    have hlength : ((List.replicate (places - ds.length) '0' ++ ds).length : Int) =
        scale.toInt := by
      rw [List.length_append, List.length_replicate]
      omega
    have hfront : ∀ c ∈ ['0'], c.isDigit = true := by simp
    have h := spells_pointed (List.cons_ne_nil '0' [])
      (List.append_ne_nil_of_right_ne_nil _ hne) hfront hzeros hlength
    have hv : Digits.value (['0'] ++ (List.replicate (places - ds.length) '0' ++ ds)) =
        Digits.value ds := by
      rw [← Digits.value_zeros_append (places - ds.length) ds]
      exact Digits.value_zeros_append 1 _
    rwa [hv] at h

/-- The layout with one digit in front of the point and an exponent. -/
theorem spells_scientific {ds : List Char} (hne : ds ≠ []) (hds : ∀ c ∈ ds, c.isDigit = true)
    {scale : Int64} (hs : (ds.length : Int) < scale.toInt) :
    Spells
      (ds.take 1 ++ (if ds.length ≤ 1 then [] else '.' :: ds.drop 1) ++
        'E' :: Digits.writeInt (ds.length - 1 - scale.toInt))
      (Digits.value ds) scale := by
  have hback : (if ds.length ≤ 1 then [] else '.' :: ds.drop 1) = pointed (ds.drop 1) := by
    simp only [pointed, List.drop_eq_nil_iff]
  have hfront : ds.take 1 ≠ [] := by
    rw [ne_eq, List.take_eq_nil_iff, not_or]
    exact ⟨by omega, hne⟩
  have hpos : 0 < ds.length := List.length_pos_of_ne_nil hne
  have hbound := scale.toInt_lt
  have hx : Exponent ('E' :: Digits.writeInt (ds.length - 1 - scale.toInt))
      (ds.length - 1 - scale.toInt) := by
    apply exponent_writeInt (by decide)
    · rw [exponentBound]
      omega
    · rw [exponentBound]
      omega
  have hlength : ((ds.drop 1).length : Int) - (ds.length - 1 - scale.toInt) = scale.toInt := by
    rw [List.length_drop]
    omega
  have h := Spells.mk hfront (fun c hc => hds c (List.mem_of_mem_take hc))
    (fun c hc => hds c (List.mem_of_mem_drop hc)) hx hlength
  rwa [List.take_append_drop, ← hback] at h

/-- The layout with an exponent in place of zeros. -/
theorem spells_rounded {ds : List Char} (hne : ds ≠ []) (hds : ∀ c ∈ ds, c.isDigit = true)
    {scale : Int64} (hs : scale.toInt < 0) :
    Spells (ds ++ 'e' :: '+' :: Digits.writeInt (-scale.toInt)) (Digits.value ds) scale := by
  have hbound := scale.le_toInt
  have hx : Exponent ('e' :: '+' :: Digits.writeInt (-scale.toInt)) (-scale.toInt) := by
    apply exponent_plus (by decide) (by omega)
    rw [exponentBound]
    omega
  exact spells_whole hne hds hx (Int.neg_neg _)

/-- Every layout spells its number. Only the one that writes zeros has them among its digits. -/
theorem writeMagnitude_spells {ds : List Char} (hne : ds ≠ []) (hds : ∀ c ∈ ds, c.isDigit = true)
    (scale : Int64) :
    ∃ n scale', Spells (writeMagnitude ds scale.toInt) n scale' ∧
      (n : ℚ) * 10 ^ (-scale'.toInt) = Digits.value ds * 10 ^ (-scale.toInt) := by
  rw [writeMagnitude]
  split
  · next h =>
    have hlimit : 5 < scale.toInt - ds.length := h.2
    exact ⟨_, scale, spells_scientific hne hds (by omega), rfl⟩
  · split
    · next h =>
      refine ⟨_, scale, ?_, rfl⟩
      by_cases hp : scale.toInt.toNat = 0
      · simp only [hp, if_true]
        exact spells_digits hne hds (by omega)
      · simp only [hp, if_false]
        exact spells_positional hne hds hp (by omega)
    · next h =>
      split
      · have hzeros : ∀ c ∈ ds ++ List.replicate (-scale.toInt).toNat '0', c.isDigit = true :=
          List.forall_mem_append.mpr ⟨hds, fun c hc => Digits.isDigit_of_mem_zeros hc⟩
        refine ⟨_, 0, spells_digits (List.append_ne_nil_of_left_ne_nil hne _) hzeros rfl, ?_⟩
        have hk : (((-scale.toInt).toNat : Nat) : Int) = -scale.toInt := by omega
        have hzero : -(0 : Int64).toInt = 0 := rfl
        rw [Digits.value_append_zeros, ← hk, zpow_natCast, hzero, zpow_zero, mul_one]
        push_cast
        exact mul_comm _ _
      · exact ⟨_, scale, spells_rounded hne hds (by omega), rfl⟩

theorem toRat_applySign (negative : Bool) (n : Nat) (scale : Int64) :
    toRat ⟨Digits.applySign negative n, scale⟩ =
      (if negative then -1 else 1) * ((n : ℚ) * 10 ^ (-scale.toInt)) := by
  cases negative <;> simp [toRat, Digits.applySign]

theorem write_spells (d : Decimal) :
    ∃ negative cs n scale, d.write = signText negative ++ cs ∧ Spells cs n scale ∧
      toRat ⟨Digits.applySign negative n, scale⟩ = d.toRat := by
  rw [write]
  split
  · next h =>
    have hzero : d.toRat = 0 := by simp [toRat, h]
    refine ⟨false, ['0'], _, 0, rfl, spells_digits (by simp) (by simp) rfl, ?_⟩
    rw [hzero]
    simp [toRat, Digits.applySign, Digits.value]
  · next h =>
    obtain ⟨n, scale, hspells, hn⟩ := writeMagnitude_spells (Digits.write_ne_nil d.digits.natAbs)
      (fun c hc => Digits.isDigit_of_mem_write hc) d.scale
    rw [Digits.value_write] at hn
    refine ⟨decide (d.digits < 0), _, n, scale, ?_, hspells, ?_⟩
    · simp [signText]
    · rw [toRat_applySign, hn, ← toRat_applySign, Digits.applySign_natAbs]

/-- The text of a decimal is read as the same number. -/
theorem read?_write (d : Decimal) : ∃ d', read? d.write = some d' ∧ d'.toRat = d.toRat := by
  obtain ⟨negative, cs, n, scale, hwrite, hspells, hvalue⟩ := write_spells d
  exact ⟨_, by rw [hwrite, hspells.read?], hvalue⟩

theorem not_isBlank_of_mem_write (d : Decimal) : ∀ c ∈ d.write, Text.isBlank c = false := by
  intro c h
  obtain ⟨negative, cs, n, scale, hwrite, hspells, -⟩ := write_spells d
  rw [hwrite] at h
  rcases List.mem_append.mp h with h | h
  · rw [mem_signText h]
    decide
  · exact hspells.not_isBlank h

end FilterQuery.Decimal
