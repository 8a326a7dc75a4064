/-!
The shortest decimal that reads back as a given binary number. A positive number `m · 2 ^ q`
stands for all reals that round to it; of the decimals in that interval the one with the
fewest digits is taken, and of those the nearest.
-/
namespace FilterQuery.Number

/-- A double-precision number taken apart: a finite one is `m · 2 ^ q` up to its sign. -/
inductive Parts where
  | nan
  | infinite (negative : Bool)
  | finite (negative : Bool) (m : Nat) (q : Int)
  deriving DecidableEq, Repr

/-- The weight of the sign among the 64 bits of a double. -/
def signBit : Nat := 0x8000000000000000

/-- The weight of the lowest bit of the exponent. The fraction lies below it, and a normal
number has it in front of its fraction. -/
def hiddenBit : Nat := 0x10000000000000

/-- The exponent with all its eleven bits set, which infinities and NaNs have. -/
def lastExponent : Nat := 0x7FF

def parts (x : Float) : Parts :=
  let n : Nat := x.toBits.toNat
  let negative : Bool := signBit ≤ n
  let field : Nat := n / hiddenBit % (lastExponent + 1)
  let fraction : Nat := n % hiddenBit
  if field = lastExponent then
    if fraction = 0 then .infinite negative else .nan
  else if field = 0 then .finite negative fraction (-1074)
  else .finite negative (hiddenBit + fraction) (field - 1075)

/-- A decimal `digits · 10 ^ exponent`. -/
structure Scientific where
  digits : Nat
  exponent : Int
  deriving DecidableEq, Repr

/-- A non-negative fraction with a positive denominator. -/
structure Ratio where
  num : Nat
  den : Nat

/-- `n · b ^ e` as a fraction. -/
def Ratio.ofPower (n b : Nat) (e : Int) : Ratio :=
  if 0 ≤ e then ⟨n * Nat.pow b e.toNat, 1⟩ else ⟨n, Nat.pow b (-e).toNat⟩

def Ratio.lt (a b : Ratio) : Bool := a.num * b.den < b.num * a.den
def Ratio.le (a b : Ratio) : Bool := a.num * b.den ≤ b.num * a.den

/-- The reals that round to `m · 2 ^ q`; the ends belong to it when `m` is even. Below a
power of two the neighbour is twice as near. -/
structure Interval where
  low : Ratio
  high : Ratio
  closed : Bool

def Interval.around (m : Nat) (q : Int) : Interval :=
  let gap := if m = hiddenBit ∧ -1074 < q then 1 else 2
  ⟨.ofPower (4 * m - gap) 2 (q - 2), .ofPower (4 * m + 2) 2 (q - 2), m % 2 = 0⟩

def Interval.contains (i : Interval) (x : Ratio) : Bool :=
  if i.closed then i.low.le x && x.le i.high else i.low.lt x && x.lt i.high

/-- The exponent of the leading decimal digit of a positive `x`. No double lies below the
400th decimal place. -/
def leadingExponent (x : Ratio) : Int :=
  (Nat.toDigits 10 (x.num * Nat.pow 10 400 / x.den)).length - 401

/-- Of the two decimals around `x` on the grid of multiples of `10 ^ e`, the ones inside the
interval; of two, the nearer, and at equal distance the upper one, or the even one when
`toEven` holds. -/
def nearestOnGrid? (i : Interval) (x : Ratio) (e : Int) (toEven : Bool) : Option Nat :=
  let unit := Ratio.ofPower 1 10 e
  let below := x.num * unit.den / (x.den * unit.num)
  let inside (d : Nat) : Bool := i.contains (.ofPower d 10 e)
  let middle := Ratio.mk ((2 * below + 1) * unit.num) (2 * unit.den)
  match inside below, inside (below + 1) with
  | false, false => none
  | true, false => some below
  | false, true => some (below + 1)
  | true, true =>
    if x.lt middle then some below
    else if middle.lt x then some (below + 1)
    else some (if toEven && below % 2 = 0 then below else below + 1)

/-- The shortest decimal for `m · 2 ^ q` with `0 < m`. Seventeen digits always suffice. -/
def shortest (m : Nat) (q : Int) (toEven : Bool) : Scientific :=
  let x := Ratio.ofPower m 2 q
  let i := Interval.around m q
  let lead := leadingExponent x
  let found := (List.range 17).findSome? fun (n : Nat) =>
    (nearestOnGrid? i x (lead - n) toEven).map fun d => Scientific.mk d (lead - n)
  found.getD ⟨m, 0⟩

end FilterQuery.Number
