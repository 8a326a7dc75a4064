import FilterQuery.Number.Digits
import FilterQuery.Number.Shortest

/-!
Decimal numbers of any size: an integer and the number of its digits that stand after the
point, which is negative for an integer followed by zeros.
-/
namespace FilterQuery

/-- The number `digits / 10 ^ scale`. -/
structure Decimal where
  digits : Int
  scale : Int64
  deriving DecidableEq

namespace Decimal

/-- Drops a leading plus. Another plus may not follow it. -/
def dropPlus : List Char → List Char
  | '+' :: '+' :: cs => '+' :: '+' :: cs
  | '+' :: cs => cs
  | cs => cs

/-- Digits with underscores between and after them. -/
def readGrouped? (cs : List Char) : Option Nat :=
  if cs.head? = some '_' then none
  else if cs ≠ [] ∧ cs.all (fun c => c.isDigit || c == '_') then
    some (Digits.value (cs.filter (· != '_')))
  else none

/-- An integer of any size: one sign at most, then digits that underscores may group. -/
def readInteger? : List Char → Option Int
  | '-' :: '+' :: _ => none
  | '-' :: cs => (readGrouped? cs).map fun n => -(n : Int)
  | cs => (readGrouped? (dropPlus cs)).map Int.ofNat

/-- The least integer beyond 128 bits with a sign. -/
def exponentBound : Int := 0x80000000000000000000000000000000

def readExponent? (cs : List Char) : Option Int :=
  (Digits.readInt? cs).filter fun e => -exponentBound ≤ e && e < exponentBound

def isExponentMark (c : Char) : Bool := c == 'e' || c == 'E'

/-- Splits at the first point. The digits on both sides make one integer, and those after
the point are counted. A point at the very end counts for nothing. -/
def splitPoint (cs : List Char) : List Char × Nat :=
  match cs.dropWhile (· != '.') with
  | '.' :: after => (cs.takeWhile (· != '.') ++ after, (after.filter (· != '_')).length)
  | _ => (cs, 0)

/-- Reads a decimal, with an exponent after the first `e` or `E` if there is one. -/
def read? (cs : List Char) : Option Decimal := do
  let exponent ←
    match cs.dropWhile (! isExponentMark ·) with
    | [] => some 0
    | _ :: e => readExponent? e
  let (digits, places) := splitPoint (cs.takeWhile (! isExponentMark ·))
  let scale ← Digits.int64? (places - exponent)
  let n ← readInteger? digits
  return ⟨n, scale⟩

def ofInt (i : Int) : Decimal := ⟨i, 0⟩

/-- Divides out the factors two of a number, at most `limit` of them, and counts them. -/
def dropTwos : Nat → Nat → Nat × Nat
  | 0, n => (n, 0)
  | limit + 1, n =>
    if n % 2 = 0 then
      let (odd, k) := dropTwos limit (n / 2)
      (odd, k + 1)
    else (n, 0)

/-- The exact value of a finite double. A fraction with `2 ^ k` below it has `k` decimal
places; it is reduced first, unless the double is subnormal. -/
def ofFloat? (x : Float) : Option Decimal :=
  match Number.parts x with
  | .nan => none
  | .infinite _ => none
  | .finite negative m q =>
    let (odd, twos) := if m < Number.hiddenBit then (m, 0) else dropTwos 53 m
    let e := q + twos
    if m = 0 then some ⟨0, 0⟩
    else if 0 ≤ e then some ⟨Digits.applySign negative (odd * Nat.pow 2 e.toNat), 0⟩
    else some ⟨Digits.applySign negative (odd * Nat.pow 5 (-e).toNat), Int64.ofInt (-e)⟩

/-- A decimal with more leading zeros after its point than this is written with an exponent. -/
def leadingZeroLimit : Int := 5

/-- A decimal with more zeros before its point than this is written with an exponent. -/
def trailingZeroLimit : Int := 15

/-- The text of the digits `ds` of a positive number at a given scale. -/
def writeMagnitude (ds : List Char) (scale : Int) : List Char :=
  if 0 < scale ∧ leadingZeroLimit < scale - ds.length then
    ds.take 1 ++ (if ds.length ≤ 1 then [] else '.' :: ds.drop 1) ++
      'E' :: Digits.writeInt (ds.length - 1 - scale)
  else if 0 ≤ scale then
    let places := scale.toNat
    if places = 0 then ds
    else if places < ds.length then
      ds.take (ds.length - places) ++ '.' :: ds.drop (ds.length - places)
    else '0' :: '.' :: List.replicate (places - ds.length) '0' ++ ds
  else if -scale ≤ trailingZeroLimit then ds ++ List.replicate (-scale).toNat '0'
  else ds ++ 'e' :: '+' :: Digits.writeInt (-scale)

/-- Zero is written the same at every scale. -/
def write (d : Decimal) : List Char :=
  if d.digits = 0 then ['0']
  else
    (if d.digits < 0 then ['-'] else []) ++
      writeMagnitude (Digits.write d.digits.natAbs) d.scale.toInt

end Decimal
end FilterQuery
