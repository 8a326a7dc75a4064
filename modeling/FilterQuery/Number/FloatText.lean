import FilterQuery.Number.Digits
import FilterQuery.Number.Shortest

/-!
The text of double-precision numbers: reading with correct rounding, and writing the
shortest digits in one of two layouts.
-/
namespace FilterQuery.Number

/-- `digits · 10 ^ exponent` rounded to the nearest double. Exponents far outside the range
of doubles are settled by the number of digits alone. -/
def ofScientific (s : Scientific) : Float :=
  let size : Int := (Digits.write s.digits).length + s.exponent
  if s.digits = 0 ∨ size < -330 then 0
  else if 310 < size then 1 / 0
  else Float.ofScientific s.digits (s.exponent < 0) s.exponent.natAbs

/-- The exponent after an `e`: an optional sign and at least one digit. -/
def readExponent? : List Char → Option Int
  | [] => some 0
  | c :: cs => if c = 'e' ∨ c = 'E' then Digits.readInt? cs else none

/-- A number without its sign: digits, of which some may follow a point, and an exponent. -/
def readScientific? (cs : List Char) : Option Scientific :=
  let whole := cs.takeWhile Char.isDigit
  let rest := cs.dropWhile Char.isDigit
  let (fraction, rest) :=
    match rest with
    | '.' :: r => (r.takeWhile Char.isDigit, r.dropWhile Char.isDigit)
    | r => ([], r)
  if whole ++ fraction = [] then none
  else (readExponent? rest).map fun e =>
    ⟨Digits.value (whole ++ fraction), e - fraction.length⟩

/-- Reads a floating-point number: an optional sign, then a decimal, or infinity or a NaN
by name in any case. -/
def readFloat? (cs : List Char) : Option Float :=
  let (negative, body) := Digits.splitSign cs
  let name := String.ofList (body.map Char.toLower)
  let magnitude? : Option Float :=
    if name = "inf" ∨ name = "infinity" then some (1 / 0)
    else if name = "nan" then some (0 / 0)
    else (readScientific? body).map ofScientific
  magnitude?.map fun x => if negative then -x else x

/-- The decisions a text of floating-point numbers leaves open. -/
structure Layout where
  /-- Least and greatest exponent of the leading digit that is written positionally; `none`
  writes every number so. -/
  positional : Option (Int × Int)
  /-- Whole numbers end in `.0`. -/
  keepsPoint : Bool
  /-- Of two equally near shortest decimals the even one is taken, not the upper one. -/
  tiesToEven : Bool

/-- Positional at every size, and without a point where none is needed. -/
def Layout.plain : Layout := ⟨none, false, false⟩

/-- Positional from `0.00001` to below `10 ^ 16`, always with a point or an exponent. -/
def Layout.json : Layout := ⟨some (-5, 15), true, true⟩

/-- The digits `ds`, of which the first stands for `10 ^ lead`, without an exponent. -/
def positionalText (keepsPoint : Bool) (ds : List Char) (lead : Int) : List Char :=
  if lead < 0 then '0' :: '.' :: List.replicate (-lead - 1).toNat '0' ++ ds
  else
    let whole := (lead + 1).toNat
    if whole < ds.length then ds.take whole ++ '.' :: ds.drop whole
    else
      ds ++ List.replicate (whole - ds.length) '0' ++ (if keepsPoint then ['.', '0'] else [])

/-- One digit, the others after a point, and a signed exponent. -/
def scientificText (ds : List Char) (lead : Int) : List Char :=
  ds.take 1 ++ (if ds.length ≤ 1 then [] else '.' :: ds.drop 1) ++ ['e'] ++
    (if 0 ≤ lead then '+' :: Digits.writeInt lead else Digits.writeInt lead)

/-- The digits of a decimal without trailing zeros. -/
def significantDigits (n : Nat) : List Char :=
  if n = 0 then ['0'] else ((Digits.write n).reverse.dropWhile (· = '0')).reverse

def Layout.finite (l : Layout) (negative : Bool) (m : Nat) (q : Int) : List Char :=
  let s : Scientific := if m = 0 then ⟨0, 0⟩ else shortest m q l.tiesToEven
  let lead : Int := (Digits.write s.digits).length - 1 + s.exponent
  let ds := significantDigits s.digits
  let isPositional :=
    match l.positional with
    | none => true
    | some (least, greatest) => least ≤ lead && lead ≤ greatest
  (if negative then ['-'] else []) ++
    (if isPositional then positionalText l.keepsPoint ds lead else scientificText ds lead)

/-- The plain text of any double. -/
def floatText (x : Float) : List Char :=
  match parts x with
  | .nan => "NaN".toList
  | .infinite negative => if negative then "-inf".toList else "inf".toList
  | .finite negative m q => Layout.plain.finite negative m q

end FilterQuery.Number
