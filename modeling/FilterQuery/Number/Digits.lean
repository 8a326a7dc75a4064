/-!
Runs of ASCII digits: their value, their text, and signed integers written with them.
-/
namespace FilterQuery.Digits

/-- The number a run of digits denotes, read from the left. -/
def value (cs : List Char) : Nat := cs.foldl (fun n c => 10 * n + (c.toNat - '0'.toNat)) 0

/-- Reads a non-empty run of digits and nothing else. -/
def read? (cs : List Char) : Option Nat :=
  if cs ≠ [] ∧ cs.all Char.isDigit then some (value cs) else none

def write (n : Nat) : List Char := Nat.toDigits 10 n

/-- At least `width` digits, with zeros in front. -/
def padded (width n : Nat) : List Char := (write n).leftpad width '0'

/-- Splits off one leading sign; `true` stands for a minus. -/
def splitSign : List Char → Bool × List Char
  | '+' :: cs => (false, cs)
  | '-' :: cs => (true, cs)
  | cs => (false, cs)

def applySign (negative : Bool) (n : Nat) : Int := if negative then -n else n

/-- Reads an optional sign and a run of digits. -/
def readInt? (cs : List Char) : Option Int :=
  (read? (splitSign cs).2).map (applySign (splitSign cs).1)

def writeInt (i : Int) : List Char :=
  if i < 0 then '-' :: write i.natAbs else write i.natAbs

/-- The integer as a 64-bit word, if it fits. -/
def int64? (i : Int) : Option Int64 :=
  if Int64.minValue.toInt ≤ i ∧ i ≤ Int64.maxValue.toInt then some (Int64.ofInt i) else none

def readInt64? (cs : List Char) : Option Int64 := (readInt? cs).bind int64?

def writeInt64 (i : Int64) : List Char := writeInt i.toInt

end FilterQuery.Digits
