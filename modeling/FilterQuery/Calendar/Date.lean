import FilterQuery.Number.Digits

/-!
Days of the proleptic Gregorian calendar.
-/
namespace FilterQuery

namespace Calendar

def isLeapYear (y : Int) : Bool := y % 4 == 0 && (y % 100 != 0 || y % 400 == 0)

def daysInMonth (y : Int) (m : Nat) : Nat :=
  if m = 2 then (if isLeapYear y then 29 else 28)
  else if m = 4 ∨ m = 6 ∨ m = 9 ∨ m = 11 then 30
  else 31

def firstYear : Int := -262143
def lastYear : Int := 262142

/-- A day that exists, in a year of the supported range. -/
def IsDay (y : Int) (m d : Nat) : Prop :=
  (firstYear ≤ y ∧ y ≤ lastYear) ∧ (1 ≤ m ∧ m ≤ 12) ∧ 1 ≤ d ∧ d ≤ daysInMonth y m

instance (y : Int) (m d : Nat) : Decidable (IsDay y m d) := by
  unfold IsDay; infer_instance

end Calendar

structure Date where
  year : Int
  month : Nat
  day : Nat
  isDay : Calendar.IsDay year month day
  deriving DecidableEq

namespace Date

def ofParts? (y : Int) (m d : Nat) : Option Date :=
  if h : Calendar.IsDay y m d then some ⟨y, m, d, h⟩ else none

/-- The day after, unless it leaves the supported range. -/
def next? (d : Date) : Option Date :=
  (ofParts? d.year d.month (d.day + 1)).or
    ((ofParts? d.year (d.month + 1) 1).or (ofParts? (d.year + 1) 1 1))

/-- The day before, unless it leaves the supported range. -/
def previous? (d : Date) : Option Date :=
  if 1 < d.day then ofParts? d.year d.month (d.day - 1)
  else if 1 < d.month then
    ofParts? d.year (d.month - 1) (Calendar.daysInMonth d.year (d.month - 1))
  else ofParts? (d.year - 1) 12 31

/-- Four digits; a year outside 0 to 9999 has a sign in front of them. -/
def writeYear (y : Int) : List Char :=
  if 0 ≤ y ∧ y ≤ 9999 then Digits.padded 4 y.natAbs
  else (if y < 0 then '-' else '+') :: Digits.padded 4 y.natAbs

/-- Year, month and day with hyphens between them. -/
def write (d : Date) : List Char :=
  writeYear d.year ++ '-' :: Digits.padded 2 d.month ++ '-' :: Digits.padded 2 d.day

end Date
end FilterQuery
