import FilterQuery.Calendar.Date

/-!
Points in time, in coordinated universal time to the nanosecond. A leap second is kept as
the second before it with a whole second more of nanoseconds.
-/
namespace FilterQuery

namespace Calendar

def nanosPerSecond : Nat := 1000000000

/-- A time of day. Only the last second of a minute can be a leap second. -/
def IsTime (hour minute second nano : Nat) : Prop :=
  hour < 24 ∧ minute < 60 ∧ second < 60 ∧ nano < 2 * nanosPerSecond ∧
    (nanosPerSecond ≤ nano → second = 59)

instance (h m s n : Nat) : Decidable (IsTime h m s n) := by
  unfold IsTime; infer_instance

end Calendar

structure Timestamp where
  date : Date
  hour : Nat
  minute : Nat
  second : Nat
  nano : Nat
  isTime : Calendar.IsTime hour minute second nano
  deriving DecidableEq

namespace Timestamp

/-- The time with its parts as they are written, where the second may be 60. -/
def ofParts? (date : Date) (hour minute second nano : Nat) : Option Timestamp :=
  let (second, nano) := if second = 60 then (59, nano + Calendar.nanosPerSecond) else (second, nano)
  if h : Calendar.IsTime hour minute second nano then
    some ⟨date, hour, minute, second, nano, h⟩
  else none

def midnight (date : Date) : Timestamp := ⟨date, 0, 0, 0, 0, by decide⟩

/-- The universal time of a local time that is `offset` minutes ahead of it. The offset is
less than a day. -/
def toUniversal? (t : Timestamp) (offset : Int) : Option Timestamp :=
  let minutes : Int := t.hour * 60 + t.minute - offset
  let date? :=
    if minutes < 0 then t.date.previous?
    else if minutes < 1440 then some t.date
    else t.date.next?
  let ofDay := (minutes % 1440).toNat
  date?.bind fun date =>
    if h : Calendar.IsTime (ofDay / 60) (ofDay % 60) t.second t.nano then
      some ⟨date, ofDay / 60, ofDay % 60, t.second, t.nano, h⟩
    else none

/-- The second as it is written: 60 for a leap second. -/
def shownSecond (t : Timestamp) : Nat :=
  if Calendar.nanosPerSecond ≤ t.nano then t.second + 1 else t.second

/-- The nanoseconds within the written second. -/
def shownNano (t : Timestamp) : Nat := t.nano % Calendar.nanosPerSecond

/-- A point and 3, 6 or 9 digits, the fewest that are exact; nothing for a whole second. -/
def writeFraction (nano : Nat) : List Char :=
  if nano = 0 then []
  else if nano % 1000000 = 0 then '.' :: Digits.padded 3 (nano / 1000000)
  else if nano % 1000 = 0 then '.' :: Digits.padded 6 (nano / 1000)
  else '.' :: Digits.padded 9 nano

def writeWith (t : Timestamp) (fraction zone : List Char) : List Char :=
  t.date.write ++ 'T' :: Digits.padded 2 t.hour ++ ':' :: Digits.padded 2 t.minute ++
    ':' :: Digits.padded 2 t.shownSecond ++ fraction ++ zone

/-- The form with a numeric zone. -/
def write (t : Timestamp) : List Char := t.writeWith (writeFraction t.shownNano) "+00:00".toList

/-- The form with the zone letter. -/
def writeZulu (t : Timestamp) : List Char := t.writeWith (writeFraction t.shownNano) ['Z']

/-- The form with the zone letter and whole milliseconds. -/
def writeMillis (t : Timestamp) : List Char :=
  t.writeWith ('.' :: Digits.padded 3 (t.shownNano / 1000000)) ['Z']

end Timestamp
end FilterQuery
