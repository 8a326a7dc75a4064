import FilterQuery.Calendar.Timestamp
import FilterQuery.Text.Blank

/-!
Reading dates and times. A format is a list of items that are matched from the left; the
parts it reads are checked together at the end.
-/
namespace FilterQuery.Calendar

inductive Part where
  | year | month | day | hour | minute | second
  deriving DecidableEq, Repr

/-- How many digits a part has without a sign. -/
def Part.width : Part → Nat
  | .year => 4
  | _ => 2

inductive Item where
  /-- Blanks, then up to the part's width in digits. A signed year may be longer. -/
  | loose (part : Part)
  /-- Exactly the part's width in digits. -/
  | exact (part : Part)
  | literal (c : Char)
  /-- What stands between a date and a time: the letter `T` or a space. -/
  | separator
  /-- A point and digits, or nothing. Nine digits count. -/
  | fraction
  /-- Any number of blanks. -/
  | blanks
  deriving DecidableEq, Repr

/-- The parts read so far. -/
structure Reading where
  year : Int := 0
  month : Nat := 0
  day : Nat := 0
  hour : Nat := 0
  minute : Nat := 0
  second : Nat := 0
  nano : Nat := 0

def Reading.set (r : Reading) : Part → Int → Reading
  | .year, n => { r with year := n }
  | .month, n => { r with month := n.toNat }
  | .day, n => { r with day := n.toNat }
  | .hour, n => { r with hour := n.toNat }
  | .minute, n => { r with minute := n.toNat }
  | .second, n => { r with second := n.toNat }

/-- Reads one to `width` digits. -/
def takeNumber? (width : Nat) (cs : List Char) : Option (Nat × List Char) :=
  let ds := (cs.take width).takeWhile Char.isDigit
  (Digits.read? ds).map fun n => (n, cs.drop ds.length)

/-- Reads a part in its loose form, after blanks. -/
def takeLoose? (part : Part) (cs : List Char) : Option (Int × List Char) :=
  let cs := Text.skipBlanks cs
  let signed := part = .year ∧ (cs.head? = some '-' ∨ cs.head? = some '+')
  if signed then
    let (negative, ds) := Digits.splitSign cs
    (takeNumber? ds.length ds).map fun (n, rest) => (Digits.applySign negative n, rest)
  else (takeNumber? part.width cs).map fun (n, rest) => ((n : Int), rest)

/-- Reads a part in its exact form. -/
def takeExact? (part : Part) (cs : List Char) : Option (Int × List Char) :=
  let ds := cs.take part.width
  if ds.length = part.width then
    (Digits.read? ds).map fun n => ((n : Int), cs.drop part.width)
  else none

/-- The nanoseconds of a run of digits after a point. -/
def fractionNanos (ds : List Char) : Nat :=
  let counted := ds.take 9
  Digits.value counted * Nat.pow 10 (9 - counted.length)

def takeFraction? : List Char → Option (Nat × List Char)
  | '.' :: cs =>
    let ds := cs.takeWhile Char.isDigit
    if ds = [] then none else some (fractionNanos ds, cs.drop ds.length)
  | cs => some (0, cs)

def Item.take? (item : Item) (r : Reading) (cs : List Char) : Option (Reading × List Char) :=
  match item with
  | .loose part => (takeLoose? part cs).map fun (n, rest) => (r.set part n, rest)
  | .exact part => (takeExact? part cs).map fun (n, rest) => (r.set part n, rest)
  | .literal c => if cs.head? = some c then some (r, cs.tail) else none
  | .separator =>
    if cs.head? = some 'T' ∨ cs.head? = some 't' ∨ cs.head? = some ' ' then some (r, cs.tail)
    else none
  | .fraction => (takeFraction? cs).map fun (n, rest) => ({ r with nano := n }, rest)
  | .blanks => some (r, Text.skipBlanks cs)

/-- Matches the items in order and returns what is left of the text. -/
def takeItems? : List Item → Reading → List Char → Option (Reading × List Char)
  | [], r, cs => some (r, cs)
  | item :: items, r, cs => (item.take? r cs).bind fun (r, rest) => takeItems? items r rest

/-- Matches a whole text. -/
def readAll? (items : List Item) (cs : List Char) : Option Reading :=
  (takeItems? items {} cs).bind fun (r, rest) => if rest = [] then some r else none

def Reading.date? (r : Reading) : Option Date := Date.ofParts? r.year r.month r.day

def Reading.timestamp? (r : Reading) : Option Timestamp :=
  r.date?.bind fun d => Timestamp.ofParts? d r.hour r.minute r.second r.nano

/-- The signs of a zone: `true` stands for a zone behind universal time. -/
def zoneSign? (c : Char) : Option Bool :=
  if c = '+' then some false
  else if c = '-' ∨ c = Char.ofNat 0x2212 then some true
  else none

/-- Two digits. -/
def takeTwo? (cs : List Char) : Option (Nat × List Char) :=
  if (cs.take 2).length = 2 then (Digits.read? (cs.take 2)).map fun n => (n, cs.drop 2) else none

/-- Reads a zone and gives its minutes ahead of universal time: the zone letter, or a sign
with hours and minutes, between which `gap?` consumes what may stand there. -/
def takeZone? (gap? : List Char → Option (List Char)) : List Char → Option (Int × List Char)
  | [] => none
  | c :: cs =>
    if c = 'Z' ∨ c = 'z' then some (0, cs)
    else do
      let negative ← zoneSign? c
      let (hours, rest) ← takeTwo? cs
      let rest ← gap? rest
      let (minutes, rest) ← takeTwo? rest
      if minutes < 60 ∧ hours < 24 then
        some (Digits.applySign negative (hours * 60 + minutes), rest)
      else none

/-- Year, month and day with hyphens. -/
def isoDate : List Item :=
  [.loose .year, .literal '-', .loose .month, .literal '-', .loose .day]

/-- Day, month and year with points. -/
def dottedDate : List Item :=
  [.loose .day, .literal '.', .loose .month, .literal '.', .loose .year]

def hourMinute : List Item := [.loose .hour, .literal ':', .loose .minute]
def hourMinuteSecond : List Item := hourMinute ++ [.literal ':', .loose .second]

def dateFormats : List (List Item) := [isoDate, dottedDate]

/-- The formats of a time without a zone. -/
def localFormats : List (List Item) :=
  [isoDate ++ .blanks :: hourMinuteSecond,
   isoDate ++ .literal 'T' :: hourMinuteSecond,
   isoDate ++ .blanks :: hourMinute]

/-- The internet date and time format up to its zone, with every width fixed. -/
def internetItems : List Item :=
  [.exact .year, .literal '-', .exact .month, .literal '-', .exact .day, .separator,
   .exact .hour, .literal ':', .exact .minute, .literal ':', .exact .second, .fraction]

/-- The date of the tolerant form, with blanks around every part. -/
def tolerantDate : List Item :=
  [.loose .year, .blanks, .literal '-', .loose .month, .blanks, .literal '-', .loose .day]

/-- The time of the tolerant form. -/
def tolerantTime : List Item :=
  [.loose .hour, .blanks, .literal ':', .loose .minute, .blanks, .literal ':', .loose .second,
   .fraction, .blanks]

end FilterQuery.Calendar

namespace FilterQuery
open Calendar

/-- Reads a date in the first format that fits. -/
def Date.read? (cs : List Char) : Option Date :=
  dateFormats.findSome? fun f => (readAll? f cs).bind Reading.date?

/-- Reads a date where blanks may stand around every part. -/
def Date.readTolerant? (cs : List Char) : Option Date :=
  (readAll? (tolerantDate ++ [.blanks]) cs).bind Reading.date?

/-- The universal time of parts read together with a zone, if the text ends there. -/
def Timestamp.ofZoned? (r : Reading) (offset : Int) (rest : List Char) : Option Timestamp :=
  if rest = [] then r.timestamp?.bind fun t => t.toUniversal? offset else none

/-- Reads the internet format with its zone. -/
def Timestamp.readInternet? (cs : List Char) : Option Timestamp := do
  let (r, rest) ← takeItems? internetItems {} cs
  let gap? (cs : List Char) := if cs.head? = some ':' then some cs.tail else none
  let (offset, rest) ← takeZone? gap? rest
  ofZoned? r offset rest

/-- Reads the tolerant form: blanks around the parts, any run of colons and blanks within
the zone, and the name `UTC` as a zone. -/
def Timestamp.readTolerant? (cs : List Char) : Option Timestamp := do
  let (r, rest) ← takeItems? (tolerantDate ++ .separator :: tolerantTime) {} cs
  let gap? (cs : List Char) := some (cs.dropWhile fun c => c == ':' || Text.isBlank c)
  let (offset, rest) ←
    if (rest.take 3).map Char.toLower = "utc".toList then some (0, rest.drop 3)
    else takeZone? gap? rest
  ofZoned? r offset (Text.skipBlanks rest)

/-- Reads a time: the internet format, then the formats without a zone, then a date, which
stands for its midnight. -/
def Timestamp.read? (cs : List Char) : Option Timestamp :=
  (readInternet? cs).or
    ((localFormats.findSome? fun f => (readAll? f cs).bind Reading.timestamp?).or
      ((Date.read? cs).map midnight))

end FilterQuery
