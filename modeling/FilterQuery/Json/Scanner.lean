import FilterQuery.Json.Basic
import FilterQuery.Number.FloatText

/-!
From the characters of a JSON text to its tokens.

A number with a fraction or an exponent, or of more than 64 bits, becomes a double: its
digits are gathered in 64 bits, further ones are dropped, and the result is scaled by a
power of ten.
-/
namespace FilterQuery.Json

def hexDigit? (c : Char) : Option Nat :=
  if c.isDigit then some (c.toNat - '0'.toNat)
  else if 'a' ≤ c ∧ c ≤ 'f' then some (c.toNat - 'a'.toNat + 10)
  else if 'A' ≤ c ∧ c ≤ 'F' then some (c.toNat - 'A'.toNat + 10)
  else none

def hexValue? (cs : List Char) : Option Nat :=
  cs.foldlM (fun n c => (hexDigit? c).map (16 * n + ·)) 0

/-- What a letter after a backslash stands for. -/
def escapeUnit? (c : Char) : Option Nat :=
  match c with
  | '"' => some 0x22
  | '\\' => some 0x5C
  | '/' => some 0x2F
  | 'b' => some 0x8
  | 'f' => some 0xC
  | 'n' => some 0xA
  | 'r' => some 0xD
  | 't' => some 0x9
  | _ => none

/-- The units of a string up to its closing quote: code points, and the halves of surrogate
pairs that escapes may give. -/
def scanUnits : List Char → Option (List Nat × List Char)
  | [] => none
  | ['\\'] => none
  | '"' :: cs => some ([], cs)
  | '\\' :: 'u' :: a :: b :: c :: d :: cs => do
    let u ← hexValue? [a, b, c, d]
    let (us, rest) ← scanUnits cs
    return (u :: us, rest)
  | '\\' :: e :: cs => do
    let u ← escapeUnit? e
    let (us, rest) ← scanUnits cs
    return (u :: us, rest)
  | c :: cs =>
    if c.toNat < 0x20 then none
    else (scanUnits cs).map fun (us, rest) => (c.toNat :: us, rest)

/-- Whether the string that starts here has escapes: a backslash then comes before any quote. -/
def startsEscaped (cs : List Char) : Bool := (cs.takeWhile (· != '"')).contains '\\'

def isHighHalf (u : Nat) : Bool := 0xD800 ≤ u && u < 0xDC00
def isLowHalf (u : Nat) : Bool := 0xDC00 ≤ u && u < 0xE000

/-- Joins the two halves of each pair. A half by itself denotes nothing. -/
def joinUnits : List Nat → Option (List Char)
  | [] => some []
  | [u] => if isHighHalf u || isLowHalf u then none else some [Char.ofNat u]
  | u :: v :: us =>
    if isHighHalf u then
      if isLowHalf v then
        (joinUnits us).map (Char.ofNat (0x10000 + (u - 0xD800) * 0x400 + (v - 0xDC00)) :: ·)
      else none
    else if isLowHalf u then none
    else (joinUnits (v :: us)).map (Char.ofNat u :: ·)

/-- Takes digits into `n` while the result fits in 64 bits, and returns those left over. -/
def gather : Nat → List Char → Nat × List Char
  | n, [] => (n, [])
  | n, d :: ds =>
    let next := 10 * n + (d.toNat - '0'.toNat)
    if next < UInt64.size then gather next ds else (n, d :: ds)

def powerOfTen (k : Nat) : Float := Float.ofScientific 1 false k

/-- The largest power of ten that is a double. -/
def greatestPower : Nat := 308

/-- Divides by the greatest power of ten until the remaining exponent is one of a double. No
64-bit number outlasts three such steps. -/
def scaleDown : Nat → Float → Int → Float
  | 0, x, _ => x
  | steps + 1, x, e =>
    if e < -(greatestPower : Int) then
      scaleDown steps (x / powerOfTen greatestPower) (e + greatestPower)
    else x / powerOfTen e.natAbs

/-- Scales by a power of ten with one rounding, unless that leaves the range of doubles. -/
def scale? (x : Float) (e : Int) : Option Float :=
  if x == 0 then some x
  else if e < 0 then some (scaleDown 3 x e)
  else if (greatestPower : Int) < e then none
  else
    let y := x * powerOfTen e.toNat
    if Number.parts y = .infinite false then none else some y

/-- The parts of a written number: digits before the point, digits after it, and the sign
and the digits of the exponent. -/
structure NumberText where
  negative : Bool
  whole : List Char
  fraction : Option (List Char)
  exponent : Option (Bool × List Char)

/-- The greatest exponent with 31 bits. -/
def greatestExponent : Nat := 0x7FFFFFFF

/-- The double a written number denotes. Exponents of more than 31 bits lead out of range or
to zero. -/
def NumberText.real? (t : NumberText) : Option Float :=
  let (n, dropped) := gather 0 t.whole
  let fraction := t.fraction.getD []
  let (n, ignored) := gather n fraction
  let shift : Int := dropped.length - (fraction.length - ignored.length : Nat)
  let x := Float.ofScientific n false 0
  let magnitude? :=
    match t.exponent with
    | none => scale? x shift
    | some (negative, ds) =>
      let e := Digits.value ds
      if e ≤ greatestExponent then scale? x (if negative then shift - e else shift + e)
      else if n = 0 ∨ negative then some 0
      else none
  magnitude?.map fun y => if t.negative then -y else y

/-- The number a text denotes. Minus zero is a double. -/
def NumberText.numeral? (t : NumberText) : Option Numeral :=
  let i := Digits.applySign t.negative (Digits.value t.whole)
  let fits : Bool := if t.negative then Int64.minValue.toInt ≤ i && i < 0 else i < UInt64.size
  if t.fraction = none ∧ t.exponent = none ∧ fits then some (.integer i)
  else t.real?.map Numeral.real

/-- A zero by itself, or digits that start with another one. -/
def takeWhole? : List Char → Option (List Char × List Char)
  | '0' :: cs => some (['0'], cs)
  | cs =>
    let ds := cs.takeWhile Char.isDigit
    if ds = [] then none else some (ds, cs.dropWhile Char.isDigit)

def takeFraction? : List Char → Option (Option (List Char) × List Char)
  | '.' :: cs =>
    let ds := cs.takeWhile Char.isDigit
    if ds = [] then none else some (some ds, cs.dropWhile Char.isDigit)
  | cs => some (none, cs)

def takeExponent? : List Char → Option (Option (Bool × List Char) × List Char)
  | [] => some (none, [])
  | c :: cs =>
    if c = 'e' ∨ c = 'E' then
      let (negative, cs) := Digits.splitSign cs
      let ds := cs.takeWhile Char.isDigit
      if ds = [] then none else some (some (negative, ds), cs.dropWhile Char.isDigit)
    else some (none, c :: cs)

def takeNumber? (cs : List Char) : Option (NumberText × List Char) := do
  let (negative, cs) :=
    match cs with
    | '-' :: cs => (true, cs)
    | cs => (false, cs)
  let (whole, cs) ← takeWhole? cs
  let (fraction, cs) ← takeFraction? cs
  let (exponent, cs) ← takeExponent? cs
  return (⟨negative, whole, fraction, exponent⟩, cs)

/-- The blanks of JSON. -/
def isSpace (c : Char) : Bool := c == ' ' || c == '\n' || c == '\t' || c == '\r'

/-- Takes the word `w` off the front. -/
def takeWord? (w : String) (token : Token) (cs : List Char) : Option (Token × List Char) :=
  if w.toList.isPrefixOf cs then some (token, cs.drop w.length) else none

/-- The token at the front of a text that starts with no blank. -/
def takeToken? : List Char → Option (Token × List Char)
  | [] => none
  | c :: cs =>
    if c = '[' then some (.openArray, cs)
    else if c = ']' then some (.closeArray, cs)
    else if c.toNat = 0x7B then some (.openObject, cs)
    else if c.toNat = 0x7D then some (.closeObject, cs)
    else if c = ',' then some (.comma, cs)
    else if c = ':' then some (.colon, cs)
    else if c = 'n' then takeWord? "null" .null (c :: cs)
    else if c = 't' then takeWord? "true" (.bool true) (c :: cs)
    else if c = 'f' then takeWord? "false" (.bool false) (c :: cs)
    else if c = '"' then
      (scanUnits cs).map fun (us, rest) =>
        let text := (joinUnits us).map String.ofList
        ((text.map (Token.string · (startsEscaped cs))).getD .unreadableString, rest)
    else
      (takeNumber? (c :: cs)).map fun (t, rest) =>
        ((t.numeral?.map Token.number).getD .unreadableNumber, rest)

/-- The tokens of a text, if it has nothing else but blanks. -/
def scan : List Char → Option (List Token)
  | [] => some []
  | c :: cs =>
    if isSpace c then scan cs
    else
      match takeToken? (c :: cs) with
      | none => none
      | some (t, rest) =>
        if rest.length ≤ cs.length then (scan rest).map (t :: ·) else none
termination_by cs => cs.length

end FilterQuery.Json
