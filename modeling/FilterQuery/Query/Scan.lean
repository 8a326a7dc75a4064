import FilterQuery.Query.Operator
import FilterQuery.Text.Blank

/-!
The small scanners that a query is read with. Each looks at the unread text and returns what
it takes from the front together with the rest.

A backslash takes the character after it literally; at the very end it stands for nothing.
-/
namespace FilterQuery.Query

/-- A piece of query text, and whether it stood between quotes. -/
structure Term where
  text : String
  exact : Bool
  deriving DecidableEq

/-- Whether a keyword may end before this character. -/
def endsKeyword : Option Char → Bool
  | none => true
  | some c => Text.isBlank c || c == '(' || c == ')' || c == '!' || c == '"' || c == '|'

def atOr : List Char → Bool
  | a :: b :: cs => (a == 'o' || a == 'O') && (b == 'r' || b == 'R') && endsKeyword cs.head?
  | _ => false

def atAnd : List Char → Bool
  | a :: b :: c :: cs =>
    (a == 'a' || a == 'A') && (b == 'n' || b == 'N') && (c == 'd' || c == 'D') &&
      endsKeyword cs.head?
  | _ => false

def atAmpersands : List Char → Bool
  | '&' :: '&' :: _ => true
  | _ => false

def atTag : List Char → Bool
  | '|' :: '|' :: _ => true
  | _ => false

def atOperator (cs : List Char) : Bool := (Operator.at? cs).isSome

/-- Where a group ends: at a closing bracket or at the end of the text. -/
def atClose : List Char → Bool
  | [] => true
  | c :: _ => c == ')'

/-- Whether the next character belongs to a word outside quotes. -/
def inWord : List Char → Bool
  | [] => false
  | c :: cs => c != ')' && c != ':' && !Text.isBlank c && !atOperator (c :: cs)

/-- Takes characters while `p` holds of the unread text. -/
def takeEscapedWhile (p : List Char → Bool) : List Char → List Char × List Char
  | [] => ([], [])
  | '\\' :: c :: cs =>
    if p ('\\' :: c :: cs) then
      let (taken, rest) := takeEscapedWhile p cs
      (c :: taken, rest)
    else ([], '\\' :: c :: cs)
  | c :: cs =>
    if p (c :: cs) then
      let (taken, rest) := takeEscapedWhile p cs
      (if c = '\\' then taken else c :: taken, rest)
    else ([], c :: cs)

/-- Takes one character, whatever it is. -/
def takeEscaped : List Char → List Char × List Char
  | [] => ([], [])
  | '\\' :: c :: cs => ([c], cs)
  | c :: cs => (if c = '\\' then [] else [c], cs)

/-- Takes the text up to the closing quote, and that quote. -/
def takeQuoted (cs : List Char) : List Char × List Char :=
  let (taken, rest) := takeEscapedWhile (·.head? != some '"') cs
  (taken, rest.tail)

/-- Takes a word. After its first character it also ends before an exclamation mark. -/
def takeWord (cs : List Char) : List Char × List Char :=
  let (first, rest) := takeEscaped cs
  let (taken, rest) := takeEscapedWhile (fun cs => inWord cs && cs.head? != some '!') rest
  (first ++ taken, rest)

/-- Reads a field name or a search term. -/
def takeTerm : List Char → Term × List Char
  | '"' :: cs =>
    let (taken, rest) := takeQuoted cs
    (⟨String.ofList taken, true⟩, rest)
  | cs =>
    let (taken, rest) := takeWord cs
    (⟨String.ofList taken, false⟩, rest)

/-- Extends a term by an operator and the text after it, up to the next blank. -/
def extendTerm (t : Term) (cs : List Char) : Term × List Char :=
  let (taken, rest) := takeEscapedWhile (fun cs => atOperator cs || inWord cs) cs
  (⟨t.text ++ String.ofList taken, t.exact⟩, rest)

/-- Whether the next character belongs to a compared value outside quotes. -/
def inValue : List Char → Bool
  | [] => false
  | c :: _ => c != ')' && !Text.isBlank c

/-- Reads the value of a comparison, after blanks. -/
def takeValue (cs : List Char) : Term × List Char :=
  match Text.skipBlanks cs with
  | '"' :: cs =>
    let (taken, rest) := takeQuoted cs
    (⟨String.ofList taken, true⟩, rest)
  | cs =>
    let (taken, rest) := takeEscapedWhile inValue cs
    (⟨String.ofList taken, false⟩, rest)

/-- Takes the payload of a tag up to its closing bars, and those. Without closing bars the
payload runs to the end. -/
def takePayload : List Char → List Char × List Char
  | [] => ([], [])
  | '|' :: '|' :: cs => ([], cs)
  | c :: cs =>
    let (taken, rest) := takePayload cs
    (c :: taken, rest)

/-- Skips characters that can start no term. -/
def skipStray : List Char → List Char
  | [] => []
  | c :: cs => if atClose (c :: cs) || inWord (c :: cs) then c :: cs else skipStray cs

/-- The text after the closing bracket it may start with. -/
def dropClose : List Char → List Char
  | ')' :: cs => cs
  | cs => cs

/-- The text after a conjunction, if it starts with one. -/
def skipAnd (cs : List Char) : List Char :=
  if atAnd cs then cs.drop 3 else if atAmpersands cs then cs.drop 2 else cs

end FilterQuery.Query
