import FilterQuery.Json.Basic
import FilterQuery.Number.FloatText

/-!
Two written forms of JSON values: the compact one, which is the spelling of the value's
tokens in order, and an indented one.
-/
namespace FilterQuery

/-- A double without a finite value is written `null`. -/
def Numeral.write : Numeral → List Char
  | .integer i => Digits.writeInt i
  | .real x =>
    match Number.parts x with
    | .finite negative m q => Number.Layout.json.finite negative m q
    | _ => "null".toList

namespace Json

/-- Quotes, backslashes and the controls below the space are escaped. -/
def escapedChar (c : Char) : List Char :=
  if c = '"' ∨ c = '\\' then ['\\', c]
  else if c.toNat = 0x8 then ['\\', 'b']
  else if c = '\t' then ['\\', 't']
  else if c = '\n' then ['\\', 'n']
  else if c.toNat = 0xC then ['\\', 'f']
  else if c = '\r' then ['\\', 'r']
  else if c.toNat < 0x20 then
    ['\\', 'u', '0', '0', Nat.digitChar (c.toNat / 16), Nat.digitChar (c.toNat % 16)]
  else [c]

/-- Whether a text has a character that is escaped. -/
def hasEscapes (s : String) : Bool := s.toList.any fun c => escapedChar c != [c]

def writeString (s : String) : List Char := '"' :: s.toList.flatMap escapedChar ++ ['"']

/-- The token of a text. -/
def Token.ofText (s : String) : Token := .string s (hasEscapes s)

/-- The spelling of a token. What denotes nothing is written `null`. -/
def Token.write : Token → List Char
  | .openArray => ['[']
  | .closeArray => [']']
  | .openObject => [Char.ofNat 0x7B]
  | .closeObject => [Char.ofNat 0x7D]
  | .comma => [',']
  | .colon => [':']
  | .null => "null".toList
  | .bool b => if b then "true".toList else "false".toList
  | .number n => n.write
  | .string s _ => writeString s
  | .unreadableNumber => "null".toList
  | .unreadableString => "null".toList

mutual

def tokens : Json → List Token
  | .null => [.null]
  | .bool b => [.bool b]
  | .number n => [.number n]
  | .string s => [.ofText s]
  | .array [] => [.openArray, .closeArray]
  | .array (j :: js) => .openArray :: tokens j ++ tokensItems js
  | .object [] => [.openObject, .closeObject]
  | .object ((k, j) :: fs) => .openObject :: .ofText k.text :: .colon :: tokens j ++ tokensFields fs
  | .unreadable => [.null]

/-- The tokens of an array after its first item. -/
def tokensItems : List Json → List Token
  | [] => [.closeArray]
  | j :: js => .comma :: tokens j ++ tokensItems js

/-- The tokens of an object after its first field. -/
def tokensFields : List (FieldName × Json) → List Token
  | [] => [.closeObject]
  | (k, j) :: fs => .comma :: .ofText k.text :: .colon :: tokens j ++ tokensFields fs

end

/-- The text without any blanks. -/
def compact (j : Json) : String := String.ofList (j.tokens.flatMap Token.write)

/-- A new line at an indentation level of two spaces. -/
def newLine (level : Nat) : List Char := '\n' :: List.replicate (2 * level) ' '

mutual

/-- One item or field a line; empty containers stay on theirs. -/
def writePretty (level : Nat) : Json → List Char
  | .array [] => ['[', ']']
  | .array (j :: js) =>
    '[' :: newLine (level + 1) ++ writePretty (level + 1) j ++ prettyItems level js
  | .object [] => Token.openObject.write ++ Token.closeObject.write
  | .object ((k, j) :: fs) =>
    Token.openObject.write ++ newLine (level + 1) ++ writeString k.text ++ ": ".toList ++
      writePretty (level + 1) j ++ prettyFields level fs
  | .null => Token.null.write
  | .bool b => (Token.bool b).write
  | .number n => n.write
  | .string s => writeString s
  | .unreadable => Token.null.write

def prettyItems (level : Nat) : List Json → List Char
  | [] => newLine level ++ [']']
  | j :: js => ',' :: newLine (level + 1) ++ writePretty (level + 1) j ++ prettyItems level js

def prettyFields (level : Nat) : List (FieldName × Json) → List Char
  | [] => newLine level ++ Token.closeObject.write
  | (k, j) :: fs =>
    ',' :: newLine (level + 1) ++ writeString k.text ++ ": ".toList ++
      writePretty (level + 1) j ++ prettyFields level fs

end

/-- The text with two spaces a level. -/
def pretty (j : Json) : String := String.ofList (writePretty 0 j)

end Json
end FilterQuery
