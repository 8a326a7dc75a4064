import FilterQuery.Text.Blank

/-!
Tags, the parts of a query between two pairs of bars: a type and a value with a colon
between them.
-/
namespace FilterQuery

/-- A part that is missing or blank is `none`. -/
structure Tag where
  type : Option String
  value : Option String
  deriving DecidableEq

namespace Tag

/-- The text without a pair of bars in front. -/
def dropOpening : List Char → List Char
  | '|' :: '|' :: cs => cs
  | cs => cs

/-- The text without a pair of bars at its end. -/
def dropClosing (cs : List Char) : List Char := (dropOpening cs.reverse).reverse

/-- A trimmed part, if anything is left of it. -/
def part? (cs : List Char) : Option String :=
  let trimmed := Text.trimChars cs
  if trimmed = [] then none else some (String.ofList trimmed)

/-- Splits a payload at its first colon. -/
def ofPayload (cs : List Char) : Tag :=
  ⟨part? (cs.takeWhile (· != ':')), part? (cs.dropWhile (· != ':')).tail⟩

/-- Reads a tag with or without the bars on either side. -/
def read (s : String) : Tag := ofPayload (dropClosing (dropOpening s.toList))

def write (t : Tag) : String := "||" ++ t.type.getD "" ++ ":" ++ t.value.getD "" ++ "||"

end Tag
end FilterQuery
