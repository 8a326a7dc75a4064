/-!
Blank characters, and the three things done with them: skipping a run of them, trimming
both ends of a text, and cutting a text into words. A character is blank when it has the
Unicode property White_Space.
-/
namespace FilterQuery.Text

/-- The characters with the Unicode property White_Space. -/
def isBlank (c : Char) : Bool :=
  let n := c.toNat
  (0x9 ≤ n && n ≤ 0xD) || n == 0x20 || n == 0x85 || n == 0xA0 || n == 0x1680 ||
    (0x2000 ≤ n && n ≤ 0x200A) || n == 0x2028 || n == 0x2029 || n == 0x202F ||
    n == 0x205F || n == 0x3000

/-- The text after its leading blanks. -/
def skipBlanks (cs : List Char) : List Char := cs.dropWhile isBlank

@[simp] theorem skipBlanks_nil : skipBlanks [] = [] := rfl

theorem skipBlanks_length_le (cs : List Char) : (skipBlanks cs).length ≤ cs.length :=
  (List.dropWhile_sublist isBlank).length_le

/-- The text after its leading blanks starts with none. -/
theorem head?_skipBlanks (cs : List Char) : ∀ c ∈ (skipBlanks cs).head?, isBlank c = false := by
  intro c hc
  have h := List.head?_dropWhile_not isBlank cs
  simp only [skipBlanks, Option.mem_def] at hc
  rw [hc] at h
  simpa using h

/-- The text without the blanks at either end. -/
def trimChars (cs : List Char) : List Char := (skipBlanks (skipBlanks cs).reverse).reverse

@[simp] theorem trimChars_nil : trimChars [] = [] := rfl

def trim (s : String) : String := String.ofList (trimChars s.toList)

/-- The maximal runs of non-blank characters, in order. -/
def words (cs : List Char) : List (List Char) := (cs.splitOnP isBlank).filter (! ·.isEmpty)

@[simp] theorem words_nil : words [] = [] := rfl

theorem ne_nil_of_mem_words {cs w : List Char} (h : w ∈ words cs) : w ≠ [] := by
  simpa using (List.mem_filter.mp h).2

end FilterQuery.Text
