/-!
A forward reader of characters with a small window. Characters come from the input one by
one and stay in the window until they are consumed.
-/
namespace FilterQuery

structure Lookahead where
  /-- Characters taken from the input and not yet consumed. -/
  window : List Char
  input : List Char
  /-- How many characters have been consumed. -/
  position : Nat
  deriving DecidableEq, Repr

namespace Lookahead

/-- How far past the current character a reader looks. -/
def reach : Nat := 3

def ofText (cs : List Char) : Lookahead := ⟨[], cs, 0⟩

/-- Takes characters from the input until the window holds `count` of them. -/
def fill (r : Lookahead) (count : Nat) : Lookahead :=
  { r with
    window := r.window ++ r.input.take (count - r.window.length)
    input := r.input.drop (count - r.window.length) }

/-- The text that is not consumed yet. -/
def unread (r : Lookahead) : List Char := r.window ++ r.input

@[simp] theorem unread_ofText (cs : List Char) : (ofText cs).unread = cs := rfl

@[simp] theorem unread_fill (r : Lookahead) (count : Nat) : (r.fill count).unread = r.unread := by
  simp [fill, unread]

@[simp] theorem position_fill (r : Lookahead) (count : Nat) :
    (r.fill count).position = r.position := rfl

/-- The character `offset` places past the current one. -/
def next (r : Lookahead) (offset : Nat) : Option Char × Lookahead :=
  let r := r.fill (offset + 1)
  (r.window[offset]?, r)

@[simp] theorem next_fst (r : Lookahead) (offset : Nat) :
    (r.next offset).1 = r.unread[offset]? := by
  simp only [next, fill, unread]
  rw [List.getElem?_append, List.getElem?_append]
  split
  · rfl
  · rw [List.getElem?_take_of_lt (by omega)]

@[simp] theorem unread_next (r : Lookahead) (offset : Nat) :
    (r.next offset).2.unread = r.unread := unread_fill r (offset + 1)

def current (r : Lookahead) : Option Char × Lookahead := r.next 0

/-- Returns the current character and moves past it. At the end nothing changes. -/
def consume (r : Lookahead) : Option Char × Lookahead :=
  let r := r.fill 1
  match r.window with
  | [] => (none, r)
  | c :: window => (some c, { r with window, position := r.position + 1 })

/-- Consuming takes the head of the text. -/
theorem consume_eq (r : Lookahead) :
    r.consume.1 = r.unread.head? ∧ r.consume.2.unread = r.unread.tail := by
  rw [← unread_fill r 1]
  simp only [consume]
  cases h : (r.fill 1).window with
  | cons c window => simp [unread, h]
  | nil =>
    have hr : r.window ++ r.input.take (1 - r.window.length) = [] := h
    obtain ⟨hw, ht⟩ := List.append_eq_nil_iff.mp hr
    have hi : r.input = [] := by simpa [hw] using ht
    simp [unread, fill, hw, hi]

/-- Moves past `count` characters, or to the end. -/
def consumeMany : Nat → Lookahead → Lookahead
  | 0, r => r
  | count + 1, r =>
    match r.consume with
    | (none, r) => r
    | (some _, r) => consumeMany count r

def atEnd (r : Lookahead) : Bool × Lookahead :=
  let (c, r) := r.current
  (c.isNone, r)

/-- Whether the character `offset` places ahead is one of `candidates`. -/
def nextIs (r : Lookahead) (offset : Nat) (candidates : List Char) : Bool × Lookahead :=
  let (c, r) := r.next offset
  (c.any candidates.contains, r)

def currentIs (r : Lookahead) (candidates : List Char) : Bool × Lookahead :=
  r.nextIs 0 candidates

end Lookahead
end FilterQuery
