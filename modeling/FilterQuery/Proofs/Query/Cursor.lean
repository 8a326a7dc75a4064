import FilterQuery.Query.Lookahead
import Mathlib

/-!
A reader with a window against an index into the text. Whatever a reader is asked, and in whatever
order, it answers as the index does; the window and the input together are always the text from the
index on, and the window never outgrows what a reader looks ahead.
-/
namespace FilterQuery.Lookahead

/-- What a reader can be asked for. -/
inductive Request where
  | current
  | next (offset : Nat)
  | consume
  | consumeMany (count : Nat)
  | atEnd
  | currentIs (candidates : List Char)
  | nextIs (offset : Nat) (candidates : List Char)
  | position
  deriving DecidableEq, Repr

inductive Answer where
  | char (c : Option Char)
  | flag (b : Bool)
  | number (n : Nat)
  /-- The request only moves the reader. -/
  | moved
  deriving DecidableEq, Repr

/-- How far past the current character a request looks. -/
def Request.offset : Request → Nat
  | .next offset => offset
  | .nextIs offset _ => offset
  | _ => 0

def ask (r : Lookahead) : Request → Answer × Lookahead
  | .current => (.char r.current.1, r.current.2)
  | .next offset => (.char (r.next offset).1, (r.next offset).2)
  | .consume => (.char r.consume.1, r.consume.2)
  | .consumeMany count => (.moved, consumeMany count r)
  | .atEnd => (.flag r.atEnd.1, r.atEnd.2)
  | .currentIs candidates => (.flag (r.currentIs candidates).1, (r.currentIs candidates).2)
  | .nextIs offset candidates =>
    (.flag (r.nextIs offset candidates).1, (r.nextIs offset candidates).2)
  | .position => (.number r.position, r)

/-- An index into a text. -/
structure Cursor where
  text : List Char
  index : Nat

namespace Cursor

/-- The character `offset` places past the index. -/
def at? (c : Cursor) (offset : Nat) : Option Char := c.text[c.index + offset]?

/-- The index moved on, but not past the end. -/
def move (c : Cursor) (count : Nat) : Cursor :=
  { c with index := min (c.index + count) c.text.length }

def ask (c : Cursor) : Request → Answer × Cursor
  | .current => (.char (c.at? 0), c)
  | .next offset => (.char (c.at? offset), c)
  | .consume => (.char (c.at? 0), c.move 1)
  | .consumeMany count => (.moved, c.move count)
  | .atEnd => (.flag (c.text.length ≤ c.index), c)
  | .currentIs candidates => (.flag ((c.at? 0).any candidates.contains), c)
  | .nextIs offset candidates => (.flag ((c.at? offset).any candidates.contains), c)
  | .position => (.number c.index, c)

theorem move_move (c : Cursor) (m n : Nat) : (c.move m).move n = c.move (m + n) := by
  simp only [move, Cursor.mk.injEq, true_and]
  omega

end Cursor

/-- The answers to requests put one after the other, and the state after the last. -/
def askAll {σ : Type} (ask : σ → Request → Answer × σ) : σ → List Request → List Answer × σ
  | s, [] => ([], s)
  | s, q :: requests =>
    ((ask s q).1 :: (askAll ask (ask s q).2 requests).1, (askAll ask (ask s q).2 requests).2)

/-- The reader stands where the cursor does. -/
structure Tracks (r : Lookahead) (c : Cursor) : Prop where
  position : r.position = c.index
  unread : r.unread = c.text.drop c.index
  inside : c.index ≤ c.text.length

theorem tracks_ofText (text : List Char) : Tracks (.ofText text) ⟨text, 0⟩ :=
  ⟨rfl, rfl, Nat.zero_le _⟩

variable {r : Lookahead} {c : Cursor}

theorem Tracks.next (h : Tracks r c) (offset : Nat) :
    (r.next offset).1 = c.at? offset ∧ Tracks (r.next offset).2 c := by
  refine ⟨?_, ?_⟩
  · rw [next_fst, h.unread, List.getElem?_drop, Cursor.at?]
  · exact ⟨h.position, by rw [unread_next, h.unread], h.inside⟩

/-- Consuming counts a character, if there is one. -/
theorem position_consume (r : Lookahead) :
    r.consume.2.position = r.position + min 1 r.unread.length := by
  have hhead := r.consume_eq.1
  cases hw : (r.fill 1).window with
  | nil =>
    have hnil : r.unread = [] := by simpa [consume, hw] using hhead.symm
    simp [consume, hw, hnil]
  | cons d window =>
    have hpos : 0 < r.unread.length := by
      cases hu : r.unread with
      | nil => simp [consume, hw, hu] at hhead
      | cons d' rest => exact Nat.succ_pos _
    have hmin : min 1 r.unread.length = 1 := by omega
    simp [consume, hw, hmin]

theorem Tracks.consume (h : Tracks r c) :
    r.consume.1 = c.at? 0 ∧ Tracks r.consume.2 (c.move 1) := by
  obtain ⟨hhead, htail⟩ := r.consume_eq
  have hinside := h.inside
  refine ⟨?_, ?_, ?_, ?_⟩
  · rw [hhead, h.unread, List.head?_drop, Cursor.at?, Nat.add_zero]
  · rw [r.position_consume, h.unread, h.position, List.length_drop]
    simp only [Cursor.move]
    omega
  · rw [htail, h.unread, List.tail_drop, Cursor.move]
    rcases Nat.lt_or_ge c.index c.text.length with hlt | hge
    · rw [Nat.min_eq_left hlt]
    · rw [Nat.min_eq_right (by omega), List.drop_of_length_le (by omega), List.drop_length]
  · exact Nat.min_le_right _ _

/-- Moving on stops where there is nothing to consume, and no later step would move either. -/
theorem Tracks.consumeMany (h : Tracks r c) (count : Nat) :
    Tracks (Lookahead.consumeMany count r) (c.move count) := by
  induction count generalizing r c with
  | zero =>
    have hmin : min c.index c.text.length = c.index := Nat.min_eq_left h.inside
    simpa only [Lookahead.consumeMany, Cursor.move, Nat.add_zero, hmin] using h
  | succ count ih =>
    obtain ⟨hread, hnext⟩ := h.consume
    have hmove : c.move (count + 1) = (c.move 1).move count := by
      rw [Cursor.move_move, Nat.add_comm]
    rw [Lookahead.consumeMany, hmove]
    generalize r.consume = consumed at hread hnext
    obtain ⟨_ | d, r'⟩ := consumed
    · have hend : c.text.length ≤ c.index := by simpa [Cursor.at?] using hread.symm
      have hstay : (c.move 1).move count = c.move 1 := by
        simp only [Cursor.move, Cursor.mk.injEq, true_and]
        omega
      rw [hstay]
      exact hnext
    · exact ih hnext

/-- A request finds the reader where it finds the cursor, and leaves them so. -/
theorem Tracks.ask (h : Tracks r c) (q : Request) :
    (r.ask q).1 = (c.ask q).1 ∧ Tracks (r.ask q).2 (c.ask q).2 := by
  cases q with
  | current => exact ⟨congrArg Answer.char (h.next 0).1, (h.next 0).2⟩
  | next offset => exact ⟨congrArg Answer.char (h.next offset).1, (h.next offset).2⟩
  | consume => exact ⟨congrArg Answer.char h.consume.1, h.consume.2⟩
  | consumeMany count => exact ⟨rfl, h.consumeMany count⟩
  | atEnd =>
    refine ⟨congrArg Answer.flag ?_, (h.next 0).2⟩
    show (r.next 0).1.isNone = _
    rw [(h.next 0).1, Cursor.at?, Bool.eq_iff_iff]
    simp
  | currentIs candidates =>
    refine ⟨congrArg Answer.flag ?_, (h.next 0).2⟩
    exact congrArg (Option.any candidates.contains) (h.next 0).1
  | nextIs offset candidates =>
    refine ⟨congrArg Answer.flag ?_, (h.next offset).2⟩
    exact congrArg (Option.any candidates.contains) (h.next offset).1
  | position => exact ⟨congrArg Answer.number h.position, h⟩

theorem length_window_fill (r : Lookahead) (count : Nat) :
    (r.fill count).window.length ≤ max r.window.length count := by
  simp only [fill, List.length_append, List.length_take]
  omega

theorem length_window_consume (r : Lookahead) :
    r.consume.2.window.length ≤ max r.window.length 1 := by
  have hfill := r.length_window_fill 1
  cases hw : (r.fill 1).window with
  | nil => simp [consume, hw]
  | cons d window =>
    rw [hw, List.length_cons] at hfill
    simp only [consume, hw]
    omega

theorem length_window_consumeMany (count : Nat) (r : Lookahead) :
    (consumeMany count r).window.length ≤ max r.window.length 1 := by
  induction count generalizing r with
  | zero => exact Nat.le_max_left _ _
  | succ count ih =>
    have hconsume := r.length_window_consume
    rw [consumeMany]
    generalize r.consume = consumed at hconsume
    obtain ⟨_ | d, r'⟩ := consumed
    · exact hconsume
    · have hnext := ih r'
      simp only at hconsume hnext ⊢
      omega

/-- The window holds no more than it did, or than the request asked for. -/
theorem length_window_ask (r : Lookahead) (q : Request) :
    (r.ask q).2.window.length ≤ max r.window.length (q.offset + 1) := by
  cases q with
  | current => exact r.length_window_fill 1
  | next offset => exact r.length_window_fill (offset + 1)
  | consume => exact r.length_window_consume
  | consumeMany count => exact length_window_consumeMany count r
  | atEnd => exact r.length_window_fill 1
  | currentIs candidates => exact r.length_window_fill 1
  | nextIs offset candidates => exact r.length_window_fill (offset + 1)
  | position => exact Nat.le_max_left _ _

theorem Tracks.askAll (h : Tracks r c) (requests : List Request) :
    (askAll Lookahead.ask r requests).1 = (askAll Cursor.ask c requests).1 ∧
      Tracks (askAll Lookahead.ask r requests).2 (askAll Cursor.ask c requests).2 := by
  induction requests generalizing r c with
  | nil => exact ⟨rfl, h⟩
  | cons q requests ih =>
    obtain ⟨hanswer, hnext⟩ := h.ask q
    obtain ⟨hanswers, hlast⟩ := ih hnext
    exact ⟨by simp only [Lookahead.askAll, hanswer, hanswers], hlast⟩

theorem length_window_askAll {requests : List Request} {n : Nat}
    (hq : ∀ q ∈ requests, q.offset ≤ n) (h : r.window.length ≤ n + 1) :
    (askAll Lookahead.ask r requests).2.window.length ≤ n + 1 := by
  induction requests generalizing r with
  | nil => exact h
  | cons q requests ih =>
    rw [List.forall_mem_cons] at hq
    have hask := r.length_window_ask q
    exact ih hq.2 (by omega)

theorem text_askAll (c : Cursor) (requests : List Request) :
    (askAll Cursor.ask c requests).2.text = c.text := by
  induction requests generalizing c with
  | nil => rfl
  | cons q requests ih =>
    have hq : (c.ask q).2.text = c.text := by cases q <;> rfl
    rw [askAll, ih, hq]

/-- A reader answers any requests as an index into its text does. After them, and so between any
two of them, it stands at the index and its window with the input is the text from there on; and
the window holds no more than the current character and the three a reader looks ahead. -/
theorem askAll_refines (text : List Char) (requests : List Request) :
    ∃ answers r c, askAll Lookahead.ask (.ofText text) requests = (answers, r) ∧
      askAll Cursor.ask ⟨text, 0⟩ requests = (answers, c) ∧
      r.position = c.index ∧ c.index ≤ text.length ∧ r.window ++ r.input = text.drop c.index ∧
      ((∀ q ∈ requests, q.offset ≤ reach) → r.window.length ≤ 4) := by
  obtain ⟨hanswers, hlast⟩ := (tracks_ofText text).askAll requests
  have htext : (askAll Cursor.ask ⟨text, 0⟩ requests).2.text = text := text_askAll _ requests
  have hinside := hlast.inside
  have hunread := hlast.unread
  rw [htext] at hinside hunread
  refine ⟨_, _, (askAll Cursor.ask ⟨text, 0⟩ requests).2, rfl, ?_, hlast.position, hinside,
    hunread, ?_⟩
  · rw [hanswers]
  · intro hq
    exact length_window_askAll hq (Nat.zero_le _)

/-- Requests that look, move and run past the end by turns. -/
def sampleRequests : List Request :=
  [.next 3, .nextIs 1 ['<', '>'], .consumeMany 2, .next 3, .consume, .consumeMany 9, .atEnd]

theorem askAll_sampleRequests :
    (∀ q ∈ sampleRequests, q.offset ≤ reach) ∧
      ∃ r, askAll Lookahead.ask (.ofText "a>=b".toList) sampleRequests =
          ([.char (some 'b'), .flag true, .moved, .char none, .char (some '='), .moved,
            .flag true], r) ∧
        r.position = 4 ∧ r.window.length ≤ 4 := by
  have hoffset : ∀ q ∈ sampleRequests, q.offset ≤ reach := by decide
  obtain ⟨answers, r, c, hr, hc, hposition, -, -, hwindow⟩ :=
    askAll_refines "a>=b".toList sampleRequests
  have hcursor : askAll Cursor.ask ⟨"a>=b".toList, 0⟩ sampleRequests =
      ([.char (some 'b'), .flag true, .moved, .char none, .char (some '='), .moved, .flag true],
        ⟨"a>=b".toList, 4⟩) := by cbv
  obtain ⟨rfl, rfl⟩ := Prod.mk.inj (hc.symm.trans hcursor)
  exact ⟨hoffset, r, hr, hposition, hwindow hoffset⟩

end FilterQuery.Lookahead
