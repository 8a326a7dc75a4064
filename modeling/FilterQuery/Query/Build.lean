import FilterQuery.Query.Note

/-!
Computations that build constraints. They record every constraint they build and every note
they make, in order, and either return a value or stop where an operator is missing.
-/
namespace FilterQuery.Query

inductive Event (C : Type) where
  | built (c : C)
  | noted (n : Note)

/-- Where an operator is missing: the field before it and the unread text. -/
structure Stop where
  field : String
  unread : List Char

structure Build (C α : Type) where
  events : List (Event C)
  result : Except Stop α

namespace Build

variable {C α β : Type}

protected def pure (a : α) : Build C α := ⟨[], .ok a⟩

protected def bind (x : Build C α) (f : α → Build C β) : Build C β :=
  match x.result with
  | .error stop => ⟨x.events, .error stop⟩
  | .ok a => ⟨x.events ++ (f a).events, (f a).result⟩

instance : Monad (Build C) where
  pure := Build.pure
  bind := Build.bind

/-- Returns a new constraint. -/
def make (c : C) : Build C C := ⟨[.built c], .ok c⟩

def note (n : Note) : Build C Unit := ⟨[.noted n], .ok ()⟩

def stop (field : String) (unread : List Char) : Build C α := ⟨[], .error ⟨field, unread⟩⟩

@[simp] theorem pure_events (a : α) : (pure a : Build C α).events = [] := rfl
@[simp] theorem pure_result (a : α) : (pure a : Build C α).result = .ok a := rfl
@[simp] theorem make_events (c : C) : (make c).events = [.built c] := rfl
@[simp] theorem make_result (c : C) : (make c).result = .ok c := rfl
@[simp] theorem note_events (n : Note) : (note n : Build C Unit).events = [.noted n] := rfl
@[simp] theorem note_result (n : Note) : (note n : Build C Unit).result = .ok () := rfl

theorem bind_ok {x : Build C α} {a : α} (h : x.result = .ok a) (f : α → Build C β) :
    x >>= f = ⟨x.events ++ (f a).events, (f a).result⟩ := by
  show Build.bind x f = _
  rw [Build.bind, h]

theorem bind_error {x : Build C α} {s : Stop} (h : x.result = .error s) (f : α → Build C β) :
    x >>= f = ⟨x.events, .error s⟩ := by
  show Build.bind x f = _
  rw [Build.bind, h]

/-- A computation succeeds when both its steps do. -/
theorem bind_result_eq_ok {x : Build C α} {f : α → Build C β} {b : β} :
    (x >>= f).result = .ok b ↔ ∃ a, x.result = .ok a ∧ (f a).result = .ok b := by
  cases h : x.result with
  | error s => simp [bind_error h]
  | ok a => simp [bind_ok h]

end Build
end FilterQuery.Query
