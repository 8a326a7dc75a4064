import FilterQuery.Query.Build
import Mathlib

/-!
Laws of computations that build constraints. `Yields` says that a value comes back and what
holds of every event on the way. `Ensures` allows a stop: it bounds every event, also those
before a stop, and every value that may come back.
-/
namespace FilterQuery.Query.Build

variable {C α β : Type}

@[ext] theorem ext {x y : Build C α} (he : x.events = y.events) (hr : x.result = y.result) :
    x = y := by
  cases x
  cases y
  simp_all

theorem map_id_eq (x : Build C α) : id <$> x = x := by
  show x >>= (fun a => pure (id a)) = x
  cases h : x.result with
  | error s => rw [bind_error h, ← h]
  | ok a =>
    rw [bind_ok h]
    ext1 <;> simp [h]

theorem pure_bind_eq (a : α) (f : α → Build C β) : pure a >>= f = f a := by
  rw [bind_ok rfl]
  rfl

theorem bind_assoc_eq {γ : Type} (x : Build C α) (f : α → Build C β) (g : β → Build C γ) :
    x >>= f >>= g = x >>= fun a => f a >>= g := by
  cases hx : x.result with
  | error s => rw [bind_error hx, bind_error hx, bind_error rfl]
  | ok a =>
    rw [bind_ok hx, bind_ok hx]
    cases hf : (f a).result with
    | error s => rw [bind_error rfl, bind_error hf]
    | ok b => rw [bind_ok rfl, bind_ok hf, List.append_assoc]

instance : LawfulMonad (Build C) :=
  LawfulMonad.mk' (Build C) map_id_eq pure_bind_eq bind_assoc_eq

/-- Two continuations that agree on the returned value are the same to a computation. -/
theorem bind_congr_of_ok {x : Build C α} {f g : α → Build C β}
    (h : ∀ a, x.result = .ok a → f a = g a) : x >>= f = x >>= g := by
  cases hx : x.result with
  | error s => rw [bind_error hx, bind_error hx]
  | ok a => rw [bind_ok hx, bind_ok hx, h a hx]

/-- A computation stops where its first step does, or else its second. -/
theorem bind_result_eq_error {x : Build C α} {f : α → Build C β} {s : Stop} :
    (x >>= f).result = .error s ↔
      x.result = .error s ∨ ∃ a, x.result = .ok a ∧ (f a).result = .error s := by
  cases h : x.result with
  | error s' => simp [bind_error h]
  | ok a => simp [bind_ok h]

variable {E : Event C → Prop}

/-- Every event satisfies `E`, and `a` comes back. -/
structure Yields (E : Event C → Prop) (a : α) (x : Build C α) : Prop where
  events : ∀ e ∈ x.events, E e
  result : x.result = .ok a

theorem yields_pure (a : α) : (pure a : Build C α).Yields E a := ⟨by simp, rfl⟩

theorem yields_make {c : C} (h : E (.built c)) : (make c).Yields E c := ⟨by simpa using h, rfl⟩

theorem yields_note {n : Note} (h : E (.noted n)) : (note n : Build C Unit).Yields E () :=
  ⟨by simpa using h, rfl⟩

theorem Yields.bind {x : Build C α} {f : α → Build C β} {a : α} {b : β} (hx : x.Yields E a)
    (hf : (f a).Yields E b) : (x >>= f).Yields E b := by
  rw [bind_ok hx.result]
  refine ⟨?_, hf.result⟩
  intro e he
  rcases List.mem_append.mp he with he | he
  · exact hx.events e he
  · exact hf.events e he

theorem Yields.map {x : Build C α} {a : α} (h : x.Yields E a) (f : α → β) :
    (f <$> x).Yields E (f a) :=
  h.bind (yields_pure _)

/-- Going through a list with computations that all come back. -/
theorem yields_mapM {f : α → Build C β} {g : α → β} {l : List α}
    (h : ∀ a ∈ l, (f a).Yields E (g a)) : (l.mapM f).Yields E (l.map g) := by
  induction l with
  | nil => exact yields_pure _
  | cons a l ih =>
    have hl := ih fun b hb => h b (List.mem_cons_of_mem a hb)
    rw [List.mapM_cons]
    exact (h a List.mem_cons_self).bind (hl.bind (yields_pure _))

/-- The value that comes back, whatever the events are. -/
abbrev Returns (a : α) (x : Build C α) : Prop := x.Yields (fun _ => True) a

/-- Every event satisfies `E`, and a value that comes back satisfies `P`. -/
structure Ensures (E : Event C → Prop) (P : α → Prop) (x : Build C α) : Prop where
  events : ∀ e ∈ x.events, E e
  result : ∀ a, x.result = .ok a → P a

variable {P : α → Prop} {Q : β → Prop}

theorem ensures_pure {a : α} (h : P a) : (pure a : Build C α).Ensures E P where
  events := by simp
  result := by
    intro b hb
    cases hb
    exact h

theorem ensures_stop (field : String) (unread : List Char) :
    (stop field unread : Build C α).Ensures E P where
  events := by simp [stop]
  result := by
    intro a ha
    cases ha

theorem Yields.ensures {x : Build C α} {a : α} (hx : x.Yields E a) (h : P a) :
    x.Ensures E P where
  events := hx.events
  result := by
    intro b hb
    rw [hx.result] at hb
    cases hb
    exact h

theorem Ensures.bind {x : Build C α} {f : α → Build C β} (hx : x.Ensures E P)
    (hf : ∀ a, P a → (f a).Ensures E Q) : (x >>= f).Ensures E Q := by
  cases h : x.result with
  | error s =>
    rw [bind_error h]
    refine ⟨hx.events, ?_⟩
    intro b hb
    cases hb
  | ok a =>
    have ha := hf a (hx.result a h)
    rw [bind_ok h]
    refine ⟨?_, ha.result⟩
    intro e he
    rcases List.mem_append.mp he with he | he
    · exact hx.events e he
    · exact ha.events e he

theorem Ensures.imp {x : Build C α} {R : α → Prop} (hx : x.Ensures E P) (h : ∀ a, P a → R a) :
    x.Ensures E R :=
  ⟨hx.events, fun a ha => h a (hx.result a ha)⟩

end FilterQuery.Query.Build
