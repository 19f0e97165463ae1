import NetworkModule.Lib.Machine

/-!
# Bounded queues

The abstract view of a queue with a capacity that can be closed.  An item is put at the end
while the queue is open and has room, and taken from the front, also after the queue has been
closed.  A capacity of 0 is no bound.  The queue remembers what has entered it and what has
left it.

After every run, what has entered is what has left followed by what is in the queue, and the
queue is not longer than its capacity (`inv_run`).
-/

namespace BoundedFifo

variable {T : Type*}

/-- The state of a queue. -/
structure Fifo (T : Type*) where
  /-- Oldest first. -/
  items : List T := []
  closed : Bool := false
  /-- All items that have been put, in order. -/
  entered : List T := []
  /-- All items that have been taken, in order. -/
  left : List T := []
  deriving DecidableEq, Repr

/-- What can happen to a queue. -/
inductive Act (T : Type*) where
  | put (v : T)
  | take
  | close
  deriving DecidableEq, Repr

/-- The queue can take an item more. -/
def Room (capacity length : Nat) : Prop := capacity = 0 ∨ length < capacity

instance (capacity length : Nat) : Decidable (Room capacity length) :=
  inferInstanceAs (Decidable (_ ∨ _))

/-- One step of a queue. -/
def step (capacity : Nat) (s : Fifo T) : Act T → Option (Fifo T)
  | .put v =>
      if s.closed = false ∧ Room capacity s.items.length then
        some { s with items := s.items ++ [v], entered := s.entered ++ [v] }
      else none
  | .take =>
      match s.items with
      | [] => none
      | v :: rest => some { s with items := rest, left := s.left ++ [v] }
  | .close => some { s with closed := true }

theorem step_put_eq_some {capacity : Nat} {s s' : Fifo T} {v : T}
    (h : step capacity s (.put v) = some s') :
    s.closed = false ∧ s'.closed = false ∧ s'.entered = s.entered ++ [v] := by
  simp only [step] at h
  split at h
  next hok =>
    cases h
    exact ⟨hok.1, hok.1, rfl⟩
  · cases h

theorem step_put_eq_none {capacity : Nat} {s : Fifo T} {v : T}
    (h : step capacity s (.put v) = none) (hopen : s.closed = false) : capacity ≠ 0 := by
  rintro rfl
  simp [step, hopen, Room] at h

/-- Only `put` lets something in, and nothing opens a queue again. -/
theorem step_entered {capacity : Nat} {s s' : Fifo T} {a : Act T} (ha : a = .take ∨ a = .close)
    (h : step capacity s a = some s') :
    s'.entered = s.entered ∧ (s.closed = true → s'.closed = true) := by
  rcases ha with rfl | rfl
  · simp only [step] at h
    split at h
    · cases h
    · cases h
      exact ⟨rfl, id⟩
  · cases h
    exact ⟨rfl, fun _ => rfl⟩

/-- What holds in every state. -/
structure Inv (capacity : Nat) (s : Fifo T) : Prop where
  order : s.entered = s.left ++ s.items
  bound : 0 < capacity → s.items.length ≤ capacity

theorem Inv.step {capacity : Nat} {s s' : Fifo T} {a : Act T} (h : Inv capacity s)
    (hs : BoundedFifo.step capacity s a = some s') : Inv capacity s' := by
  cases a with
  | put v =>
      simp only [BoundedFifo.step] at hs
      split at hs
      next hok =>
        cases hs
        refine ⟨by simp [h.order], fun hcap => ?_⟩
        have hroom := hok.2.resolve_left (by omega)
        simpa using hroom
      · cases hs
  | take =>
      simp only [BoundedFifo.step] at hs
      split at hs
      · cases hs
      next v rest hitems =>
        cases hs
        refine ⟨by simp [h.order, hitems], fun hcap => ?_⟩
        have hbound := h.bound hcap
        rw [hitems, List.length_cons] at hbound
        exact Nat.le_of_succ_le hbound
  | close =>
      cases hs
      exact ⟨h.order, h.bound⟩

/-- Order and bound hold after every run. -/
theorem inv_run {capacity : Nat} {s : Fifo T} {as : List (Act T)}
    (hrun : Machine.run (step capacity) {} as = some s) : Inv capacity s :=
  Machine.run_invariant (fun _ _ _ h hs => h.step hs) ⟨rfl, fun _ => Nat.zero_le _⟩ hrun

end BoundedFifo
