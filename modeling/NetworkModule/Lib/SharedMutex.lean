import Mathlib.Data.List.Basic
import Mathlib.Tactic.ByContra

/-!
# Shared mutexes

A mutex that any number of parties may hold shared, or one party alone.  A party that holds it
does not take it again.  `Exclusive` is what the mutex guarantees.  The operations say when they
are enabled: one that would have to wait gives `none`.
-/

namespace SharedMutex

variable {P : Type*}

/-- Who holds the mutex. -/
structure Mutex (P : Type*) where
  readers : List P := []
  writer : Option P := none
  deriving DecidableEq, Repr

/-- A writer is alone. -/
def Exclusive (m : Mutex P) : Prop := m.writer ≠ none → m.readers = []

def lockShared (m : Mutex P) (p : P) : Option (Mutex P) :=
  if m.writer = none then some { m with readers := p :: m.readers } else none

def unlockShared [DecidableEq P] (m : Mutex P) (p : P) : Mutex P :=
  { m with readers := m.readers.filter fun q => q ≠ p }

def lock (m : Mutex P) (p : P) : Option (Mutex P) :=
  if m.readers = [] ∧ m.writer = none then some { m with writer := some p } else none

def unlock (m : Mutex P) : Mutex P := { m with writer := none }

section
variable {m m' : Mutex P} {p q : P}

theorem exclusive_init : Exclusive ({} : Mutex P) := fun _ => rfl

theorem lockShared_eq_some (h : lockShared m p = some m') :
    m.writer = none ∧ m' = { m with readers := p :: m.readers } := by
  rw [lockShared] at h
  split at h
  next hw => exact ⟨hw, (Option.some.inj h).symm⟩
  · cases h

theorem lock_eq_some (h : lock m p = some m') :
    (m.readers = [] ∧ m.writer = none) ∧ m' = { m with writer := some p } := by
  rw [lock] at h
  split at h
  next hfree => exact ⟨hfree, (Option.some.inj h).symm⟩
  · cases h

theorem mem_readers_unlockShared [DecidableEq P] :
    q ∈ (unlockShared m p).readers ↔ q ∈ m.readers ∧ q ≠ p := by
  simp [unlockShared]

theorem Exclusive.lockShared (h : SharedMutex.lockShared m p = some m') : Exclusive m' := by
  obtain ⟨hw, rfl⟩ := lockShared_eq_some h
  exact fun hne => absurd hw hne

theorem Exclusive.unlockShared [DecidableEq P] (h : Exclusive m) (p : P) :
    Exclusive (unlockShared m p) :=
  fun hne => by rw [SharedMutex.unlockShared, h hne]; rfl

theorem Exclusive.lock (h : SharedMutex.lock m p = some m') : Exclusive m' := by
  obtain ⟨hfree, rfl⟩ := lock_eq_some h
  exact fun _ => hfree.1

theorem exclusive_unlock (m : Mutex P) : Exclusive (unlock m) := fun h => absurd rfl h

end

end SharedMutex
