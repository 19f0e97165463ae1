import Mathlib

/-!
# Waiting until a flag is cleared

A thread waits on a condition variable as long as a flag is set.  It evaluates its
predicate under a mutex and then blocks, and a notification wakes it only if it is blocked.
Whoever clears the flag notifies afterwards, and takes the mutex for neither.

`Move` lists what can happen to such a `Waiter`.  The notification has a condition: when the
thread has found the flag set and is about to block, the notification is lost, so another
one must be still to come.  `Sound` is what the moves keep (`Sound.move`), and a sound
waiter is not stranded.
-/

namespace FlagWait

/-- Where the thread stands. -/
inductive Position where
  /-- It does not wait. -/
  | awake
  /-- It has found the flag set, and is about to block. -/
  | checked
  | blocked
  deriving DecidableEq, Repr

/-- What a notification does to the thread. -/
def Position.wake : Position → Position
  | .blocked => .awake
  | pos => pos

/-- The flag, the thread, and the notifications that are still to come from those that have
cleared the flag. -/
structure Waiter where
  flag : Bool
  position : Position
  owed : Nat
  deriving DecidableEq, Repr

/-- What can happen. -/
inductive Move (w : Waiter) : Waiter → Prop where
  | same : Move w w
  /-- The predicate is evaluated while the flag is set. -/
  | check (h : w.flag = true) : Move w { w with position := .checked }
  | block (h : w.position = .checked) : Move w { w with position := .blocked }
  /-- The thread wakes up by itself or for another reason, or does not begin to wait. -/
  | wake : Move w { w with position := .awake }
  | clear : Move w { w with flag := false, owed := w.owed + 1 }
  | notify (h : w.position = .checked → w.flag = true ∨ 2 ≤ w.owed) :
      Move w { w with position := w.position.wake, owed := w.owed - 1 }

/-- The thread is blocked, the flag is cleared, and no notification is to come. -/
def Waiter.Stranded (w : Waiter) : Prop :=
  w.position = .blocked ∧ w.flag = false ∧ w.owed = 0

instance (w : Waiter) : Decidable w.Stranded := inferInstanceAs (Decidable (_ ∧ _ ∧ _))

/-- Who waits has a notification to come, unless the flag is set. -/
def Waiter.Sound (w : Waiter) : Prop :=
  w.position ≠ .awake → w.flag = true ∨ 0 < w.owed

variable {w w' : Waiter}

/-- A notification that comes from somebody else. -/
theorem Move.other (w : Waiter) : Move w { w with position := w.position.wake } := by
  obtain ⟨flag, position, owed⟩ := w
  cases position with
  | awake => exact .same
  | checked => exact .same
  | blocked => exact .wake

theorem Waiter.Sound.not_stranded (h : w.Sound) : ¬ w.Stranded := by
  rintro ⟨hpos, hflag, howed⟩
  rcases h (by simp [hpos]) with hset | hpending
  · exact absurd hset (by simp [hflag])
  · omega

theorem Waiter.Sound.move (h : w.Sound) (hm : Move w w') : w'.Sound := by
  cases hm with
  | same => exact h
  | check hset => exact fun _ => .inl hset
  | block hchecked => exact fun _ => h (by simp [hchecked])
  | wake => exact fun hne => absurd rfl hne
  | clear => exact fun _ => .inr (Nat.succ_pos _)
  | notify hgap =>
      intro hne
      have hchecked : w.position = .checked := by
        cases hpos : w.position with
        | checked => rfl
        | awake => simp [hpos, Position.wake] at hne
        | blocked => simp [hpos, Position.wake] at hne
      exact (hgap hchecked).imp_right fun htwo => by
        show 0 < w.owed - 1
        omega

end FlagWait
