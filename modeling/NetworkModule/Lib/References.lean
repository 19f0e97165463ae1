import Mathlib

/-!
# Shared references

A *reference* has a holder and refers to a slot.  All the references that exist are in one
list.  A slot is *held* as long as the list has a reference to it, and it is *released* by a
change of the list that takes the last one out (`Released`).

References come from references: to copy one is to put a reference to a held slot into the
list, and this releases nothing (`not_released_of_subset`).  What a change keeps or adds is
enough to say what it releases, so the lemmas are about any two lists.
-/

namespace References

variable {η κ : Type*}

/-- A reference to a slot. -/
structure Ref (η κ : Type*) where
  holder : η
  slot : κ
  deriving DecidableEq, Repr

/-- Some reference is to the slot. -/
def Held (refs : List (Ref η κ)) (k : κ) : Prop := ∃ r ∈ refs, r.slot = k

instance [DecidableEq κ] (refs : List (Ref η κ)) (k : κ) : Decidable (Held refs k) :=
  inferInstanceAs (Decidable (∃ r ∈ refs, r.slot = k))

/-- The last reference to the slot goes. -/
def Released (refs refs' : List (Ref η κ)) (k : κ) : Prop := Held refs k ∧ ¬ Held refs' k

instance [DecidableEq κ] (refs refs' : List (Ref η κ)) (k : κ) : Decidable (Released refs refs' k) :=
  inferInstanceAs (Decidable (_ ∧ _))

theorem held_of_mem {refs : List (Ref η κ)} {r : Ref η κ} (h : r ∈ refs) : Held refs r.slot :=
  ⟨r, h, rfl⟩

theorem held_cons {refs : List (Ref η κ)} {r : Ref η κ} {k : κ} :
    Held (r :: refs) k ↔ r.slot = k ∨ Held refs k := by
  simp [Held]

/-- A change that takes no reference out releases nothing. -/
theorem not_released_of_subset {refs refs' : List (Ref η κ)} (h : refs ⊆ refs') (k : κ) :
    ¬ Released refs refs' k := by
  rintro ⟨⟨r, hr, hk⟩, hno⟩
  exact hno ⟨r, h hr, hk⟩

end References
