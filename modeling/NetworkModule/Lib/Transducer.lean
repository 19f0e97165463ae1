import Mathlib

/-!
# Transducers and their outputs

A *transducer* is a function `step : σ → ι → σ × List α`: from a state and an
input to the next state and what it puts out.  `outputs` is what it puts out over
a list of inputs, and `Steps ok` says that `ok` holds of every input and the state
it comes in.

One transducer is compared with another that should put out the same, up to a
relation `P` of the elements.  If it never puts out more, and the outputs of one
step correspond exactly when `ok` holds there, then the outputs over a list of
inputs correspond exactly when `ok` holds at every step (`forall₂_outputs_iff`).
-/

namespace Transducer

variable {σ τ ι α β : Type*}

/-- What is put out over a list of inputs. -/
def outputs (step : σ → ι → σ × List α) : σ → List ι → List α
  | _, [] => []
  | s, i :: is => (step s i).2 ++ outputs step (step s i).1 is

/-- Every input satisfies `ok` in the state it comes in. -/
def Steps (step : σ → ι → σ × List α) (ok : σ → ι → Prop) : σ → List ι → Prop
  | _, [] => True
  | s, i :: is => ok s i ∧ Steps step ok (step s i).1 is

instance Steps.instDecidable (step : σ → ι → σ × List α) (ok : σ → ι → Prop)
    [∀ s i, Decidable (ok s i)] : ∀ (s : σ) (is : List ι), Decidable (Steps step ok s is)
  | _, [] => isTrue trivial
  | s, i :: is =>
      have := Steps.instDecidable step ok (step s i).1 is
      inferInstanceAs (Decidable (ok s i ∧ Steps step ok (step s i).1 is))

/-- A condition may be replaced by one that is the same in every state. -/
theorem steps_congr {step : σ → ι → σ × List α} {ok ok' : σ → ι → Prop}
    (h : ∀ s i, ok s i ↔ ok' s i) (s : σ) (is : List ι) :
    Steps step ok s is ↔ Steps step ok' s is := by
  induction is generalizing s with
  | nil => exact Iff.rfl
  | cons i is ih => exact and_congr (h s i) (ih _)

/-- A conjunction holds at every step exactly when both conditions do. -/
theorem steps_and {step : σ → ι → σ × List α} {ok ok' : σ → ι → Prop} (s : σ) (is : List ι) :
    Steps step (fun s i => ok s i ∧ ok' s i) s is ↔ Steps step ok s is ∧ Steps step ok' s is := by
  induction is generalizing s with
  | nil => exact (and_self_iff).symm
  | cons i is ih => exact (and_congr_right' (ih _)).trans and_and_and_comm

/-! ## Comparing two transducers -/

theorem forall₂_append_iff {P : α → β → Prop} {as as' : List α} {bs bs' : List β}
    (h : bs.length ≤ as.length) (h' : bs'.length ≤ as'.length) :
    List.Forall₂ P (as ++ as') (bs ++ bs') ↔ List.Forall₂ P as bs ∧ List.Forall₂ P as' bs' := by
  constructor
  · intro hall
    have hlen := hall.length_eq
    rw [List.length_append, List.length_append] at hlen
    have heq : as.length = bs.length := by omega
    have htake := List.forall₂_take as.length hall
    have hdrop := List.forall₂_drop as.length hall
    rw [List.take_left, heq, List.take_left] at htake
    rw [List.drop_left, heq, List.drop_left] at hdrop
    exact ⟨htake, hdrop⟩
  · rintro ⟨hall, hall'⟩
    exact List.rel_append hall hall'

section
variable {step : σ → ι → σ × List α} {step' : τ → ι → τ × List β} {R : σ → τ → Prop}

/-- A transducer that never puts out more in one step does not over a list of inputs. -/
theorem length_outputs_le (hR : ∀ s t i, R s t → R (step s i).1 (step' t i).1)
    (hlen : ∀ s t i, R s t → (step' t i).2.length ≤ (step s i).2.length) {s : σ} {t : τ}
    (hs : R s t) (is : List ι) : (outputs step' t is).length ≤ (outputs step s is).length := by
  induction is generalizing s t with
  | nil => exact le_refl _
  | cons i is ih =>
      rw [outputs, outputs, List.length_append, List.length_append]
      exact Nat.add_le_add (hlen s t i hs) (ih (hR s t i hs))

/-- The outputs correspond exactly when `ok` holds at every step. -/
theorem forall₂_outputs_iff {P : α → β → Prop} {ok : σ → ι → Prop}
    (hR : ∀ s t i, R s t → R (step s i).1 (step' t i).1)
    (hlen : ∀ s t i, R s t → (step' t i).2.length ≤ (step s i).2.length)
    (hok : ∀ s t i, R s t → (List.Forall₂ P (step s i).2 (step' t i).2 ↔ ok s i)) {s : σ} {t : τ}
    (hs : R s t) (is : List ι) :
    List.Forall₂ P (outputs step s is) (outputs step' t is) ↔ Steps step ok s is := by
  induction is generalizing s t with
  | nil => exact iff_of_true .nil trivial
  | cons i is ih =>
      rw [outputs, outputs,
        forall₂_append_iff (hlen s t i hs) (length_outputs_le hR hlen (hR s t i hs) is)]
      exact and_congr (hok s t i hs) (ih (hR s t i hs))

end

end Transducer
