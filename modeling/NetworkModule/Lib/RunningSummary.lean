import Mathlib

/-!
# Running summaries

The summary of a list of numbers is its least and greatest and last element, its mean and its
length.  It can be kept up to date one element at a time (`summarize_concat`): the mean moves
towards the new element by the share that this has in the list.

A program that keeps a summary has it in its state.  `view_foldl` says what one step has to do for
the state to have the summary of everything that was added.
-/

namespace RunningSummary

/-- A summary of numbers. -/
structure Summary (K : Type*) where
  least : K
  greatest : K
  last : K
  mean : K
  count : ℕ
  deriving DecidableEq, Repr

section
variable {K : Type*} [LinearOrder K]

theorem min_concat {xs : List K} (h : xs ≠ []) (x : K) :
    (xs ++ [x]).min (List.concat_ne_nil x xs) = min (xs.min h) x := by
  cases xs with
  | nil => exact absurd rfl h
  | cons y ys => exact List.foldl_concat ..

theorem max_concat {xs : List K} (h : xs ≠ []) (x : K) :
    (xs ++ [x]).max (List.concat_ne_nil x xs) = max (xs.max h) x := by
  cases xs with
  | nil => exact absurd rfl h
  | cons y ys => exact List.foldl_concat ..

end

section
variable {K : Type*} [Field K] [CharZero K]

/-- The mean weighted with its count is the mean moved by a share. -/
theorem weighted_mean (mean x : K) (n : ℕ) :
    (mean * n + x) / (n + 1 : ℕ) = mean + (x - mean) / (n + 1 : ℕ) := by
  have hne : ((n + 1 : ℕ) : K) ≠ 0 := Nat.cast_ne_zero.mpr n.succ_ne_zero
  field_simp
  push_cast
  ring

theorem mean_concat {xs : List K} (h : xs ≠ []) (x : K) :
    (xs ++ [x]).sum / (xs.length + 1 : ℕ) =
      xs.sum / xs.length + (x - xs.sum / xs.length) / (xs.length + 1 : ℕ) := by
  have hne : (xs.length : K) ≠ 0 := Nat.cast_ne_zero.mpr (List.length_pos_iff.mpr h).ne'
  rw [← weighted_mean, div_mul_cancel₀ _ hne, List.sum_append, List.sum_singleton]

end

section
variable {K : Type*} [Field K] [LinearOrder K]

/-- The summary of a list. -/
def summarize (xs : List K) (h : xs ≠ []) : Summary K where
  least := xs.min h
  greatest := xs.max h
  last := xs.getLast h
  mean := xs.sum / xs.length
  count := xs.length

/-- The summary of one element. -/
def Summary.single (x : K) : Summary K := ⟨x, x, x, x, 1⟩

/-- The summary with one more element. -/
def Summary.add (s : Summary K) (x : K) : Summary K where
  least := min s.least x
  greatest := max s.greatest x
  last := x
  mean := s.mean + (x - s.mean) / (s.count + 1 : ℕ)
  count := s.count + 1

theorem summarize_singleton (x : K) : summarize [x] (List.cons_ne_nil x []) = .single x := by
  simp [summarize, Summary.single]

theorem summarize_concat [CharZero K] {xs : List K} (h : xs ≠ []) (x : K) :
    summarize (xs ++ [x]) (List.concat_ne_nil x xs) = (summarize xs h).add x := by
  simp only [summarize, Summary.add, min_concat h, max_concat h, List.getLast_concat,
    List.length_append, List.length_singleton, mean_concat h]

/-- A state that has the summary of the first element after one step, and adds each later one,
has the summary of all of them. -/
theorem view_foldl [CharZero K] {σ ι : Type*} {step : σ → ι → σ} {value : ι → K}
    {view : σ → Summary K} {s : σ} (hfirst : ∀ i, view (step s i) = .single (value i))
    (hnext : ∀ t i, (view t).count ≠ 0 → view (step t i) = (view t).add (value i)) (is : List ι)
    (h : is.map value ≠ []) : view (is.foldl step s) = summarize (is.map value) h := by
  induction is using List.reverseRecOn with
  | nil => exact absurd rfl h
  | append_singleton is i ih =>
      rw [List.foldl_concat]
      cases is with
      | nil => exact (hfirst i).trans (summarize_singleton _).symm
      | cons j js =>
          have hview := ih (List.cons_ne_nil _ _)
          rw [hnext _ i (by rw [hview]; exact Nat.succ_ne_zero _), hview]
          simp only [List.map_append]
          exact (summarize_concat _ _).symm

end

end RunningSummary
