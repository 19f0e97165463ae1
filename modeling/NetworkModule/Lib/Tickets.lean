import Mathlib

/-!
# Tickets

Threads draw numbers from a counter and use them later, in another critical section.  In
between they may overtake each other, so the order in which the tickets are used need not be
that of their numbers.  Tickets of different keys have nothing to do with each other.

`Move` lists what can happen.  The use of a ticket has a condition: no other ticket of its
key with a smaller number is still waiting.  `Sound` is what the moves keep, and its part
`sorted` says that the tickets of a key were used in the order of their numbers.
-/

namespace Tickets

variable {τ κ : Type*}

/-- The counter, the tickets drawn and not used yet, and the tickets used, in order. -/
structure Desk (τ : Type*) where
  next : Nat
  waiting : List τ
  used : List τ

variable (key : τ → κ) (number : τ → Nat)

/-- The tickets of a key were used in the order of their numbers. -/
def InOrder (used : List τ) : Prop :=
  used.Pairwise fun t t' => key t = key t' → number t < number t'

/-- What holds if nobody was overtaken. -/
structure Sound (d : Desk τ) : Prop where
  sorted : InOrder key number d.used
  used_le : ∀ t ∈ d.used, number t ≤ d.next
  waiting_le : ∀ t ∈ d.waiting, number t ≤ d.next
  /-- Who waits comes after those that are done. -/
  ahead : ∀ t ∈ d.waiting, ∀ u ∈ d.used, key u = key t → number u < number t

/-- What can happen. -/
inductive Move (d : Desk τ) : Desk τ → Prop where
  /-- Tickets are dropped, or numbers go to somebody else. -/
  | drop {n : Nat} {ts : List τ} (hn : d.next ≤ n) (hts : ts ⊆ d.waiting) :
      Move d { d with next := n, waiting := ts }
  | draw {t : τ} {ts : List τ} (ht : number t = d.next + 1) (hts : ts ⊆ t :: d.waiting) :
      Move d { d with next := d.next + 1, waiting := ts }
  | use {t : τ} {ts : List τ} (ht : t ∈ d.waiting) (hts : ts ⊆ d.waiting)
      (hfirst : ∀ u ∈ ts, key u = key t → number t < number u) :
      Move d { d with waiting := ts, used := d.used ++ [t] }
  /-- The counter starts again. -/
  | restart : Move d ⟨0, [], []⟩

variable {key : τ → κ} {number : τ → Nat}

theorem sound_empty : Sound key number (⟨0, [], []⟩ : Desk τ) where
  sorted := List.Pairwise.nil
  used_le := fun _ h => by cases h
  waiting_le := fun _ h => by cases h
  ahead := fun _ h => by cases h

theorem Sound.move {d d' : Desk τ} (h : Sound key number d) (hm : Move key number d d') :
    Sound key number d' := by
  cases hm with
  | drop hn hts =>
      exact ⟨h.sorted, fun t ht => (h.used_le t ht).trans hn,
        fun t ht => (h.waiting_le t (hts ht)).trans hn, fun t ht => h.ahead t (hts ht)⟩
  | draw hnew hts =>
      refine ⟨h.sorted, fun t ht => (h.used_le t ht).trans (Nat.le_succ _), fun t ht => ?_,
        fun t ht u hu hkey => ?_⟩
      · rcases List.mem_cons.mp (hts ht) with rfl | ht
        · exact hnew.le
        · exact (h.waiting_le t ht).trans (Nat.le_succ _)
      · rcases List.mem_cons.mp (hts ht) with rfl | ht
        · rw [hnew]
          exact Nat.lt_succ_of_le (h.used_le u hu)
        · exact h.ahead t ht u hu hkey
  | @use t ts hmem hts hfirst =>
      refine ⟨?_, fun u hu => ?_, fun u hu => h.waiting_le u (hts hu), fun u hu v hv hkey => ?_⟩
      · refine List.pairwise_append.mpr ⟨h.sorted, List.pairwise_singleton _ _, fun u hu v hv => ?_⟩
        rw [List.mem_singleton.mp hv]
        exact h.ahead t hmem u hu
      · rcases List.mem_append.mp hu with hu | hu
        · exact h.used_le u hu
        · rw [List.mem_singleton.mp hu]
          exact h.waiting_le t hmem
      · rcases List.mem_append.mp hv with hv | hv
        · exact h.ahead u (hts hu) v hv hkey
        · rw [List.mem_singleton.mp hv] at hkey ⊢
          exact hfirst u hu hkey.symm
  | restart => exact sound_empty

/-- Some tickets of one key, among those used, come in the order of their numbers in every
ascending list that has their numbers. -/
theorem InOrder.sublist {used ts : List τ} {ns : List Nat} (h : InOrder key number used)
    (hsub : ts.Sublist used) {k : κ} (hkey : ∀ t ∈ ts, key t = k) (hns : ns.Pairwise (· < ·))
    (hmem : ∀ t ∈ ts, number t ∈ ns) : (ts.map number).Sublist ns := by
  have hsorted : (ts.map number).Pairwise (· < ·) := by
    have hts : InOrder key number ts := List.Pairwise.sublist hsub h
    refine List.pairwise_map.mpr (List.Pairwise.imp_of_mem (fun {t u} ht hu hlt => ?_) hts)
    exact hlt ((hkey t ht).trans (hkey u hu).symm)
  refine List.sublist_of_subperm_of_pairwise (List.subperm_of_subset hsorted.nodup ?_) hsorted hns
  intro n hn
  obtain ⟨t, ht, rfl⟩ := List.mem_map.mp hn
  exact hmem t ht

end Tickets
