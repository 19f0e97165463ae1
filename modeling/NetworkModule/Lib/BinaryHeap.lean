import Mathlib

/-!
# Heaps in a vector

A vector is a *heap* when no element has a smaller key than its parent, the element at
`(i - 1) / 2`.  Its first element has a smallest key (`IsHeap.head_le`).

`HeapOps` is what the standard promises of `std::push_heap` and `std::pop_heap` for a
comparator that says "has a larger key".  The first makes a heap of a heap with one element
behind it.  The second moves the first element to the end and makes a heap of the others.
Any implementation is meant: `sortedOps`, which sorts, is one.
-/

namespace BinaryHeap

variable {α κ : Type*} [LinearOrder κ] (key : α → κ)

/-- No element has a smaller key than its parent. -/
def IsHeap (l : List α) : Prop :=
  ∀ i x y, 0 < i → l[i]? = some x → l[(i - 1) / 2]? = some y → key y ≤ key x

/-- `std::push_heap` and `std::pop_heap` over a whole vector. -/
structure HeapOps where
  push : List α → List α
  pop : List α → List α
  push_perm : ∀ l, (push l).Perm l
  push_isHeap : ∀ l x, IsHeap key l → IsHeap key (push (l ++ [x]))
  pop_perm : ∀ l, (pop l).Perm l
  pop_isHeap : ∀ l, IsHeap key l → IsHeap key (pop l).dropLast
  pop_getLast : ∀ l, IsHeap key l → (pop l).getLast? = l.head?

variable {key}

theorem isHeap_nil : IsHeap key ([] : List α) := by
  intro i x y _ h
  simp at h

/-- The first element has a smallest key. -/
theorem IsHeap.head_le {l : List α} (h : IsHeap key l) {x : α} (hx : l.head? = some x) :
    ∀ y ∈ l, key x ≤ key y := by
  have hpos : ∀ (i : Nat) (y : α), l[i]? = some y → key x ≤ key y := by
    intro i
    induction i using Nat.strongRecOn with
    | ind i ih =>
        intro y hy
        rcases Nat.eq_zero_or_pos i with rfl | hi
        · rw [← List.head?_eq_getElem?, hx] at hy
          exact (congrArg key (Option.some.inj hy)).le
        · have hlt : (i - 1) / 2 < i := by omega
          have hlen := (List.getElem?_eq_some_iff.mp hy).1
          have hparent := List.getElem?_eq_getElem (hlt.trans hlen)
          exact (ih _ hlt _ hparent).trans (h i y _ hi hy hparent)
  intro y hy
  obtain ⟨i, hi⟩ := List.mem_iff_getElem?.mp hy
  exact hpos i y hi

/-- A sorted vector is a heap. -/
theorem isHeap_of_pairwise {l : List α} (h : l.Pairwise fun a b => key a ≤ key b) :
    IsHeap key l := by
  intro i x y hi hx hy
  have hlt : (i - 1) / 2 < i := by omega
  obtain ⟨hxlen, rfl⟩ := List.getElem?_eq_some_iff.mp hx
  obtain ⟨hylen, rfl⟩ := List.getElem?_eq_some_iff.mp hy
  exact List.pairwise_iff_getElem.mp h _ _ hylen hxlen hlt

/-- What `pop_heap` leaves at the end is the first element, and the others stay. -/
theorem HeapOps.pop_eq (ops : HeapOps key) {l : List α} (h : IsHeap key l) {x : α}
    (hx : (ops.pop l).getLast? = some x) :
    (∀ y ∈ l, key x ≤ key y) ∧ l.Perm (x :: (ops.pop l).dropLast) := by
  refine ⟨h.head_le (by rw [← ops.pop_getLast l h]; exact hx), ?_⟩
  have hsplit : (ops.pop l).dropLast ++ [x] = ops.pop l :=
    List.dropLast_append_getLast? x hx
  have hperm := ops.pop_perm l
  rw [← hsplit] at hperm
  exact hperm.symm.trans (List.perm_append_singleton x _)

/-- Sorting by the key. -/
theorem pairwise_sort (l : List α) :
    (l.insertionSort fun a b => key a ≤ key b).Pairwise fun a b => key a ≤ key b := by
  have : Std.Total fun a b : α => key a ≤ key b := ⟨fun a b => le_total (key a) (key b)⟩
  have : IsTrans α fun a b : α => key a ≤ key b := ⟨fun _ _ _ => le_trans⟩
  exact List.pairwise_insertionSort _ l

/-- The vector is sorted after every call. -/
def sortedOps (key : α → κ) : HeapOps key where
  push l := l.insertionSort fun a b => key a ≤ key b
  pop l := (l.tail.insertionSort fun a b => key a ≤ key b) ++ l.head?.toList
  push_perm l := List.perm_insertionSort _ l
  push_isHeap l x _ := isHeap_of_pairwise (pairwise_sort _)
  pop_perm l := by
    refine ((List.perm_insertionSort _ l.tail).append_right _).trans ?_
    cases l with
    | nil => exact .refl _
    | cons x l => exact List.perm_append_singleton x l
  pop_isHeap l _ := by
    cases l with
    | nil => exact isHeap_nil
    | cons x l =>
        simp only [List.tail_cons, List.head?_cons, Option.toList_some, List.dropLast_concat]
        exact isHeap_of_pairwise (pairwise_sort _)
  pop_getLast l _ := by
    cases l with
    | nil => rfl
    | cons x l => simp

end BinaryHeap
