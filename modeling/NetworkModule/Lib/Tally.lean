import Mathlib

/-!
# Tallies

Threads are known by numbers, a function gives the place of each, and a list
names those that exist.  A *tally* counts the listed threads whose place
satisfies a test.  When one thread moves, the tally changes by that thread
alone (`tally_update`).  Where the places themselves are in a list, one for each
thread, the tally is `List.countP` and the same holds (`countP_set`).  Where each
place holds a list of things, the same holds of their number (`length_flatMap_set`) and of the
copies of one of them (`count_flatMap_set`).

A history *lists* the threads whose place satisfies a test, each once (`Lists`), as long
as a thread enters the history with the step that makes the test true.
-/

namespace Tally

variable {ι π γ : Type*}

/-- How many listed threads are at a place that satisfies `p`. -/
def tally (p : π → Bool) (f : ι → π) (l : List ι) : Nat := l.countP fun i => p (f i)

@[simp] theorem tally_nil (p : π → Bool) (f : ι → π) : tally p f [] = 0 := rfl

theorem tally_append (p : π → Bool) (f : ι → π) (l m : List ι) :
    tally p f (l ++ m) = tally p f l + tally p f m := by
  simp [tally]

theorem tally_singleton (p : π → Bool) (f : ι → π) (i : ι) :
    tally p f [i] = (p (f i)).toNat := by
  cases h : p (f i) <;> simp [tally, h]

/-- Everyone listed satisfies the test. -/
theorem tally_eq_length {p : π → Bool} {f : ι → π} {l : List ι} (h : ∀ i ∈ l, p (f i) = true) :
    tally p f l = l.length :=
  List.countP_eq_length.mpr h

/-- The first thread is counted or not. -/
theorem countP_cons_toNat (p : π → Bool) (a : π) (l : List π) :
    (a :: l).countP p = l.countP p + (p a).toNat := by
  cases ha : p a <;> simp [ha]

/-- If each listed thread that passes one test passes exactly one of three
others, then the tallies add up. -/
theorem countP_eq_add {p q r t : ι → Bool} {l : List ι}
    (h : ∀ i ∈ l, (p i).toNat = (q i).toNat + (r i).toNat + (t i).toNat) :
    l.countP p = l.countP q + l.countP r + l.countP t := by
  induction l with
  | nil => rfl
  | cons i l ih =>
      have hi := h i (List.mem_cons_self ..)
      have hl := ih fun k hk => h k (List.mem_cons_of_mem i hk)
      simp only [countP_cons_toNat, hl, hi]
      omega

/-- Two tests that exclude each other and imply a third count at most what the
third counts. -/
theorem countP_add_le {p q r : π → Bool} (h : ∀ a, (q a).toNat + (r a).toNat ≤ (p a).toNat)
    (l : List π) : l.countP q + l.countP r ≤ l.countP p := by
  induction l with
  | nil => exact Nat.le_refl 0
  | cons a l ih =>
      have ha := h a
      simp only [countP_cons_toNat]
      omega

/-- When the thread with number `k` moves, its old place leaves the count and
its new place enters it. -/
theorem countP_set (p : π → Bool) {l : List π} {k : Nat} {a : π} (b : π) (h : l[k]? = some a) :
    (l.set k b).countP p + (p a).toNat = l.countP p + (p b).toNat := by
  induction l generalizing k with
  | nil => cases h
  | cons c l ih =>
      cases k with
      | zero =>
          cases h
          rw [List.set_cons_zero, countP_cons_toNat, countP_cons_toNat]
          omega
      | succ k =>
          have hl := ih (k := k) (by simpa using h)
          rw [List.set_cons_succ, countP_cons_toNat, countP_cons_toNat]
          omega

/-- When a thread arrives, its place enters the count. -/
theorem countP_concat (p : π → Bool) (l : List π) (a : π) :
    (l ++ [a]).countP p = l.countP p + (p a).toNat := by
  cases ha : p a <;> simp [ha]

/-- When the thread with number `k` leaves, its place leaves the count. -/
theorem countP_eraseIdx (p : π → Bool) {l : List π} {k : Nat} {a : π} (h : l[k]? = some a) :
    l.countP p = (l.eraseIdx k).countP p + (p a).toNat := by
  induction l generalizing k with
  | nil => cases h
  | cons c l ih =>
      cases k with
      | zero =>
          cases h
          rw [List.eraseIdx_cons_zero, countP_cons_toNat]
      | succ k =>
          have hl := ih (k := k) (by simpa using h)
          rw [List.eraseIdx_cons_succ, countP_cons_toNat, countP_cons_toNat]
          omega

/-- A thread at a counted place is counted. -/
theorem toNat_le_countP (p : π → Bool) {l : List π} {k : Nat} {a : π} (h : l[k]? = some a) :
    (p a).toNat ≤ l.countP p := by
  cases ha : p a with
  | false => exact Nat.zero_le _
  | true => exact List.countP_pos_iff.mpr ⟨a, List.mem_of_getElem? h, ha⟩

/-- When the only thread at a counted place moves, the others are not at one. -/
theorem eq_or_not_of_mem_set (p : π → Bool) {l : List π} {k : Nat} {a b q : π}
    (hone : l.countP p = 1) (hk : l[k]? = some a) (ha : p a = true) (hq : q ∈ l.set k b) :
    q = b ∨ (q ∈ l ∧ p q = false) := by
  induction l generalizing k with
  | nil => cases hk
  | cons c l ih =>
      cases k with
      | zero =>
          cases hk
          rw [List.countP_cons_of_pos ha] at hone
          have hnone : l.countP p = 0 := by omega
          rcases List.mem_cons.mp hq with rfl | hq
          · exact Or.inl rfl
          · have hno := List.countP_eq_zero.mp hnone q hq
            exact Or.inr ⟨List.mem_cons_of_mem _ hq, by simpa using hno⟩
      | succ k =>
          have hk' : l[k]? = some a := by simpa using hk
          have hpos := toNat_le_countP p hk'
          rw [ha, Bool.toNat_true] at hpos
          have hc : p c = false := by
            cases hc : p c with
            | false => rfl
            | true =>
                rw [List.countP_cons_of_pos hc] at hone
                omega
          rw [List.countP_cons_of_neg (by simp [hc])] at hone
          rcases List.mem_cons.mp hq with rfl | hq
          · exact Or.inr ⟨List.mem_cons_self .., hc⟩
          · rcases ih hone hk' hq with h | ⟨h, hno⟩
            · exact Or.inl h
            · exact Or.inr ⟨List.mem_cons_of_mem _ h, hno⟩

/-- What the thread with number `k` holds leaves, and what it holds then enters. -/
theorem countP_flatMap_set (q : γ → Bool) (f : π → List γ) {l : List π} {k : Nat} {a : π} (b : π)
    (h : l[k]? = some a) :
    ((l.set k b).flatMap f).countP q + (f a).countP q = (l.flatMap f).countP q + (f b).countP q := by
  induction l generalizing k with
  | nil => cases h
  | cons c l ih =>
      cases k with
      | zero =>
          cases h
          simp only [List.set_cons_zero, List.flatMap_cons, List.countP_append]
          omega
      | succ k =>
          have hl := ih (k := k) (by simpa using h)
          simp only [List.set_cons_succ, List.flatMap_cons, List.countP_append]
          omega

/-- The same for the number of things held. -/
theorem length_flatMap_set (f : π → List γ) {l : List π} {k : Nat} {a : π} (b : π)
    (h : l[k]? = some a) :
    ((l.set k b).flatMap f).length + (f a).length = (l.flatMap f).length + (f b).length := by
  simpa using countP_flatMap_set (fun _ => true) f b h

/-- The same for the copies of one thing. -/
theorem count_flatMap_set [DecidableEq γ] (f : π → List γ) {l : List π} {k : Nat} {a : π} (b : π)
    (h : l[k]? = some a) (x : γ) :
    ((l.set k b).flatMap f).count x + (f a).count x = (l.flatMap f).count x + (f b).count x :=
  countP_flatMap_set (· == x) f b h

/-- Where a thread holds at most one of the things, and that only at a counted place, there are no
more of the things than of the threads at that place. -/
theorem countP_flatMap_le {p : π → Bool} {q : γ → Bool} {f : π → List γ} {l : List π}
    (h : ∀ a ∈ l, (f a).countP q ≤ (p a).toNat) : (l.flatMap f).countP q ≤ l.countP p := by
  induction l with
  | nil => exact Nat.le_refl 0
  | cons a l ih =>
      have ha := h a (List.mem_cons_self ..)
      have hl := ih fun b hb => h b (List.mem_cons_of_mem a hb)
      rw [List.flatMap_cons, List.countP_append, countP_cons_toNat]
      omega

/-- A thread that moves and holds the same as before. -/
theorem flatMap_set_of_eq {f : π → List γ} {l : List π} {k : Nat} {a b : π} (h : l[k]? = some a)
    (hf : f b = f a) : (l.set k b).flatMap f = l.flatMap f := by
  induction l generalizing k with
  | nil => rfl
  | cons c l ih =>
      cases k with
      | zero =>
          cases h
          rw [List.set_cons_zero, List.flatMap_cons, List.flatMap_cons, hf]
      | succ k =>
          have hl := ih (k := k) (by simpa using h)
          rw [List.set_cons_succ, List.flatMap_cons, List.flatMap_cons, hl]

/-- What is held after a thread has moved is held by it or was held before. -/
theorem mem_flatMap_set {f : π → List γ} {l : List π} {k : Nat} {b : π} {x : γ}
    (h : x ∈ (l.set k b).flatMap f) : x ∈ f b ∨ x ∈ l.flatMap f := by
  obtain ⟨c, hc, hx⟩ := List.mem_flatMap.mp h
  rcases List.mem_or_eq_of_mem_set hc with hc | rfl
  · exact Or.inr (List.mem_flatMap.mpr ⟨c, hc, hx⟩)
  · exact Or.inl hx

section
variable [DecidableEq ι]

/-- A thread that is not listed may move freely. -/
theorem tally_update_of_notMem (p : π → Bool) (f : ι → π) {l : List ι} {i : ι} (v : π)
    (hi : i ∉ l) : tally p (Function.update f i v) l = tally p f l := by
  refine List.countP_congr fun k hk => ?_
  have hne : k ≠ i := fun he => hi (he ▸ hk)
  rw [Function.update_of_ne hne]

/-- A move between places that the test does not tell apart. -/
theorem tally_update_of_eq (p : π → Bool) (f : ι → π) (l : List ι) {i : ι} {v : π}
    (hv : p v = p (f i)) : tally p (Function.update f i v) l = tally p f l := by
  refine List.countP_congr fun k _ => ?_
  by_cases hk : k = i
  · subst hk
    simp [hv]
  · rw [Function.update_of_ne hk]

/-- When a listed thread moves, its old place leaves the tally and its new place
enters it. -/
theorem tally_update (p : π → Bool) (f : ι → π) {l : List ι} {i : ι} (v : π) (hl : l.Nodup)
    (hi : i ∈ l) :
    tally p (Function.update f i v) l + (p (f i)).toNat = tally p f l + (p v).toNat := by
  induction l with
  | nil => cases hi
  | cons k l ih =>
      have hcons : ∀ g : ι → π, tally p g (k :: l) = (p (g k)).toNat + tally p g l := fun g => by
        rw [← tally_singleton, ← tally_append, List.singleton_append]
      obtain ⟨hk, hl'⟩ := List.nodup_cons.mp hl
      rw [hcons, hcons]
      by_cases he : k = i
      · subst he
        rw [tally_update_of_notMem p f v hk, Function.update_self]
        omega
      · have hmem : i ∈ l := (List.mem_cons.mp hi).resolve_left (Ne.symm he)
        have := ih hl' hmem
        rw [Function.update_of_ne he]
        omega

/-- The history `l` has the threads whose place satisfies `p`, each once. -/
structure Lists (p : π → Bool) (f : ι → π) (l : List ι) : Prop where
  mem : ∀ i, i ∈ l ↔ p (f i) = true
  nodup : l.Nodup

section
variable {p : π → Bool} {f : ι → π} {l : List ι}

omit [DecidableEq ι] in
theorem lists_nil (h : ∀ i, p (f i) = false) : Lists p f [] where
  mem := fun i => by simp [h i]
  nodup := List.nodup_nil

/-- A thread that moves between places that the test does not tell apart. -/
theorem Lists.move (h : Lists p f l) {i : ι} {v : π} (hv : p v = p (f i)) :
    Lists p (Function.update f i v) l where
  mem := by
    intro k
    rw [h.mem k]
    by_cases hk : k = i
    · subst hk
      rw [Function.update_self, hv]
    · rw [Function.update_of_ne hk]
  nodup := h.nodup

/-- A thread that comes to a listed place enters the history. -/
theorem Lists.enter (h : Lists p f l) {i : ι} {v : π} (hold : p (f i) = false) (hv : p v = true) :
    Lists p (Function.update f i v) (l ++ [i]) where
  mem := by
    intro k
    by_cases hk : k = i
    · subst hk
      simp [hv]
    · simp [hk, h.mem k]
  nodup := by
    have hi : i ∉ l := by simp [h.mem i, hold]
    exact List.nodup_append.mpr ⟨h.nodup, by simp, fun k hk j hj => by
      rw [List.mem_singleton.mp hj]
      exact fun he => hi (he ▸ hk)⟩

/-- How often a thread is in the history. -/
theorem Lists.count (h : Lists p f l) (i : ι) : l.count i = (p (f i)).toNat := by
  by_cases hi : p (f i) = true
  · rw [List.count_eq_one_of_mem h.nodup ((h.mem i).mpr hi), hi]
    rfl
  · rw [List.count_eq_zero.mpr fun hm => hi ((h.mem i).mp hm)]
    simp [hi]

end

end

end Tally
