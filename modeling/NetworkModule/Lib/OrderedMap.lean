import Mathlib

/-!
# Ordered maps

`std::map` as the list of its entries in ascending order of their keys.  The
order is a field of the structure.  `emplace` does not replace an entry, and
iteration is over `entries`.
-/

/-- A map with its entries in ascending order of the keys. -/
structure OrderedMap (κ α : Type*) [LinearOrder κ] where
  entries : List (κ × α)
  sorted : entries.Pairwise (·.1 < ·.1)

namespace OrderedMap

variable {κ α : Type*} [LinearOrder κ]

/-! ## Entries -/

/-- The value of a key in a list of entries. -/
def find (k : κ) : List (κ × α) → Option α
  | [] => none
  | e :: es => if e.1 = k then some e.2 else find k es

/-- Insert an entry into a sorted list, unless the key is there. -/
def insert (k : κ) (v : α) : List (κ × α) → List (κ × α)
  | [] => [(k, v)]
  | e :: es => if k < e.1 then (k, v) :: e :: es else if e.1 = k then e :: es else e :: insert k v es

theorem find_eq_none_of_lt {k : κ} {es : List (κ × α)} (h : ∀ e ∈ es, k < e.1) :
    find k es = none := by
  induction es with
  | nil => rfl
  | cons e es ih =>
      have he : ¬ e.1 = k := fun heq => absurd (h e List.mem_cons_self) (by rw [heq]; exact lt_irrefl k)
      rw [find, if_neg he]
      exact ih fun x hx => h x (List.mem_cons_of_mem _ hx)

theorem mem_of_find {k : κ} {v : α} {es : List (κ × α)} (h : find k es = some v) : (k, v) ∈ es := by
  induction es with
  | nil => cases h
  | cons e es ih =>
      rw [find] at h
      split at h
      next he =>
        cases h
        rw [← he]
        exact List.mem_cons_self
      next => exact List.mem_cons_of_mem _ (ih h)

theorem find_of_mem {k : κ} {v : α} {es : List (κ × α)} (hs : es.Pairwise (·.1 < ·.1))
    (h : (k, v) ∈ es) : find k es = some v := by
  induction es with
  | nil => cases h
  | cons e es ih =>
      obtain ⟨hlt, htail⟩ := List.pairwise_cons.mp hs
      rw [find]
      rcases List.mem_cons.mp h with rfl | h
      · rw [if_pos rfl]
      · have hne : e.1 ≠ k := fun heq => absurd (hlt (k, v) h) (by rw [heq]; exact lt_irrefl k)
        rw [if_neg hne]
        exact ih htail h

theorem mem_insert {k : κ} {v : α} {x : κ × α} {es : List (κ × α)} (h : x ∈ insert k v es) :
    x = (k, v) ∨ x ∈ es := by
  induction es with
  | nil => exact .inl (List.mem_singleton.mp h)
  | cons e es ih =>
      rw [insert] at h
      split at h
      · exact List.mem_cons.mp h
      · split at h
        · exact .inr h
        · rcases List.mem_cons.mp h with rfl | h
          · exact .inr List.mem_cons_self
          · exact (ih h).imp_right (List.mem_cons_of_mem _)

theorem sorted_insert (k : κ) (v : α) {es : List (κ × α)} (hs : es.Pairwise (·.1 < ·.1)) :
    (insert k v es).Pairwise (·.1 < ·.1) := by
  induction es with
  | nil => exact List.pairwise_singleton _ _
  | cons e es ih =>
      obtain ⟨hlt, htail⟩ := List.pairwise_cons.mp hs
      rw [insert]
      split
      next hk =>
        refine List.pairwise_cons.mpr ⟨fun x hx => ?_, hs⟩
        rcases List.mem_cons.mp hx with rfl | hx
        · exact hk
        · exact lt_trans hk (hlt x hx)
      next hk =>
        split
        · exact hs
        next hne =>
          refine List.pairwise_cons.mpr ⟨fun x hx => ?_, ih htail⟩
          rcases mem_insert hx with rfl | hx
          · exact lt_of_le_of_ne (not_lt.mp hk) hne
          · exact hlt x hx

theorem find_insert (k k' : κ) (v : α) (es : List (κ × α)) (hs : es.Pairwise (·.1 < ·.1)) :
    find k' (insert k v es) = if k' = k then some ((find k es).getD v) else find k' es := by
  induction es with
  | nil =>
      by_cases hk : k' = k
      · subst hk
        simp [insert, find]
      · have hk' : ¬ k = k' := fun h => hk h.symm
        simp [insert, find, hk, hk']
  | cons e es ih =>
      obtain ⟨hlt, htail⟩ := List.pairwise_cons.mp hs
      rw [insert]
      split
      next hk =>
        have hnone : find k (e :: es) = none := find_eq_none_of_lt fun x hx => by
          rcases List.mem_cons.mp hx with rfl | hx
          · exact hk
          · exact lt_trans hk (hlt x hx)
        by_cases hk' : k' = k
        · subst hk'
          rw [find, if_pos rfl, if_pos rfl, hnone]
          rfl
        · rw [find, if_neg (fun h => hk' h.symm), if_neg hk']
      next hk =>
        split
        next he =>
          by_cases hk' : k' = k
          · subst hk'
            rw [find, if_pos he, if_pos rfl]
            rfl
          · rw [if_neg hk']
        next hne =>
          rw [find, ih htail]
          by_cases hk' : k' = k
          · subst hk'
            rw [if_neg hne, if_pos rfl, if_pos rfl, find, if_neg hne]
          · rw [if_neg hk', if_neg hk', find]

theorem find_filter (k k' : κ) (es : List (κ × α)) :
    find k' (es.filter (·.1 ≠ k)) = if k' = k then none else find k' es := by
  induction es with
  | nil => simp [find]
  | cons e es ih =>
      by_cases he : e.1 = k
      · rw [List.filter_cons_of_neg (by simpa using he), ih, find]
        by_cases hk : k' = k
        · rw [if_pos hk, if_pos hk]
        · rw [if_neg hk, if_neg hk, if_neg (fun h => hk (h.symm.trans he))]
      · rw [List.filter_cons_of_pos (by simpa using he), find, ih, find]
        by_cases hk : k' = k
        · rw [if_pos hk, if_pos hk, if_neg (fun h => he (h.trans hk))]
        · rw [if_neg hk, if_neg hk]

/-! ## Operations -/

/-- The empty map. -/
def empty : OrderedMap κ α := ⟨[], List.Pairwise.nil⟩

/-- `find`. -/
def lookup (m : OrderedMap κ α) (k : κ) : Option α := find k m.entries

/-- `emplace`. -/
def emplace (m : OrderedMap κ α) (k : κ) (v : α) : OrderedMap κ α :=
  ⟨insert k v m.entries, sorted_insert k v m.sorted⟩

/-- `erase`. -/
def erase (m : OrderedMap κ α) (k : κ) : OrderedMap κ α :=
  ⟨m.entries.filter (·.1 ≠ k), m.sorted.filter _⟩

@[simp] theorem lookup_empty (k : κ) : (empty : OrderedMap κ α).lookup k = none := rfl

theorem lookup_emplace (m : OrderedMap κ α) (k k' : κ) (v : α) :
    (m.emplace k v).lookup k' = if k' = k then some ((m.lookup k).getD v) else m.lookup k' :=
  find_insert k k' v m.entries m.sorted

theorem lookup_erase (m : OrderedMap κ α) (k k' : κ) :
    (m.erase k).lookup k' = if k' = k then none else m.lookup k' := find_filter k k' m.entries

theorem mem_entries (m : OrderedMap κ α) {k : κ} {v : α} :
    (k, v) ∈ m.entries ↔ m.lookup k = some v := ⟨find_of_mem m.sorted, mem_of_find⟩

/-- Maps that agree on every key are equal. -/
theorem ext_lookup {m m' : OrderedMap κ α} (h : ∀ k, m.lookup k = m'.lookup k) : m = m' := by
  have : Std.Irrefl fun e e' : κ × α => e.1 < e'.1 := ⟨fun e => lt_irrefl e.1⟩
  have : Std.Asymm fun e e' : κ × α => e.1 < e'.1 := ⟨fun e e' h h' => lt_asymm h h'⟩
  have hmem : ∀ e, e ∈ m.entries ↔ e ∈ m'.entries := by
    rintro ⟨k, v⟩
    rw [mem_entries, mem_entries, h]
  cases m with
  | mk es hs =>
      cases m' with
      | mk es' hs' =>
          have hes : es = es' := hs.eq_of_mem_iff hs' hmem
          subst hes
          rfl

/-- `emplace` changes nothing exactly if the key is there. -/
theorem emplace_eq_iff (m : OrderedMap κ α) (k : κ) (v : α) :
    m.emplace k v = m ↔ (m.lookup k).isSome := by
  constructor
  · intro h
    have hk := lookup_emplace m k k v
    rw [h, if_pos rfl] at hk
    rw [hk]
    rfl
  · intro h
    obtain ⟨e, he⟩ := Option.isSome_iff_exists.mp h
    refine ext_lookup fun k' => ?_
    rw [lookup_emplace]
    split
    next hk => rw [hk, he, Option.getD_some]
    next => rfl

/-- `erase` changes nothing exactly if the key is not there. -/
theorem erase_eq_iff (m : OrderedMap κ α) (k : κ) : m.erase k = m ↔ m.lookup k = none := by
  constructor
  · intro h
    have hk := lookup_erase m k k
    rwa [h, if_pos rfl] at hk
  · intro h
    refine ext_lookup fun k' => ?_
    rw [lookup_erase]
    split
    next hk => rw [hk, h]
    next => rfl

end OrderedMap
