import Mathlib

/-!
# Cutting a concatenation

A sender writes a list of nonempty blocks one after the other.  A receiver sees
the concatenation from its beginning, up to some point.  What it sees is then
some whole blocks and a proper beginning of the next one (`exists_whole_append`).
It sees the concatenation in pieces, and one of them reaches a given length
(`exists_piece_reaching`).
-/

namespace Cutting

variable {α : Type*}

/-- `tail` is a proper beginning of the first of the blocks `todo`.  With no
block left nothing has begun. -/
def Begun (tail : List α) (todo : List (List α)) : Prop :=
  (todo = [] ∧ tail = []) ∨ ∃ p more, todo = p :: more ∧ tail <+: p ∧ tail.length < p.length

/-- Nothing of the next block has been seen. -/
theorem begun_nil {todo : List (List α)} (h : ∀ p ∈ todo, p ≠ []) : Begun [] todo := by
  cases todo with
  | nil => exact Or.inl ⟨rfl, rfl⟩
  | cons p more =>
      have hp : p ≠ [] := h p (List.mem_cons_self ..)
      exact Or.inr ⟨p, more, rfl, List.nil_prefix, List.length_pos_of_ne_nil hp⟩

/-- What has been seen of a concatenation of nonempty blocks is some whole
blocks and a proper beginning of the next one. -/
theorem exists_whole_append {ps : List (List α)} (hne : ∀ p ∈ ps, p ≠ []) {r rest : List α}
    (h : r ++ rest = ps.flatten) :
    ∃ whole todo tail, ps = whole ++ todo ∧ r = whole.flatten ++ tail ∧ Begun tail todo := by
  induction ps generalizing r with
  | nil =>
      have hr : r = [] := (List.append_eq_nil_iff.mp (by simpa using h)).1
      exact ⟨[], [], [], rfl, by simp [hr], Or.inl ⟨rfl, rfl⟩⟩
  | cons p ps ih =>
      rw [List.flatten_cons] at h
      rcases List.append_eq_append_iff.mp h with ⟨mid, hp, hrest⟩ | ⟨mid, hr, hps⟩
      · -- The cut is inside `p` or at its end.
        cases mid with
        | nil =>
            refine ⟨[p], ps, [], rfl, by simpa using hp.symm, begun_nil fun q hq => ?_⟩
            exact hne q (List.mem_cons_of_mem p hq)
        | cons b mid =>
            refine ⟨[], p :: ps, r, rfl, rfl, Or.inr ⟨p, ps, rfl, ⟨b :: mid, hp.symm⟩, ?_⟩⟩
            simp [hp]
      · obtain ⟨whole, todo, tail, hsplit, hmid, hbegun⟩ :=
          ih (fun q hq => hne q (List.mem_cons_of_mem p hq)) hps.symm
        exact ⟨p :: whole, todo, tail, by simp [hsplit], by simp [hr, hmid], hbegun⟩

/-- The unseen part continues what has begun. -/
theorem append_eq_flatten_of_whole {whole todo : List (List α)} {tail rest : List α}
    (h : whole.flatten ++ tail ++ rest = (whole ++ todo).flatten) :
    tail ++ rest = todo.flatten := by
  rw [List.flatten_append, List.append_assoc] at h
  exact List.append_cancel_left h

/-- The piece in which a concatenation reaches the length `m`. -/
theorem exists_piece_reaching {pieces : List (List α)} {m : Nat} (hpos : 0 < m)
    (h : m ≤ pieces.flatten.length) :
    ∃ before piece after, pieces = before ++ piece :: after ∧ before.flatten.length < m ∧
      m ≤ before.flatten.length + piece.length := by
  induction pieces generalizing m with
  | nil => exact absurd h (Nat.not_le_of_lt hpos)
  | cons p ps ih =>
      rcases Nat.lt_or_ge p.length m with hlt | hle
      · have hrest : m - p.length ≤ ps.flatten.length := by
          rw [List.flatten_cons, List.length_append] at h
          omega
        obtain ⟨before, piece, after, hsplit, hbefore, hreach⟩ :=
          ih (Nat.sub_pos_of_lt hlt) hrest
        refine ⟨p :: before, piece, after, by rw [hsplit, List.cons_append], ?_, ?_⟩
        · rw [List.flatten_cons, List.length_append]
          omega
        · rw [List.flatten_cons, List.length_append]
          omega
      · exact ⟨[], p, ps, rfl, hpos, by simpa using hle⟩

end Cutting
