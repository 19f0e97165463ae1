import Mathlib

/-!
# Transactions

A *store* has a log of committed writes and any number of sessions.  A session is in autocommit
mode, where a write is committed at once, or it has a transaction, whose writes wait until they
are committed or rolled back together.  A session that goes back to autocommit mode commits what
it has.

The sessions are known by names `C` and the writes are of any type.  What a write means is up to
whoever folds over the log.
-/

namespace Transactions

variable {C W : Type} [DecidableEq C]

structure Session (W : Type) where
  autocommit : Bool := true
  /-- The writes of the transaction, oldest first. -/
  pending : List W := []

structure Store (C W : Type) where
  /-- The committed writes, oldest first. -/
  committed : List W := []
  sessions : C → Session W := fun _ => {}

/-- A write in the session `c`. -/
def Store.write (s : Store C W) (c : C) (w : W) : Store C W :=
  if (s.sessions c).autocommit then { s with committed := s.committed ++ [w] }
  else
    { s with
      sessions := Function.update s.sessions c
        ⟨(s.sessions c).autocommit, (s.sessions c).pending ++ [w]⟩ }

def Store.commit (s : Store C W) (c : C) : Store C W where
  committed := s.committed ++ (s.sessions c).pending
  sessions := Function.update s.sessions c ⟨(s.sessions c).autocommit, []⟩

def Store.rollback (s : Store C W) (c : C) : Store C W :=
  { s with sessions := Function.update s.sessions c ⟨(s.sessions c).autocommit, []⟩ }

def Store.setAutocommit (s : Store C W) (c : C) (on : Bool) : Store C W :=
  if on then
    { s.commit c with sessions := Function.update s.sessions c ⟨true, []⟩ }
  else
    { s with sessions := Function.update s.sessions c ⟨false, (s.sessions c).pending⟩ }

section
variable {s : Store C W} {c d : C} {w : W}

/-! ## What the operations do -/

theorem write_of_transaction (h : (s.sessions c).autocommit = false) :
    (s.write c w).committed = s.committed ∧
      (s.write c w).sessions c = ⟨false, (s.sessions c).pending ++ [w]⟩ := by
  rw [Store.write, if_neg (by simp [h])]
  exact ⟨rfl, by simp [h]⟩

theorem write_of_autocommit (h : (s.sessions c).autocommit = true) :
    s.write c w = { s with committed := s.committed ++ [w] } := by
  rw [Store.write, if_pos h]

@[simp] theorem committed_commit :
    (s.commit c).committed = s.committed ++ (s.sessions c).pending := rfl

@[simp] theorem sessions_commit_self :
    (s.commit c).sessions c = ⟨(s.sessions c).autocommit, []⟩ := by
  simp [Store.commit]

@[simp] theorem committed_rollback : (s.rollback c).committed = s.committed := rfl

@[simp] theorem sessions_rollback_self :
    (s.rollback c).sessions c = ⟨(s.sessions c).autocommit, []⟩ := by
  simp [Store.rollback]

@[simp] theorem committed_autocommit_on :
    (s.setAutocommit c true).committed = s.committed ++ (s.sessions c).pending := rfl

@[simp] theorem sessions_autocommit_on_self : (s.setAutocommit c true).sessions c = ⟨true, []⟩ := by
  simp [Store.setAutocommit]

@[simp] theorem committed_autocommit_off : (s.setAutocommit c false).committed = s.committed := rfl

@[simp] theorem sessions_autocommit_off_self :
    (s.setAutocommit c false).sessions c = ⟨false, (s.sessions c).pending⟩ := by
  simp [Store.setAutocommit]

/-! ## Other sessions -/

theorem sessions_write_of_ne (h : d ≠ c) : (s.write c w).sessions d = s.sessions d := by
  rw [Store.write]
  split
  · rfl
  · exact Function.update_of_ne h ..

theorem sessions_commit_of_ne (h : d ≠ c) : (s.commit c).sessions d = s.sessions d :=
  Function.update_of_ne h ..

theorem sessions_rollback_of_ne (h : d ≠ c) : (s.rollback c).sessions d = s.sessions d :=
  Function.update_of_ne h ..

theorem sessions_setAutocommit_of_ne {on : Bool} (h : d ≠ c) :
    (s.setAutocommit c on).sessions d = s.sessions d := by
  cases on with
  | true => exact Function.update_of_ne h ..
  | false => exact Function.update_of_ne h ..

/-! ## Each write once

If every write is a new one, none is in two places, and none is committed twice. -/

/-- The write is committed or waits. -/
def Store.Holds (s : Store C W) (w : W) : Prop :=
  w ∈ s.committed ∨ ∃ c, w ∈ (s.sessions c).pending

structure Store.Distinct (s : Store C W) : Prop where
  committed : s.committed.Nodup
  pending : ∀ c, (s.sessions c).pending.Nodup
  apart : ∀ c, s.committed.Disjoint (s.sessions c).pending
  sessions : ∀ c d, c ≠ d → (s.sessions c).pending.Disjoint (s.sessions d).pending

omit [DecidableEq C] in
theorem distinct_start : ({} : Store C W).Distinct where
  committed := List.nodup_nil
  pending := fun _ => List.nodup_nil
  apart := fun _ => List.disjoint_nil_left _
  sessions := fun _ _ _ => List.disjoint_nil_left _

omit [DecidableEq C] in
/-- A session that keeps some of its writes. -/
theorem Store.Distinct.drop (h : s.Distinct) {t : Store C W}
    (hcommitted : t.committed = s.committed)
    (hsub : ∀ d, ((t.sessions d).pending).Sublist (s.sessions d).pending) : t.Distinct where
  committed := hcommitted ▸ h.committed
  pending := fun d => (h.pending d).sublist (hsub d)
  apart := fun d _ hw hp => h.apart d (hcommitted ▸ hw) ((hsub d).subset hp)
  sessions := fun d e hde _ hd he => h.sessions d e hde ((hsub d).subset hd) ((hsub e).subset he)

theorem Store.Distinct.rollback (h : s.Distinct) : (s.rollback c).Distinct := by
  refine h.drop rfl fun d => ?_
  by_cases hd : d = c
  · subst hd
    rw [sessions_rollback_self]
    exact List.nil_sublist _
  · rw [sessions_rollback_of_ne hd]

theorem Store.Distinct.commit (h : s.Distinct) : (s.commit c).Distinct where
  committed := List.nodup_append'.mpr ⟨h.committed, h.pending c, h.apart c⟩
  pending := fun d => by
    by_cases hd : d = c
    · subst hd
      rw [sessions_commit_self]
      exact List.nodup_nil
    · rw [sessions_commit_of_ne hd]
      exact h.pending d
  apart := fun d w hw hp => by
    by_cases hd : d = c
    · subst hd
      rw [sessions_commit_self] at hp
      cases hp
    · rw [sessions_commit_of_ne hd] at hp
      rcases List.mem_append.mp hw with hw | hw
      · exact h.apart d hw hp
      · exact h.sessions c d (Ne.symm hd) hw hp
  sessions := fun d e hde w hd he => by
    have hold : ∀ f, w ∈ ((s.commit c).sessions f).pending → w ∈ (s.sessions f).pending := by
      intro f hf
      by_cases hfc : f = c
      · subst hfc
        rw [sessions_commit_self] at hf
        cases hf
      · rwa [sessions_commit_of_ne hfc] at hf
    exact h.sessions d e hde (hold d hd) (hold e he)

theorem Store.Distinct.setAutocommit (h : s.Distinct) (on : Bool) :
    (s.setAutocommit c on).Distinct := by
  cases on with
  | true =>
      refine (h.commit (c := c)).drop rfl fun d => ?_
      by_cases hd : d = c
      · subst hd
        rw [sessions_autocommit_on_self]
        exact List.nil_sublist _
      · rw [sessions_setAutocommit_of_ne hd, sessions_commit_of_ne hd]
  | false =>
      refine h.drop rfl fun d => ?_
      by_cases hd : d = c
      · subst hd
        rw [sessions_autocommit_off_self]
      · rw [sessions_setAutocommit_of_ne hd]

theorem Store.Distinct.write (h : s.Distinct) (hnew : ¬ s.Holds w) : (s.write c w).Distinct := by
  have hcommitted : w ∉ s.committed := fun hw => hnew (.inl hw)
  have hpending : ∀ d, w ∉ (s.sessions d).pending := fun d hw => hnew (.inr ⟨d, hw⟩)
  cases hauto : (s.sessions c).autocommit with
  | true =>
      rw [write_of_autocommit hauto]
      refine ⟨?_, h.pending, fun d v hv hp => ?_, h.sessions⟩
      · exact List.nodup_append'.mpr ⟨h.committed, List.nodup_singleton w,
          List.disjoint_singleton.mpr hcommitted⟩
      · rcases List.mem_append.mp hv with hv | hv
        · exact h.apart d hv hp
        · exact hpending d (List.mem_singleton.mp hv ▸ hp)
  | false =>
      obtain ⟨hlog, hself⟩ := write_of_transaction (w := w) hauto
      have hmem : ∀ d v, v ∈ ((s.write c w).sessions d).pending →
          v ∈ (s.sessions d).pending ∨ (d = c ∧ v = w) := by
        intro d v hv
        by_cases hd : d = c
        · subst hd
          rw [hself] at hv
          rcases List.mem_append.mp hv with hv | hv
          · exact .inl hv
          · exact .inr ⟨rfl, List.mem_singleton.mp hv⟩
        · rw [sessions_write_of_ne hd] at hv
          exact .inl hv
      refine ⟨hlog ▸ h.committed, fun d => ?_, fun d v hv hp => ?_, fun d e hde v hd he => ?_⟩
      · by_cases hd : d = c
        · subst hd
          rw [hself]
          exact List.nodup_append'.mpr ⟨h.pending d, List.nodup_singleton w,
            List.disjoint_singleton.mpr (hpending d)⟩
        · rw [sessions_write_of_ne hd]
          exact h.pending d
      · rw [hlog] at hv
        rcases hmem d v hp with hp | ⟨-, rfl⟩
        · exact h.apart d hv hp
        · exact hcommitted hv
      · rcases hmem d v hd with hvd | ⟨hdc, hvw⟩
        · rcases hmem e v he with hve | ⟨-, hvw⟩
          · exact h.sessions d e hde hvd hve
          · exact hpending d (hvw ▸ hvd)
        · rcases hmem e v he with hve | ⟨hec, -⟩
          · exact hpending e (hvw ▸ hve)
          · exact hde (hdc.trans hec.symm)

/-! ## Where a write can come from -/

theorem holds_write {v : W} (h : (s.write c w).Holds v) : v = w ∨ s.Holds v := by
  cases hauto : (s.sessions c).autocommit with
  | true =>
      rw [write_of_autocommit hauto] at h
      rcases h with h | h
      · rcases List.mem_append.mp h with h | h
        · exact .inr (.inl h)
        · exact .inl (List.mem_singleton.mp h)
      · exact .inr (.inr h)
  | false =>
      obtain ⟨hlog, hself⟩ := write_of_transaction (w := w) hauto
      rcases h with h | ⟨d, h⟩
      · exact .inr (.inl (hlog ▸ h))
      · by_cases hd : d = c
        · subst hd
          rw [hself] at h
          rcases List.mem_append.mp h with h | h
          · exact .inr (.inr ⟨d, h⟩)
          · exact .inl (List.mem_singleton.mp h)
        · rw [sessions_write_of_ne hd] at h
          exact .inr (.inr ⟨d, h⟩)

theorem holds_rollback (h : (s.rollback c).Holds w) : s.Holds w := by
  rcases h with h | ⟨d, h⟩
  · exact .inl h
  · by_cases hd : d = c
    · subst hd
      rw [sessions_rollback_self] at h
      cases h
    · rw [sessions_rollback_of_ne hd] at h
      exact .inr ⟨d, h⟩

theorem holds_commit (h : (s.commit c).Holds w) : s.Holds w := by
  rcases h with h | ⟨d, h⟩
  · rcases List.mem_append.mp h with h | h
    · exact .inl h
    · exact .inr ⟨c, h⟩
  · by_cases hd : d = c
    · subst hd
      rw [sessions_commit_self] at h
      cases h
    · rw [sessions_commit_of_ne hd] at h
      exact .inr ⟨d, h⟩

theorem holds_setAutocommit {on : Bool} (h : (s.setAutocommit c on).Holds w) : s.Holds w := by
  cases on with
  | true =>
      refine holds_commit (c := c) ?_
      rcases h with h | ⟨d, h⟩
      · exact .inl h
      · by_cases hd : d = c
        · subst hd
          rw [sessions_autocommit_on_self] at h
          cases h
        · rw [sessions_setAutocommit_of_ne hd] at h
          exact .inr ⟨d, by rwa [sessions_commit_of_ne hd]⟩
  | false =>
      rcases h with h | ⟨d, h⟩
      · exact .inl h
      · by_cases hd : d = c
        · subst hd
          rw [sessions_autocommit_off_self] at h
          exact .inr ⟨d, h⟩
        · rw [sessions_setAutocommit_of_ne hd] at h
          exact .inr ⟨d, h⟩

end

end Transactions
