import NetworkModule.Wal.Format

/-!
# What the records of a log say about one sequence number

`parseWalFile` treats the sequence numbers apart from each other: a record changes
the entry of its own number and no other.  So the map it computes is given by
`pendingAt`, one number at a time, and the two files are merged one number at a
time (`lookup_parse`).

The two ways in which the backup leaves an entry alone are `pendingAt_of_notMem`
and `pendingAt_eq_some`.
-/

namespace NetworkModule.Wal

/-! ## One sequence number -/

/-- The sequence number of a record that the map depends on. -/
def WalRecord.seq? : WalRecord → Option Nat
  | .pending seq _ => some seq
  | .done seq => some seq
  | _ => none

/-- What a record does to the entry of `q`. -/
def keyStep (q : Nat) (x : Option WalEntry) : WalRecord → Option WalEntry
  | .pending seq e => if q = seq then some (x.getD e) else x
  | .done seq => if q = seq then none else x
  | _ => x

/-- The entry of `q` after the records, if it was `x` before. -/
def pendingAt (q : Nat) (x : Option WalEntry) (rs : List WalRecord) : Option WalEntry :=
  rs.foldl (keyStep q) x

/-- The map after the records. -/
theorem lookup_foldl_applyRecord (rs : List WalRecord) (m : PendingMap × Nat) (q : Nat) :
    (rs.foldl applyRecord m).1.lookup q = pendingAt q (m.1.lookup q) rs := by
  induction rs generalizing m with
  | nil => rfl
  | cons r rs ih =>
      have hr : (applyRecord m r).1.lookup q = keyStep q (m.1.lookup q) r := by
        cases r with
        | pending seq e =>
            simp only [applyRecord, keyStep, OrderedMap.lookup_emplace]
            split
            next h => rw [h]
            next => rfl
        | done seq => simp only [applyRecord, keyStep, OrderedMap.lookup_erase]
        | seen seq => rfl
        | skip => rfl
      rw [List.foldl_cons, ih, hr]
      rfl

theorem lookup_parse (m : PendingMap) (n : Nat) (file : Option (List Chunk)) (q : Nat) :
    (parseWalFile (m, n) file).1.lookup q = pendingAt q (m.lookup q) (records (file.getD [])) :=
  lookup_foldl_applyRecord _ _ q

@[simp] theorem pendingAt_nil (q : Nat) (x : Option WalEntry) : pendingAt q x [] = x := rfl

@[simp] theorem pendingAt_append (q : Nat) (x : Option WalEntry) (rs : List WalRecord) (r : WalRecord) :
    pendingAt q x (rs ++ [r]) = keyStep q (pendingAt q x rs) r := by
  rw [pendingAt, List.foldl_append]
  rfl

theorem keyStep_of_ne {q : Nat} {r : WalRecord} (h : r.seq? ≠ some q) (x : Option WalEntry) :
    keyStep q x r = x := by
  cases r with
  | pending seq e => exact if_neg fun he => h (congrArg some he.symm)
  | done seq => exact if_neg fun he => h (congrArg some he.symm)
  | seen seq => rfl
  | skip => rfl

/-- Records with other numbers leave the entry alone. -/
theorem pendingAt_of_notMem {q : Nat} {rs : List WalRecord} (h : ∀ r ∈ rs, r.seq? ≠ some q)
    (x : Option WalEntry) : pendingAt q x rs = x := by
  induction rs generalizing x with
  | nil => rfl
  | cons r rs ih =>
      rw [pendingAt, List.foldl_cons, keyStep_of_ne (h r List.mem_cons_self)]
      exact ih (fun r' hr' => h r' (List.mem_cons_of_mem _ hr')) x

/-- An entry comes from before or from a pending record. -/
theorem mem_of_pendingAt {q : Nat} {x : Option WalEntry} {rs : List WalRecord} {e : WalEntry}
    (h : pendingAt q x rs = some e) : x = some e ∨ .pending q e ∈ rs := by
  induction rs generalizing x with
  | nil => exact .inl h
  | cons r rs ih =>
      rw [pendingAt, List.foldl_cons] at h
      rcases ih h with hx | hmem
      · cases r with
        | pending seq e' =>
            simp only [keyStep] at hx
            split at hx
            next hq =>
              subst hq
              cases x with
              | none =>
                  cases hx
                  exact .inr List.mem_cons_self
              | some e'' => exact .inl hx
            next => exact .inl hx
        | done seq =>
            simp only [keyStep] at hx
            split at hx
            · cases hx
            · exact .inl hx
        | seen seq => exact .inl hx
        | skip => exact .inl hx
      · exact .inr (List.mem_cons_of_mem _ hmem)

/-- An entry that is pending in the records alone. -/
theorem mem_of_pending {q : Nat} {rs : List WalRecord} {e : WalEntry}
    (h : pendingAt q none rs = some e) : .pending q e ∈ rs :=
  (mem_of_pendingAt h).resolve_left (by simp)

/-! ## maxSeenSeq -/

theorem le_foldl_applyRecord (rs : List WalRecord) (m : PendingMap × Nat) :
    m.2 ≤ (rs.foldl applyRecord m).2 := by
  induction rs generalizing m with
  | nil => exact le_refl _
  | cons r rs ih =>
      rw [List.foldl_cons]
      refine le_trans ?_ (ih _)
      cases r with
      | skip => exact le_refl _
      | _ => exact le_max_left _ _

/-- `maxSeenSeq` bounds the sequence numbers read. -/
theorem seq_le_maxSeenSeq {rs : List WalRecord} {r : WalRecord} {q : Nat} (hr : r ∈ rs)
    (hq : r.seq? = some q) (m : PendingMap × Nat) : q ≤ (rs.foldl applyRecord m).2 := by
  induction rs generalizing m with
  | nil => cases hr
  | cons r' rs ih =>
      rw [List.foldl_cons]
      rcases List.mem_cons.mp hr with rfl | hr
      · refine le_trans ?_ (le_foldl_applyRecord rs _)
        cases r with
        | pending seq e => cases hq; exact le_max_right _ _
        | done seq => cases hq; exact le_max_right _ _
        | seen seq => cases hq
        | skip => cases hq
      · exact ih hr _

/-! ## Logs that the queue writes -/

/-- The records of a log that the queue has written: numbers from 1 on, and data
without newlines. -/
def Proper (rs : List WalRecord) : Prop :=
  ∀ r ∈ rs, ∃ q, r.seq? = some q ∧ 0 < q ∧ ∀ e, r = .pending q e → '\n' ∉ e.data

theorem proper_nil : Proper [] := by
  intro r hr
  cases hr

theorem Proper.append {rs : List WalRecord} {r : WalRecord} {q : Nat} (h : Proper rs)
    (hq : r.seq? = some q) (hpos : 0 < q) (hdata : ∀ e, r = .pending q e → '\n' ∉ e.data) :
    Proper (rs ++ [r]) := by
  intro r' hr'
  rcases List.mem_append.mp hr' with hr' | hr'
  · exact h r' hr'
  · rw [List.mem_singleton.mp hr']
    exact ⟨q, hq, hpos, hdata⟩

/-- If `maxSeenSeq` stays 0, the log has no records. -/
theorem Proper.eq_nil {rs : List WalRecord} (h : Proper rs) {m : PendingMap × Nat}
    (h0 : (rs.foldl applyRecord m).2 = 0) : rs = [] := by
  cases rs with
  | nil => rfl
  | cons r rs =>
      obtain ⟨q, hq, hpos, -⟩ := h r List.mem_cons_self
      have hle : q ≤ ((r :: rs).foldl applyRecord m).2 := seq_le_maxSeenSeq List.mem_cons_self hq m
      omega

theorem Proper.data {rs : List WalRecord} (h : Proper rs) {q : Nat} {e : WalEntry}
    (he : .pending q e ∈ rs) : '\n' ∉ e.data := by
  obtain ⟨q', hq, -, hdata⟩ := h _ he
  cases hq
  exact hdata e rfl

end NetworkModule.Wal
