import NetworkModule.Wal.Records

/-!
# Reading back the line of a task

`WalWritePending` replaces `|` in the data and nothing else, and the parser turns
every `\x01` into `|`.  So a line ends at the first newline of the data, and a
`\x01` of the data comes back as `|`.

`RoundTrips` says what the parser should make of a file that has the line of a
task among others.  An entry that is read from any file is `Plain`: its data has
neither of the two characters (`plain_of_mem_records`).  So the data of the task
must be plain, and then the line is one record for the number of the task and for
no other.  Which entry it leaves also depends on the first `P` line with its
number, since `emplace` does not replace an entry.
-/

namespace NetworkModule.Wal

open CppText

/-! ## Data that the parser can produce -/

/-- The data has no character that the log cannot carry. -/
def Plain (data : List Char) : Prop := '\n' ∉ data ∧ '\x01' ∉ data

instance (data : List Char) : Decidable (Plain data) :=
  inferInstanceAs (Decidable (_ ∧ _))

theorem notMem_getline {delim : Char} {s : Option (List Char)} :
    delim ∉ ((getline delim s).map Prod.fst).getD [] := by
  intro hc
  match s with
  | none => cases hc
  | some [] => cases hc
  | some (c :: cs) =>
      cases hdrop : (c :: cs).dropWhile (· ≠ delim) with
      | nil =>
          simp only [getline, hdrop, Option.map_some, Option.getD_some] at hc
          simpa using List.dropWhile_eq_nil_iff.mp hdrop delim hc
      | cons d ds =>
          simp only [getline, hdrop, Option.map_some, Option.getD_some] at hc
          simpa using List.mem_takeWhile_imp hc

theorem plain_unescape {data : List Char} (h : '\n' ∉ data) : Plain (unescape data) := by
  refine ⟨notMem_unescape h, fun hc => ?_⟩
  obtain ⟨c, -, he⟩ := List.mem_map.mp hc
  split at he
  · cases he
  next hne => exact hne he

/-- A `P` line gives plain data. -/
theorem plain_of_parsePending {uid q : Nat} {rest : Option (List Char)} {e : WalEntry}
    (h : parsePending uid rest = .pending q e) : Plain e.data := by
  simp only [parsePending, Option.bind_eq_bind] at h
  cases htype : getline '|' rest with
  | none => simp [htype] at h
  | some r1 =>
  cases hsession : getline '|' r1.2 with
  | none => simp [htype, hsession] at h
  | some r2 =>
  cases hseqStr : getline '|' r2.2 with
  | none => simp [htype, hsession, hseqStr] at h
  | some r3 =>
  cases hseq : stoull r3.1 with
  | none => simp [htype, hsession, hseqStr, hseq] at h
  | some seq =>
      simp only [htype, hsession, hseqStr, hseq, Option.bind_some] at h
      split at h
      · cases h
        exact plain_unescape notMem_getline
      · cases h

/-- A `D` line gives no entry. -/
theorem parseDone_ne_pending {q : Nat} {rest : Option (List Char)} {e : WalEntry} :
    parseDone rest ≠ .pending q e := by
  intro h
  simp only [parseDone, Option.bind_eq_bind] at h
  cases hseqStr : getline '|' rest with
  | none => simp [hseqStr] at h
  | some r =>
  cases hseq : stoull r.1 with
  | none => simp [hseqStr, hseq] at h
  | some seq => simp [hseqStr, hseq] at h

/-- Whatever the file is, its entries are plain. -/
theorem plain_of_mem_records {file : List Chunk} {q : Nat} {e : WalEntry}
    (h : .pending q e ∈ records file) : Plain e.data := by
  obtain ⟨c, -, hc⟩ := List.mem_flatMap.mp h
  obtain ⟨line, -, hline⟩ := List.mem_map.mp hc
  simp only [parseLine] at hline
  split at hline
  · cases hline
  · split at hline
    · exact plain_of_parsePending hline
    · split at hline
      · exact absurd hline parseDone_ne_pending
      · cases hline

/-! ## The line among others -/

/-- The entry of a `P` line with the number `seq`. -/
def WalRecord.entry? (seq : Nat) : WalRecord → Option WalEntry
  | .pending seq' e => if seq' = seq then some e else none
  | _ => none

/-- The entry has the fields of the task. -/
def WalEntry.Of (e : WalEntry) (t : DBTask) : Prop :=
  e.type = t.type ∧ e.sessionId = t.sessionId ∧ e.data = t.data

/-- The entry of the first `P` line with the number `seq`. -/
def firstEntry (seq : Nat) (file : List Chunk) : Option WalEntry :=
  (records file).findSome? (WalRecord.entry? seq)

/-- What the parser should make of the line of a task between other lines. -/
structure RoundTrips (before : List Chunk) (t : DBTask) (after : List Chunk) : Prop where
  /-- The map has an entry for the number of the task, with the fields of the task. -/
  entry : ∃ e, (parseWalFile (.empty, 0) (some (before ++ pendingChunk t :: after))).1.lookup
    t.walSeq = some e ∧ e.Of t
  /-- The line does not change the entries of the other numbers. -/
  others : ∀ q, q ≠ t.walSeq →
    (parseWalFile (.empty, 0) (some (before ++ pendingChunk t :: after))).1.lookup q =
      (parseWalFile (.empty, 0) (some (before ++ after))).1.lookup q

/-- The map of a file, one number at a time. -/
theorem lookup_file (file : List Chunk) (q : Nat) :
    (parseWalFile (.empty, 0) (some file)).1.lookup q = pendingAt q none (records file) :=
  lookup_parse .empty 0 (some file) q

theorem records_append (file file' : List Chunk) :
    records (file ++ file') = records file ++ records file' :=
  List.flatMap_append

theorem pendingAt_concat (q : Nat) (x : Option WalEntry) (rs rs' : List WalRecord) :
    pendingAt q x (rs ++ rs') = pendingAt q (pendingAt q x rs) rs' :=
  List.foldl_append

/-- Without a `D` line an entry stays. -/
theorem pendingAt_some {q : Nat} {rs : List WalRecord} (h : .done q ∉ rs) (e : WalEntry) :
    pendingAt q (some e) rs = some e := by
  induction rs with
  | nil => rfl
  | cons r rs ih =>
      have hr : keyStep q (some e) r = some e := by
        cases r with
        | pending seq e' =>
            simp only [keyStep]
            split <;> rfl
        | done seq =>
            refine if_neg fun hq => ?_
            subst hq
            exact h List.mem_cons_self
        | seen seq => rfl
        | skip => rfl
      rw [pendingAt, List.foldl_cons, hr]
      exact ih fun hmem => h (List.mem_cons_of_mem _ hmem)

/-- Without a `D` line the first `P` line decides. -/
theorem pendingAt_eq_firstEntry {q : Nat} {rs : List WalRecord} (h : .done q ∉ rs) :
    pendingAt q none rs = rs.findSome? (WalRecord.entry? q) := by
  induction rs with
  | nil => rfl
  | cons r rs ih =>
      have hrest : .done q ∉ rs := fun hmem => h (List.mem_cons_of_mem _ hmem)
      rw [pendingAt, List.foldl_cons, List.findSome?_cons]
      by_cases hr : ∃ e, r = .pending q e
      · obtain ⟨e, rfl⟩ := hr
        simp only [keyStep, WalRecord.entry?, if_true]
        exact pendingAt_some hrest e
      · have hstep : keyStep q none r = none := by
          cases r with
          | pending seq e => exact if_neg fun hq => hr ⟨e, by rw [hq]⟩
          | done seq =>
              simp only [keyStep]
              split <;> rfl
          | seen seq => rfl
          | skip => rfl
        have hentry : r.entry? q = none := by
          cases r with
          | pending seq e => exact if_neg fun hq => hr ⟨e, by rw [hq]⟩
          | _ => rfl
        rw [hstep, hentry]
        exact ih hrest

section Line

variable {before after : List Chunk} {t : DBTask}

/-- The records of the file, if the data has no newline. -/
theorem records_line (hseq : t.walSeq < 2 ^ 64) (hdata : '\n' ∉ t.data) :
    records (before ++ pendingChunk t :: after) =
      records before ++ .pending t.walSeq (entryOf t) :: records after := by
  have hsplit : before ++ pendingChunk t :: after = before ++ ([pendingChunk t] ++ after) := rfl
  rw [hsplit, records_append, records_append, records_pendingChunk hseq hdata]
  rfl

/-- The entry that the file leaves for the number of the task. -/
theorem lookup_line (hseq : t.walSeq < 2 ^ 64) (hdata : '\n' ∉ t.data)
    (hbefore : .done t.walSeq ∉ records before) (hafter : .done t.walSeq ∉ records after) :
    (parseWalFile (.empty, 0) (some (before ++ pendingChunk t :: after))).1.lookup t.walSeq =
      some ((firstEntry t.walSeq before).getD (entryOf t)) := by
  rw [lookup_file, records_line hseq hdata, pendingAt_concat, pendingAt_eq_firstEntry hbefore,
    pendingAt, List.foldl_cons]
  have hstep : keyStep t.walSeq (firstEntry t.walSeq before) (.pending t.walSeq (entryOf t)) =
      some ((firstEntry t.walSeq before).getD (entryOf t)) := if_pos rfl
  rw [firstEntry] at hstep ⊢
  rw [hstep]
  exact pendingAt_some hafter _

/-- The line of a task comes back as it was written exactly if the data is plain and
no earlier `P` line with its number has other fields. -/
theorem roundTrips_iff (hseq : t.walSeq < 2 ^ 64) (hbefore : .done t.walSeq ∉ records before)
    (hafter : .done t.walSeq ∉ records after) :
    RoundTrips before t after ↔
      Plain t.data ∧ ∀ e, firstEntry t.walSeq before = some e → e.Of t := by
  constructor
  · intro h
    obtain ⟨e, he, hof⟩ := h.entry
    have hplain : Plain t.data := by
      rw [lookup_file] at he
      exact hof.2.2 ▸ plain_of_mem_records (mem_of_pending he)
    refine ⟨hplain, fun e' he' => ?_⟩
    rw [lookup_line hseq hplain.1 hbefore hafter, he', Option.getD_some] at he
    cases he
    exact hof
  · rintro ⟨hplain, hfirst⟩
    refine ⟨⟨_, lookup_line hseq hplain.1 hbefore hafter, ?_⟩, fun q hq => ?_⟩
    · cases he : firstEntry t.walSeq before with
      | none => exact ⟨rfl, rfl, unescape_escape hplain.2⟩
      | some e => exact hfirst e he
    · have hne : (WalRecord.pending t.walSeq (entryOf t)).seq? ≠ some q :=
        fun he => hq (Option.some.inj he).symm
      rw [lookup_file, lookup_file, records_line hseq hplain.1, records_append, pendingAt_concat,
        pendingAt_concat, pendingAt, List.foldl_cons, keyStep_of_ne hne]
      rfl

end Line

/-- The exact condition for a player's data in a file of its own. -/
theorem roundTrips_iff_alone :
    RoundTrips [] ⟨7, .updatePlayerData, 3, ['a', '|', 'b'], true, 1⟩ [] ↔
      Plain ['a', '|', 'b'] ∧ ∀ e, firstEntry 1 [] = some e →
        e.Of ⟨7, .updatePlayerData, 3, ['a', '|', 'b'], true, 1⟩ :=
  roundTrips_iff (by decide) List.not_mem_nil List.not_mem_nil

/-- A `\x01` in the data comes back as `|`. -/
theorem not_roundTrips_substitute :
    ¬ RoundTrips [] ⟨7, .updatePlayerData, 3, ['\x01'], true, 1⟩ [] := by
  intro h
  obtain ⟨e, he, -, -, hdata⟩ := h.entry
  have hread : (parseWalFile (.empty, 0)
      (some ([] ++ pendingChunk ⟨7, .updatePlayerData, 3, ['\x01'], true, 1⟩ :: []))).1.lookup 1 =
      some ⟨.updatePlayerData, 3, ['|'], 7⟩ := by decide +kernel
  rw [hread] at he
  cases he
  exact absurd hdata (by decide)

end NetworkModule.Wal
