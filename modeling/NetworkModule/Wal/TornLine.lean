import NetworkModule.Wal.RoundTrip

/-!
# A last line that is cut off

A crash in the middle of a write leaves a beginning of a line at the end of the log.
The parser has no way to see that a line is not complete.  It reads a cut line as
soon as the first digit of the sequence number is there, and takes the digits that
are there for the whole number.

`records_torn` says which record a cut line is: none, or a `P` or `D` record for
the number of the digits that are there (`LogLine.visibleSeq`).  A `P` record
changes nothing only if its number is pending, and a `D` record only if it is not
(`torn_iff`).
-/

namespace NetworkModule.Wal

open CppText

/-! ## The lines that the queue writes -/

/-- A line of the log. -/
inductive LogLine where
  /-- Written by `WalWritePending`. -/
  | pending (t : DBTask)
  /-- Written by `WalWriteDone`. -/
  | done (t : DBTask)
  deriving DecidableEq

namespace LogLine

/-- The task that the line is about. -/
def task : LogLine → DBTask
  | pending t => t
  | done t => t

/-- What the write appends. -/
def chunk : LogLine → Chunk
  | pending t => pendingChunk t
  | done t => doneChunk t

/-- What the write leaves if only `k` characters reach the file. -/
def torn (l : LogLine) (k : Nat) : Chunk := ⟨l.chunk.text.take k, l.task.uid⟩

/-- The line before the digits of the sequence number. -/
def header : LogLine → List Char
  | pending t =>
      'P' :: '|' :: (decimal t.type.toNat ++ '|' :: (decimal t.sessionId.toNat ++ ['|']))
  | done _ => ['D', '|']

/-- The number that the first `k` characters of the line show, if they show a digit of
the sequence number. -/
def visibleSeq (l : LogLine) (k : Nat) : Option Nat :=
  let shown := k - l.header.length
  if shown = 0 then none
  else some (l.task.walSeq / 10 ^ ((decimal l.task.walSeq).length - shown))

theorem visibleSeq_of_le {l : LogLine} {k : Nat} (h : k ≤ l.header.length) :
    l.visibleSeq k = none := if_pos (Nat.sub_eq_zero_of_le h)

theorem visibleSeq_add (l : LogLine) {i : Nat} (h : 0 < i) :
    l.visibleSeq (l.header.length + i) =
      some (l.task.walSeq / 10 ^ ((decimal l.task.walSeq).length - i)) := by
  rw [visibleSeq, Nat.add_sub_cancel_left, if_neg (Nat.pos_iff_ne_zero.mp h)]

/-- The number fits its type, and the data has no newline. -/
structure Ok (l : LogLine) : Prop where
  seq_lt : l.task.walSeq < 2 ^ 64
  data : '\n' ∉ l.task.data

end LogLine

/-- The lines of a log: no number has two `P` lines, and a `D` line is for a task that has
a `P` line before. -/
inductive WriterLog : List LogLine → Prop where
  | nil : WriterLog []
  | pending {lines : List LogLine} {t : DBTask} (h : WriterLog lines) (hok : (LogLine.pending t).Ok)
      (hfresh : ∀ t', .pending t' ∈ lines → t'.walSeq ≠ t.walSeq) :
      WriterLog (lines ++ [.pending t])
  | done {lines : List LogLine} {t : DBTask} (h : WriterLog lines) (hmem : .pending t ∈ lines) :
      WriterLog (lines ++ [.done t])

/-- The number `n` has a `P` line and no `D` line. -/
def Unfinished (lines : List LogLine) (n : Nat) : Prop :=
  (∃ t, .pending t ∈ lines ∧ t.walSeq = n) ∧ ∀ t, .done t ∈ lines → t.walSeq ≠ n

/-! ## The records of complete lines -/

namespace WriterLog

variable {lines : List LogLine}

theorem ok (h : WriterLog lines) : ∀ t, .pending t ∈ lines → (LogLine.pending t).Ok := by
  induction h with
  | nil => exact fun t ht => absurd ht List.not_mem_nil
  | pending h hok hfresh ih =>
      intro t ht
      rcases List.mem_append.mp ht with ht | ht
      · exact ih t ht
      · cases List.mem_singleton.mp ht
        exact hok
  | done h hmem ih =>
      intro t ht
      rcases List.mem_append.mp ht with ht | ht
      · exact ih t ht
      · cases List.mem_singleton.mp ht

/-- A `D` line has its `P` line. -/
theorem pending_of_done (h : WriterLog lines) {t : DBTask} (ht : .done t ∈ lines) :
    .pending t ∈ lines := by
  induction h with
  | nil => cases ht
  | pending h hok hfresh ih =>
      rcases List.mem_append.mp ht with ht | ht
      · exact List.mem_append_left _ (ih ht)
      · cases List.mem_singleton.mp ht
  | done h hmem ih =>
      rcases List.mem_append.mp ht with ht | ht
      · exact List.mem_append_left _ (ih ht)
      · cases List.mem_singleton.mp ht
        exact List.mem_append_left _ hmem

/-- The parser finds the unfinished tasks. -/
theorem pendingAt_isSome (h : WriterLog lines) (n : Nat) :
    (pendingAt n none (records (lines.map LogLine.chunk))).isSome ↔ Unfinished lines n := by
  induction h with
  | nil => simp [Unfinished]
  | @pending lines t h hok hfresh ih =>
      rw [List.map_append, List.map_singleton, LogLine.chunk,
        records_append_pending (t := t) _ hok.seq_lt hok.data, pendingAt_append, keyStep]
      split
      next hn =>
        have hdone : ∀ t', .done t' ∈ lines → t'.walSeq ≠ n := fun t' ht' he =>
          hfresh t' (h.pending_of_done ht') (he.trans hn)
        simpa [Unfinished] using ⟨.inr hn.symm, hdone⟩
      next hn =>
        have hne : t.walSeq ≠ n := fun he => hn he.symm
        rw [ih]
        simp only [Unfinished, List.mem_append, List.mem_singleton, reduceCtorEq, or_false,
          LogLine.pending.injEq]
        refine and_congr_left fun _ => exists_congr fun t' => ?_
        exact ⟨fun ht' => ⟨.inl ht'.1, ht'.2⟩, fun ht' =>
          ⟨ht'.1.resolve_right fun he => hne (he ▸ ht'.2), ht'.2⟩⟩
  | @done lines t h hmem ih =>
      rw [List.map_append, List.map_singleton, LogLine.chunk,
        records_append_done (t := t) _ (h.ok t hmem).seq_lt, pendingAt_append, keyStep]
      split
      next hn =>
        simp only [Option.isSome_none, Bool.false_eq_true, false_iff]
        rintro ⟨-, hdone⟩
        exact hdone t (by simp) hn.symm
      next hn =>
        rw [ih]
        simp only [Unfinished, List.mem_append, List.mem_singleton, reduceCtorEq, or_false,
          LogLine.done.injEq]
        refine and_congr_right fun _ => forall_congr' fun t' => ?_
        exact ⟨fun ht' hmem' => hmem'.elim ht' fun he => he ▸ fun heq => hn heq.symm,
          fun ht' hmem' => ht' (.inl hmem')⟩

end WriterLog

/-! ## The record of a line that is cut off -/

/-- A text without newline is at most one line. -/
theorem records_text {text : List Char} (uid : Nat) (h : '\n' ∉ text) :
    records [⟨text, uid⟩] = if text = [] then [] else [parseLine uid text] := by
  have hsplit : text.splitOn '\n' = [text] := by
    rw [List.splitOn_eq_splitOnP]
    exact List.splitOnP_eq_singleton fun c hc => by simpa using fun he : c = '\n' => h (he ▸ hc)
  cases text with
  | nil => rfl
  | cons c cs => simp [records, Chunk.lines, hsplit]

/-- The digits that are there. -/
theorem stoull_take {n j : Nat} (hn : n < 2 ^ 64) (hpos : 0 < j) :
    (stoull ((decimal n).take j)).map UInt64.toNat =
      some (n / 10 ^ ((decimal n).length - j)) := by
  rcases Nat.le_total j (decimal n).length with hle | hle
  · have hlt : n / 10 ^ ((decimal n).length - j) < 2 ^ 64 := lt_of_le_of_lt (Nat.div_le_self _ _) hn
    rw [take_decimal n hpos hle, stoull_decimal hlt, Option.map_some, UInt64.toNat_ofNat_of_lt' hlt]
  · rw [List.take_of_length_le hle, stoull_decimal hn, Nat.sub_eq_zero_of_le hle, Nat.pow_zero,
      Nat.div_one, Option.map_some, UInt64.toNat_ofNat_of_lt' hn]

/-- A cut number is what the next field gives. -/
theorem getline_take_decimal (n : Nat) (rest : List Char) {j : Nat} (hpos : 0 < j) :
    ∃ r, getline '|' (some ((decimal n ++ '|' :: rest).take j)) = some ((decimal n).take j, r) := by
  have hbar : '|' ∉ decimal n := notMem_decimal rfl n
  rcases Nat.lt_or_ge (decimal n).length j with hlt | hle
  · exact ⟨_, by rw [getline_take_gt hbar rest hlt, List.take_of_length_le hlt.le]⟩
  · refine ⟨none, ?_⟩
    have hne : ¬ (j = 0 ∨ decimal n = []) := by
      rintro (h | h)
      · omega
      · exact Nat.toDigits_ne_nil h
    rw [getline_take_le hbar rest hle, if_neg hne]

/-- A field that is cut leaves nothing for the next. -/
theorem getline_after_take {field : List Char} (h : '|' ∉ field) (rest : List Char) {j : Nat}
    (hj : j ≤ field.length) :
    getline '|' (some ((field ++ '|' :: rest).take j)) = none ∨
      ∃ f, getline '|' (some ((field ++ '|' :: rest).take j)) = some (f, none) := by
  rw [getline_take_le h rest hj]
  split
  · exact .inl rfl
  · exact .inr ⟨_, rfl⟩

section
variable {uid : Nat} {line rest : Option (List Char)} {typeStr sessionStr : List Char}

/-- A `P` line without a field for the type. -/
theorem parsePending_of_noType (htype : getline '|' line = none) :
    parsePending uid line = .skip := by
  simp only [parsePending, htype, Option.bind_eq_bind, Option.bind_none, Option.getD_none]

/-- A `P` line without a field for the session. -/
theorem parsePending_of_noSession (htype : getline '|' line = some (typeStr, rest))
    (hsession : getline '|' rest = none) : parsePending uid line = .skip := by
  simp only [parsePending, htype, hsession, Option.bind_eq_bind, Option.bind_none,
    Option.bind_some, Option.getD_none]

/-- A `P` line without a field for the number. -/
theorem parsePending_of_noSeq {rest' : Option (List Char)}
    (htype : getline '|' line = some (typeStr, rest))
    (hsession : getline '|' rest = some (sessionStr, rest')) (hseq : getline '|' rest' = none) :
    parsePending uid line = .skip := by
  simp only [parsePending, htype, hsession, hseq, Option.bind_eq_bind, Option.bind_none,
    Option.bind_some, Option.getD_none]

end

section Torn

variable (t : DBTask)

/-- The fields of a `P` line that end before the digits of the number are skipped. -/
theorem parsePending_hidden {j : Nat}
    (hj : j ≤ (decimal t.type.toNat).length + 1 + ((decimal t.sessionId.toNat).length + 1)) :
    parsePending t.uid (some ((pendingFields t).take j)) = .skip := by
  have hbar : ∀ n : Nat, '|' ∉ decimal n := notMem_decimal rfl
  rcases Nat.lt_or_ge (decimal t.type.toNat).length j with htype | htype
  · have h1 := getline_take_gt (hbar t.type.toNat) (decimal t.sessionId.toNat ++ '|' ::
      (decimal t.walSeq ++ '|' :: escape t.data)) htype
    rcases Nat.lt_or_ge (decimal t.sessionId.toNat).length
        (j - (decimal t.type.toNat).length - 1) with hsession | hsession
    · have h2 := getline_take_gt (hbar t.sessionId.toNat)
        (decimal t.walSeq ++ '|' :: escape t.data) hsession
      have h0 : j - (decimal t.type.toNat).length - 1 - (decimal t.sessionId.toNat).length - 1 =
          0 := by omega
      rw [h0, List.take_zero] at h2
      exact parsePending_of_noSeq h1 h2 rfl
    · rcases getline_after_take (hbar t.sessionId.toNat)
          (decimal t.walSeq ++ '|' :: escape t.data) hsession with h2 | ⟨f, h2⟩
      · exact parsePending_of_noSession h1 h2
      · exact parsePending_of_noSeq h1 h2 rfl
  · rcases getline_after_take (hbar t.type.toNat) (decimal t.sessionId.toNat ++ '|' ::
        (decimal t.walSeq ++ '|' :: escape t.data)) htype with h1 | ⟨f, h1⟩
    · exact parsePending_of_noType h1
    · exact parsePending_of_noSession h1 rfl

/-- The fields of a `P` line with some digits of the number are a record for the number of
these digits. -/
theorem parsePending_visible {j : Nat} (hseq : t.walSeq < 2 ^ 64) (hpos : 0 < j) :
    ∃ e, parsePending t.uid (some ((pendingFields t).take ((decimal t.type.toNat).length + 1 +
        ((decimal t.sessionId.toNat).length + 1) + j))) =
      .pending (t.walSeq / 10 ^ ((decimal t.walSeq).length - j)) e := by
  have hbar : ∀ n : Nat, '|' ∉ decimal n := notMem_decimal rfl
  have h1 := getline_take_gt (hbar t.type.toNat) (decimal t.sessionId.toNat ++ '|' ::
    (decimal t.walSeq ++ '|' :: escape t.data)) (k := (decimal t.type.toNat).length + 1 +
        ((decimal t.sessionId.toNat).length + 1) + j) (by omega)
  have h2 := getline_take_gt (hbar t.sessionId.toNat) (decimal t.walSeq ++ '|' :: escape t.data)
    (k := (decimal t.type.toNat).length + 1 + ((decimal t.sessionId.toNat).length + 1) + j -
      (decimal t.type.toNat).length - 1) (by omega)
  have hj : (decimal t.type.toNat).length + 1 + ((decimal t.sessionId.toNat).length + 1) + j -
      (decimal t.type.toNat).length - 1 - (decimal t.sessionId.toNat).length - 1 = j := by omega
  rw [hj] at h2
  obtain ⟨r, h3⟩ := getline_take_decimal t.walSeq (escape t.data) hpos
  obtain ⟨seq, hread, hval⟩ := Option.map_eq_some_iff.mp (stoull_take hseq hpos)
  have htype : stoi (decimal t.type.toNat) = some (t.type.toNat : Int) :=
    stoi_decimal (lt_trans t.type.toNat_lt (by decide))
  have hsession : stoull (decimal t.sessionId.toNat) = some t.sessionId := by
    rw [stoull_decimal t.sessionId.toNat_lt, UInt64.ofNat_toNat]
  refine ⟨⟨.ofInt t.type.toNat, t.sessionId, unescape (((getline '\n' r).map Prod.fst).getD []),
    t.uid⟩, ?_⟩
  simp only [parsePending, pendingFields, h1, h2, h3, Option.bind_eq_bind, Option.bind_some, hread,
    htype, hsession, Option.getD_some, hval]

end Torn

/-- A cut line has no newline. -/
theorem notMem_torn {text : List Char} (h : '\n' ∉ text) (k : Nat) : '\n' ∉ text.take k :=
  fun hc => h (List.mem_of_mem_take hc)

/-- The status of a cut line. -/
theorem getline_take_status {c : Char} (hc : c ≠ '|') (fields : List Char) (j : Nat) :
    getline '|' (some ((c :: '|' :: fields).take (j + 2))) = some ([c], some (fields.take j)) := by
  have hbar : '|' ∉ [c] := by simpa using hc.symm
  exact getline_append hbar _

/-- A `P` line that is cut off: no record, or one for the number of the digits that are there. -/
theorem records_torn_pending {t : DBTask} (hok : (LogLine.pending t).Ok) {k : Nat}
    (hk : k < (LogLine.pending t).chunk.text.length) :
    ((LogLine.pending t).visibleSeq k = none ∧
        ∀ r ∈ records [(LogLine.pending t).torn k], r = .skip) ∨
      ∃ n e, (LogLine.pending t).visibleSeq k = some n ∧
        records [(LogLine.pending t).torn k] = [.pending n e] := by
  have hdata : '\n' ∉ t.data := hok.data
  have hnl : '\n' ∉ 'P' :: '|' :: pendingFields t := by
    simp [pendingFields, notMem_decimal (c := '\n') rfl, notMem_escape hdata]
  have hle : k ≤ ('P' :: '|' :: pendingFields t).length := by
    simpa [LogLine.chunk, pendingChunk, Nat.lt_succ_iff] using hk
  have htorn : (LogLine.pending t).torn k = ⟨('P' :: '|' :: pendingFields t).take k, t.uid⟩ := by
    rw [LogLine.torn, LogLine.chunk, pendingChunk, List.take_append_of_le_length hle]
    rfl
  have hheader : (LogLine.pending t).header.length = (decimal t.type.toNat).length + 1 +
      ((decimal t.sessionId.toNat).length + 1) + 2 := by
    simp [LogLine.header]
    omega
  rw [htorn, records_text t.uid (notMem_torn hnl k)]
  rcases k with _ | _ | j
  · exact .inl ⟨LogLine.visibleSeq_of_le (Nat.zero_le _), by simp⟩
  · have hskip : parseLine t.uid ['P'] = .skip := rfl
    exact .inl ⟨LogLine.visibleSeq_of_le (by omega), by simp [hskip]⟩
  · have hline : parseLine t.uid (('P' :: '|' :: pendingFields t).take (j + 2)) =
        parsePending t.uid (some ((pendingFields t).take j)) := by
      rw [parseLine, getline_take_status (by decide)]
      rfl
    rw [if_neg (by simp), hline]
    rcases Nat.lt_or_ge ((decimal t.type.toNat).length + 1 +
      ((decimal t.sessionId.toNat).length + 1)) j with hj | hj
    · obtain ⟨i, rfl⟩ := Nat.exists_eq_add_of_lt hj
      obtain ⟨e, he⟩ := parsePending_visible t hok.seq_lt (Nat.succ_pos i)
      have hshown := LogLine.visibleSeq_add (.pending t) (Nat.succ_pos i)
      have hk : (LogLine.pending t).header.length + i.succ = (decimal t.type.toNat).length + 1 +
          ((decimal t.sessionId.toNat).length + 1) + i + 1 + 2 := by omega
      exact .inr ⟨_, e, hk ▸ hshown, congrArg (· :: []) he⟩
    · exact .inl ⟨LogLine.visibleSeq_of_le (by omega), by simp [parsePending_hidden t hj]⟩

/-- A `D` line that is cut off: no record, or one for the number of the digits that are there. -/
theorem records_torn_done {t : DBTask} (hok : (LogLine.done t).Ok) {k : Nat}
    (hk : k < (LogLine.done t).chunk.text.length) :
    ((LogLine.done t).visibleSeq k = none ∧ ∀ r ∈ records [(LogLine.done t).torn k], r = .skip) ∨
      ∃ n, (LogLine.done t).visibleSeq k = some n ∧
        records [(LogLine.done t).torn k] = [.done n] := by
  have hseq : t.walSeq < 2 ^ 64 := hok.seq_lt
  have hnl : '\n' ∉ 'D' :: '|' :: decimal t.walSeq := by
    simp [notMem_decimal (c := '\n') rfl]
  have hle : k ≤ ('D' :: '|' :: decimal t.walSeq).length := by
    simpa [LogLine.chunk, doneChunk, Nat.lt_succ_iff] using hk
  have htorn : (LogLine.done t).torn k = ⟨('D' :: '|' :: decimal t.walSeq).take k, t.uid⟩ := by
    rw [LogLine.torn, LogLine.chunk, doneChunk, List.take_append_of_le_length hle]
    rfl
  rw [htorn, records_text t.uid (notMem_torn hnl k)]
  rcases k with _ | _ | j
  · exact .inl ⟨LogLine.visibleSeq_of_le (Nat.zero_le _), by simp⟩
  · have hskip : parseLine t.uid ['D'] = .skip := rfl
    exact .inl ⟨LogLine.visibleSeq_of_le (Nat.le_succ 1), by simp [hskip]⟩
  · have hline : parseLine t.uid (('D' :: '|' :: decimal t.walSeq).take (j + 2)) =
        parseDone (some ((decimal t.walSeq).take j)) := by
      rw [parseLine, getline_take_status (by decide)]
      rfl
    rw [if_neg (by simp), hline]
    rcases Nat.eq_zero_or_pos j with rfl | hj
    · exact .inl ⟨LogLine.visibleSeq_of_le (le_refl 2), by simp [parseDone]⟩
    · obtain ⟨seq, hread, hval⟩ := Option.map_eq_some_iff.mp (stoull_take hseq hj)
      have hfield : getline '|' (some ((decimal t.walSeq).take j)) =
          some ((decimal t.walSeq).take j, none) := by
        refine getline_end (fun hc => notMem_decimal rfl _ (List.mem_of_mem_take hc)) ?_
        simp [List.take_eq_nil_iff, decimal, Nat.toDigits_ne_nil, hj.ne']
      refine .inr ⟨t.walSeq / 10 ^ ((decimal t.walSeq).length - j), ?_, ?_⟩
      · rw [Nat.add_comm j 2]
        exact LogLine.visibleSeq_add (.done t) hj
      · simp only [parseDone, hfield, Option.bind_eq_bind, Option.bind_some, hread,
          Option.getD_some]
        exact congrArg (fun n => [WalRecord.done n]) hval

/-! ## The pending map -/

/-- The cut line changes nothing: it shows no digit of its number, or it is a `P` line and
shows the number of an unfinished task, or it is a `D` line and does not. -/
def Harmless (lines : List LogLine) (l : LogLine) (k : Nat) : Prop :=
  ∀ n, l.visibleSeq k = some n →
    match l with
    | .pending _ => Unfinished lines n
    | .done _ => ¬ Unfinished lines n

/-- Records that are skipped change nothing. -/
theorem foldl_skip {rs : List WalRecord} (h : ∀ r ∈ rs, r = .skip) (m : PendingMap × Nat) :
    rs.foldl applyRecord m = m := by
  induction rs with
  | nil => rfl
  | cons r rs ih =>
      rw [List.foldl_cons, h r List.mem_cons_self]
      exact ih fun r' hr' => h r' (List.mem_cons_of_mem _ hr')

/-- The map of the complete lines and a further line. -/
theorem parse_concat (file : List Chunk) (c : Chunk) :
    parseWalFile (.empty, 0) (some (file ++ [c])) =
      (records [c]).foldl applyRecord (parseWalFile (.empty, 0) (some file)) := by
  rw [parseWalFile, parseWalFile, Option.getD_some, Option.getD_some, records_append,
    List.foldl_append]

/-- A last line that is cut off leaves the pending map as it is exactly if it is harmless. -/
theorem torn_iff {lines : List LogLine} (h : WriterLog lines) {l : LogLine} (hok : l.Ok) {k : Nat}
    (hk : k < l.chunk.text.length) :
    (parseWalFile (.empty, 0) (some (lines.map LogLine.chunk ++ [l.torn k]))).1 =
        (parseWalFile (.empty, 0) (some (lines.map LogLine.chunk))).1 ↔
      Harmless lines l k := by
  have hlookup : ∀ n, ((parseWalFile (.empty, 0) (some (lines.map LogLine.chunk))).1.lookup
      n).isSome ↔ Unfinished lines n := by
    intro n
    rw [lookup_file]
    exact h.pendingAt_isSome n
  rw [parse_concat]
  cases l with
  | pending t =>
      rcases records_torn_pending hok hk with ⟨hnone, hskip⟩ | ⟨n, e, hsome, hrec⟩
      · rw [foldl_skip hskip, Harmless, hnone]
        simp
      · rw [hrec, Harmless, hsome]
        simp only [List.foldl_cons, List.foldl_nil, applyRecord, OrderedMap.emplace_eq_iff, hlookup,
          Option.some.injEq, forall_eq']
  | done t =>
      rcases records_torn_done hok hk with ⟨hnone, hskip⟩ | ⟨n, hsome, hrec⟩
      · rw [foldl_skip hskip, Harmless, hnone]
        simp
      · rw [hrec, Harmless, hsome]
        simp only [List.foldl_cons, List.foldl_nil, applyRecord, OrderedMap.erase_eq_iff,
          Option.some.injEq, forall_eq', ← hlookup, Option.not_isSome_iff_eq_none]

/-! ## Two tasks and the end of the second -/

/-- A task of the session 7. -/
def playerTask (seq : Nat) : DBTask := ⟨seq, .updatePlayerData, 7, ['x'], false, seq⟩

/-- The lines of two tasks. -/
def twoTasks : List LogLine := [.pending (playerTask 1), .pending (playerTask 12)]

theorem writerLog_twoTasks : WriterLog twoTasks := by
  have hone : WriterLog ([] ++ [.pending (playerTask 1)]) :=
    .pending .nil ⟨by decide, by decide⟩ fun t ht => absurd ht List.not_mem_nil
  refine .pending hone ⟨by decide, by decide⟩ fun t ht => ?_
  cases List.mem_singleton.mp ht
  decide

/-- The exact condition for a `D` line of which one digit is there. -/
theorem torn_iff_twoTasks :
    (parseWalFile (.empty, 0) (some (twoTasks.map LogLine.chunk ++
        [(LogLine.done (playerTask 12)).torn 3]))).1 =
      (parseWalFile (.empty, 0) (some (twoTasks.map LogLine.chunk))).1 ↔
      Harmless twoTasks (.done (playerTask 12)) 3 :=
  torn_iff writerLog_twoTasks ⟨by decide, by decide⟩ (by decide)

/-- The line `D|12` without its last digit ends the task 1. -/
theorem torn_ends_another :
    WriterLog twoTasks ∧ .pending (playerTask 12) ∈ twoTasks ∧
      3 < (LogLine.done (playerTask 12)).chunk.text.length ∧
      (parseWalFile (.empty, 0) (some (twoTasks.map LogLine.chunk ++
          [(LogLine.done (playerTask 12)).torn 3]))).1 ≠
        (parseWalFile (.empty, 0) (some (twoTasks.map LogLine.chunk))).1 := by
  refine ⟨writerLog_twoTasks, by decide, by decide, fun h => ?_⟩
  have hlookup := congrArg (fun m => (m.lookup 1).isSome) h
  exact absurd hlookup (by decide +kernel)

end NetworkModule.Wal
