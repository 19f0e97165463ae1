import NetworkModule.Lib.CppText
import NetworkModule.Lib.OrderedMap
import NetworkModule.Types

/-!
# The write-ahead log

The lines that `WalWritePending` and `WalWriteDone` append to the log of
`TestServer/src/DBTaskQueue.cpp`, and `parseWalFile` of `WalRecover`, which reads
them back.

A write appends one chunk, which ends with a newline, so the lines of a file are
the lines of its chunks.  A chunk also has the number of the task it is about,
which is not in the file.  The proofs know the tasks by their numbers.

What the rest of the development uses of the text is `records_append_pending` and
`records_append_done`: the parser reads one record for each write, if the data has
no newline.
-/

namespace NetworkModule.Wal

open CppText

/-! ## Tasks -/

/-- `DBTaskType`, whose underlying type is `uint8_t`.  A value that is no enumerator
is `other`. -/
inductive DBTaskType where
  | recordConnectTime
  | recordDisconnectTime
  | updatePlayerData
  | other (value : Nat) (h : 3 ≤ value ∧ value < 256)
  deriving DecidableEq

/-- `static_cast<int>(type)`. -/
def DBTaskType.toNat : DBTaskType → Nat
  | .recordConnectTime => 0
  | .recordDisconnectTime => 1
  | .updatePlayerData => 2
  | .other value _ => value

/-- `static_cast<DBTaskType>(typeInt)`. -/
def DBTaskType.ofInt (typeInt : Int) : DBTaskType :=
  match h : (typeInt % 256).toNat with
  | 0 => .recordConnectTime
  | 1 => .recordDisconnectTime
  | 2 => .updatePlayerData
  | n + 3 => .other (n + 3) (by omega)

theorem DBTaskType.toNat_lt (type : DBTaskType) : type.toNat < 256 := by
  cases type with
  | other value h => exact h.2
  | _ => decide

theorem DBTaskType.ofInt_toNat (type : DBTaskType) : ofInt type.toNat = type := by
  cases type with
  | other value h =>
      obtain ⟨n, rfl⟩ : ∃ n, value = n + 3 := ⟨value - 3, by omega⟩
      have hn : ((↑(n + 3) : Int) % 256).toNat = n + 3 := by omega
      simp only [ofInt, toNat]
      split
      next h0 => omega
      next h1 => omega
      next h2 => omega
      next m hm =>
        have : m = n := by omega
        subst this
        rfl
  | _ => rfl

/-- `DBTask`. -/
structure DBTask where
  /-- The number of the task. -/
  uid : Nat
  type : DBTaskType
  sessionId : ConnectionId
  data : List Char
  /-- Whether there is a `callback`. -/
  hasCallback : Bool := false
  walSeq : Nat := 0
  deriving DecidableEq

/-- `WalEntry`, with the number of the task. -/
structure WalEntry where
  type : DBTaskType
  sessionId : ConnectionId
  data : List Char
  uid : Nat
  deriving DecidableEq

/-! ## Writing -/

/-- What one write appends to the log. -/
structure Chunk where
  text : List Char
  uid : Nat
  deriving DecidableEq

/-- The data field with `|` replaced. -/
def escape (data : List Char) : List Char := data.map fun c => if c = '|' then '\x01' else c

/-- The fields of a `P` line after the first. -/
def pendingFields (t : DBTask) : List Char :=
  decimal t.type.toNat ++ '|' :: (decimal t.sessionId.toNat ++ '|' :: (decimal t.walSeq ++
    '|' :: escape t.data))

/-- The chunk of `WalWritePending`. -/
def pendingChunk (t : DBTask) : Chunk := ⟨'P' :: '|' :: pendingFields t ++ ['\n'], t.uid⟩

/-- The chunk of `WalWriteDone`. -/
def doneChunk (t : DBTask) : Chunk := ⟨'D' :: '|' :: decimal t.walSeq ++ ['\n'], t.uid⟩

/-! ## Reading -/

/-- The data field as it was. -/
def unescape (data : List Char) : List Char := data.map fun c => if c = '\x01' then '|' else c

/-- What one line says to the parser. -/
inductive WalRecord where
  /-- A `P` line. -/
  | pending (seq : Nat) (entry : WalEntry)
  /-- A `D` line. -/
  | done (seq : Nat)
  /-- A `P` line whose type or session is no number.  Its sequence number counts. -/
  | seen (seq : Nat)
  /-- Any other line. -/
  | skip
  deriving DecidableEq

/-- The fields of a `P` line. -/
def parsePending (uid : Nat) (rest : Option (List Char)) : WalRecord :=
  (do
    let (typeStr, rest) ← getline '|' rest
    let (sessionStr, rest) ← getline '|' rest
    let (seqStr, rest) ← getline '|' rest
    let data := ((getline '\n' rest).map Prod.fst).getD []
    let seq ← stoull seqStr
    match stoi typeStr, stoull sessionStr with
    | some typeInt, some sessionId =>
        some (WalRecord.pending seq.toNat ⟨.ofInt typeInt, sessionId, unescape data, uid⟩)
    | _, _ => some (WalRecord.seen seq.toNat)).getD .skip

/-- The field of a `D` line. -/
def parseDone (rest : Option (List Char)) : WalRecord :=
  (do
    let (seqStr, _) ← getline '|' rest
    let seq ← stoull seqStr
    some (WalRecord.done seq.toNat)).getD .skip

/-- The body of the loop of `parseWalFile`, up to the map. -/
def parseLine (uid : Nat) (line : List Char) : WalRecord :=
  match getline '|' (some line) with
  | none => .skip
  | some (status, rest) =>
      if status = ['P'] then parsePending uid rest
      else if status = ['D'] then parseDone rest
      else .skip

/-- The lines of a chunk.  Empty lines are skipped. -/
def Chunk.lines (c : Chunk) : List (List Char) := (c.text.splitOn '\n').filter (!·.isEmpty)

/-- What the lines of a file say. -/
def records (file : List Chunk) : List WalRecord :=
  file.flatMap fun c => c.lines.map (parseLine c.uid)

/-- `pendingMap`. -/
abbrev PendingMap := OrderedMap Nat WalEntry

/-- What a line does to `pendingMap` and `maxSeenSeq`. -/
def applyRecord (s : PendingMap × Nat) : WalRecord → PendingMap × Nat
  | .pending seq entry => (s.1.emplace seq entry, max s.2 seq)
  | .done seq => (s.1.erase seq, max s.2 seq)
  | .seen seq => (s.1, max s.2 seq)
  | .skip => s

/-- `parseWalFile`.  A missing file is skipped. -/
def parseWalFile (s : PendingMap × Nat) (file : Option (List Chunk)) : PendingMap × Nat :=
  (records (file.getD [])).foldl applyRecord s

/-! ## The text of a record -/

/-- The text before the newline is the one line of a chunk. -/
theorem lines_of_notMem {text : List Char} (uid : Nat) (h : '\n' ∉ text) (hne : text ≠ []) :
    (Chunk.mk (text ++ ['\n']) uid).lines = [text] := by
  have hall : ∀ c ∈ text, (c == '\n') = false := by
    intro c hc
    simpa using fun he : c = '\n' => h (he ▸ hc)
  have hsplit : (text ++ ['\n']).splitOn '\n' = [text, []] := by
    rw [List.splitOn_eq_splitOnP]
    rw [List.splitOnP_append_cons_of_forall_mem hall '\n' (by simp)]
    rfl
  have hfalse : text.isEmpty = false := by simpa using hne
  simp [Chunk.lines, hsplit, hfalse]

theorem notMem_escape {data : List Char} (h : '\n' ∉ data) : '\n' ∉ escape data := by
  intro hc
  obtain ⟨c, hmem, he⟩ := List.mem_map.mp hc
  split at he
  · cases he
  · exact h (he ▸ hmem)

/-- The data survives the log if it has no newline and no `\x01`. -/
theorem unescape_escape {data : List Char} (h : '\x01' ∉ data) : unescape (escape data) = data := by
  rw [unescape, escape, List.map_map]
  conv_rhs => rw [← List.map_id data]
  refine List.map_congr_left fun c hc => ?_
  have hne : c ≠ '\x01' := fun he => h (he ▸ hc)
  by_cases hbar : c = '|'
  · subst hbar
    rfl
  · simp [hbar, hne]

theorem notMem_unescape {data : List Char} (h : '\n' ∉ data) : '\n' ∉ unescape data := by
  intro hc
  obtain ⟨c, hmem, he⟩ := List.mem_map.mp hc
  split at he
  · cases he
  · exact h (he ▸ hmem)

/-- The entry that is read back for a task. -/
def entryOf (t : DBTask) : WalEntry := ⟨t.type, t.sessionId, unescape (escape t.data), t.uid⟩

/-- The fields of a pending task, read back. -/
theorem parsePending_fields {t : DBTask} (hseq : t.walSeq < 2 ^ 64) (hdata : '\n' ∉ t.data) :
    parsePending t.uid (some (pendingFields t)) = .pending t.walSeq (entryOf t) := by
  have hbar : ∀ n : Nat, '|' ∉ decimal n := notMem_decimal rfl
  have htype : stoi (decimal t.type.toNat) = some (t.type.toNat : Int) :=
    stoi_decimal (lt_trans t.type.toNat_lt (by decide))
  have hsession : stoull (decimal t.sessionId.toNat) = some t.sessionId := by
    rw [stoull_decimal t.sessionId.toNat_lt, UInt64.ofNat_toNat]
  simp only [parsePending, pendingFields, getline_append (hbar _), Option.bind_eq_bind,
    Option.bind_some, getline_rest (notMem_escape hdata), stoull_decimal hseq, htype, hsession,
    DBTaskType.ofInt_toNat, Option.getD_some, entryOf, UInt64.toNat_ofNat_of_lt' hseq]

theorem records_pendingChunk {t : DBTask} (hseq : t.walSeq < 2 ^ 64) (hdata : '\n' ∉ t.data) :
    records [pendingChunk t] = [.pending t.walSeq (entryOf t)] := by
  have hnl : ∀ n : Nat, '\n' ∉ decimal n := notMem_decimal rfl
  have htext : '\n' ∉ 'P' :: '|' :: pendingFields t := by
    simp [pendingFields, hnl, notMem_escape hdata]
  have hlines : (pendingChunk t).lines = ['P' :: '|' :: pendingFields t] :=
    lines_of_notMem t.uid htext (List.cons_ne_nil _ _)
  have hstatus : getline '|' (some ('P' :: '|' :: pendingFields t)) =
      some (['P'], some (pendingFields t)) := getline_append (show '|' ∉ ['P'] by decide) _
  have hline : parseLine t.uid ('P' :: '|' :: pendingFields t) = .pending t.walSeq (entryOf t) := by
    simp only [parseLine, hstatus, if_true, parsePending_fields hseq hdata]
  simp only [records, List.flatMap_cons, List.flatMap_nil, List.append_nil, hlines,
    List.map_cons, List.map_nil]
  exact congrArg (· :: []) hline

theorem records_doneChunk {t : DBTask} (hseq : t.walSeq < 2 ^ 64) :
    records [doneChunk t] = [.done t.walSeq] := by
  have htext : '\n' ∉ 'D' :: '|' :: decimal t.walSeq := by
    simp [notMem_decimal (c := '\n') rfl]
  have hlines : (doneChunk t).lines = ['D' :: '|' :: decimal t.walSeq] :=
    lines_of_notMem t.uid htext (List.cons_ne_nil _ _)
  have hstatus : getline '|' (some ('D' :: '|' :: decimal t.walSeq)) =
      some (['D'], some (decimal t.walSeq)) := getline_append (show '|' ∉ ['D'] by decide) _
  have hfield : getline '|' (some (decimal t.walSeq)) = some (decimal t.walSeq, none) :=
    getline_end (notMem_decimal rfl _) Nat.toDigits_ne_nil
  have hline : parseLine t.uid ('D' :: '|' :: decimal t.walSeq) = .done t.walSeq := by
    have hD : (['D'] : List Char) ≠ ['P'] := by decide
    simp only [parseLine, hstatus, if_neg hD, if_true, parseDone, hfield, Option.bind_eq_bind,
      Option.bind_some, stoull_decimal hseq, Option.getD_some, UInt64.toNat_ofNat_of_lt' hseq]
  simp only [records, List.flatMap_cons, List.flatMap_nil, List.append_nil, hlines,
    List.map_cons, List.map_nil]
  exact congrArg (· :: []) hline

/-! ## Records of a growing log -/

@[simp] theorem records_nil : records [] = [] := rfl

/-- A pending line adds one record. -/
theorem records_append_pending (file : List Chunk) {t : DBTask} (hseq : t.walSeq < 2 ^ 64)
    (hdata : '\n' ∉ t.data) :
    records (file ++ [pendingChunk t]) = records file ++ [.pending t.walSeq (entryOf t)] := by
  rw [← records_pendingChunk hseq hdata, records, records, records, List.flatMap_append]

/-- A done line adds one record. -/
theorem records_append_done (file : List Chunk) {t : DBTask} (hseq : t.walSeq < 2 ^ 64) :
    records (file ++ [doneChunk t]) = records file ++ [.done t.walSeq] := by
  rw [← records_doneChunk hseq, records, records, records, List.flatMap_append]

end NetworkModule.Wal
