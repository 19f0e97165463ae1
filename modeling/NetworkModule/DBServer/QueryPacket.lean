import NetworkModule.DBServer.Worker

/-!
# The packet of a query

`ProcessTask` copies the data of a task into the buffer of a `PKT_DBQueryReq`.  The
length goes through a minimum with the size of the buffer and a cast to 16 bits,
and a zero follows the bytes that were copied.  What was in the buffer before, which
the constructor does not clear, is the parameter `raw`.

The peer reads `dataLength` bytes (`PktDBQueryReq.payload`).  They are the first
`queryDataSize - 1` bytes of the data (`payload_build`), so `buildPacket`, which
has only these bytes, is what the packet says (`read_build`).  Neither `CheckTask`
nor `ProcessTask` looks at the length, and a longer data is cut
(`fidelity_iff`).
-/

namespace NetworkModule.DBServer

/-- `static_cast<uint8_t>(task.type)`. -/
def DBServerTaskType.toUInt8 : DBServerTaskType → UInt8
  | .savePlayerProgress => 0
  | .loadPlayerData => 1
  | .other value => value

/-- `PKT_DBQueryReq`, without the header that `InitPacket` fills. -/
structure PktDBQueryReq where
  queryId : UInt64
  taskType : UInt8
  /-- How many bytes of `data` are valid. -/
  dataLength : UInt16
  data : Vector UInt8 queryDataSize

/-- `std::memcpy(dst, src, n)`. -/
def memcpy (dst : Vector UInt8 queryDataSize) (src : List UInt8) (n : Nat) :
    Vector UInt8 queryDataSize :=
  .ofFn fun i => if i.val < n then src.getD i.val 0 else dst[i]

namespace PktDBQueryReq

/-- The packet that `ProcessTask` builds. -/
def build (raw : Vector UInt8 queryDataSize) (requestId : UInt64) (t : DBServerTask) :
    PktDBQueryReq :=
  let dataLength := UInt16.ofNat (min t.data.length (queryDataSize - 1))
  let data := if 0 < dataLength then memcpy raw t.data dataLength.toNat else raw
  ⟨requestId, t.type.toUInt8, dataLength, data.setIfInBounds dataLength.toNat 0⟩

/-- The bytes that the peer reads. -/
def payload (pkt : PktDBQueryReq) : List UInt8 := pkt.data.toList.take pkt.dataLength.toNat

variable (raw : Vector UInt8 queryDataSize) (requestId : UInt64) (t : DBServerTask)

/-- The cast does not change the length. -/
theorem dataLength_build :
    (build raw requestId t).dataLength.toNat = min t.data.length (queryDataSize - 1) := by
  refine UInt16.toNat_ofNat_of_lt' (lt_of_le_of_lt (Nat.min_le_right _ _) ?_)
  decide

/-- The zero is in the buffer, after the bytes. -/
theorem terminated_build :
    (build raw requestId t).data.toList[(build raw requestId t).dataLength.toNat]? = some 0 := by
  have hlt : (build raw requestId t).dataLength.toNat < queryDataSize := by
    rw [dataLength_build]
    exact lt_of_le_of_lt (Nat.min_le_right _ _) (by decide)
  rw [Vector.getElem?_toList, Vector.getElem?_eq_getElem hlt]
  exact congrArg some (Vector.getElem_setIfInBounds_self _)

/-- The bytes are the data, as far as it goes into the buffer with the zero. -/
theorem payload_build :
    (build raw requestId t).payload = t.data.take (queryDataSize - 1) := by
  have hlen := dataLength_build raw requestId t
  refine List.ext_getElem? fun i => ?_
  rw [payload, List.getElem?_take, List.getElem?_take]
  by_cases hi : i < (build raw requestId t).dataLength.toNat
  · obtain ⟨hdata, hsize⟩ := Nat.lt_min.mp (hlen ▸ hi)
    have hbuffer : i < queryDataSize := lt_of_lt_of_le hsize (Nat.sub_le _ _)
    have hpos : 0 < UInt16.ofNat (min t.data.length (queryDataSize - 1)) :=
      UInt16.lt_iff_toNat_lt.mpr (lt_of_le_of_lt (Nat.zero_le i) hi)
    rw [if_pos hi, if_pos hsize, Vector.getElem?_toList, Vector.getElem?_eq_getElem hbuffer,
      List.getElem?_eq_getElem hdata]
    -- The zero is not at `i`, and `memcpy` has written the byte there.
    have hbyte : (build raw requestId t).data[i] = (memcpy raw t.data
        (build raw requestId t).dataLength.toNat)[i] := by
      simp only [build, if_pos hpos]
      exact Vector.getElem_setIfInBounds_ne hbuffer (Nat.ne_of_gt hi)
    rw [hbyte, memcpy, Vector.getElem_ofFn, if_pos hi, List.getD_eq_getElem _ _ hdata]
  · have hnot : ¬ i < min t.data.length (queryDataSize - 1) := hlen ▸ hi
    rw [if_neg hi]
    split
    next hsize =>
      have hdata : t.data.length ≤ i := by omega
      exact (List.getElem?_eq_none hdata).symm
    next => rfl

/-- The packet as the rest of the queue knows it is what the peer reads. -/
theorem read_build :
    buildPacket requestId t =
      ⟨(build raw requestId t).queryId, t.type, (build raw requestId t).payload⟩ := by
  rw [payload_build]
  rfl

end PktDBQueryReq

/-! ## The packet of a call of ProcessTask -/

section ProcessTask

variable (w : WorkerData) (now : Nat) (sendOk : Bool) (raw : Vector UInt8 queryDataSize)
  (t : DBServerTask)

/-- The packet that a call of `ProcessTask` gives to `mSendFunc`, if it comes to that. -/
def WorkerData.packet : Option PktDBQueryReq :=
  if (w.session t.sessionId).requestId ≠ 0 then none
  else if checkPassed t then some (.build raw w.keyGen.nextId t)
  else none

/-- The sends of the worker are these packets. -/
theorem sends_processTask :
    (w.processTask now sendOk t).sends = w.sends ++ (w.packet raw t).toList.map fun pkt =>
      ⟨⟨pkt.queryId, t.type, pkt.payload⟩, t.sessionId, t.uid⟩ := by
  simp only [WorkerData.processTask, WorkerData.packet]
  split
  · exact (List.append_nil _).symm
  · split
    · rw [Option.toList_some, List.map_singleton, ← PktDBQueryReq.read_build]
      cases sendOk with
      | true => rfl
      | false =>
          simp only [WorkerData.sendTask, WorkerData.sendFailed, Bool.false_eq_true, if_false]
          split <;> rfl
    · split <;> exact (List.append_nil _).symm

/-- What a call of `ProcessTask` should do with the data of the task. -/
structure Fidelity : Prop where
  /-- A packet has the data of the task, and its length. -/
  sent : ∀ pkt, w.packet raw t = some pkt →
    pkt.dataLength.toNat = t.data.length ∧ pkt.payload = t.data
  /-- For data that does not go into the buffer there is no packet, and the callback of the
  task gets an error. -/
  reported : queryDataSize - 1 < t.data.length →
    w.packet raw t = none ∧ ∀ uid, t.callback = some uid → ∃ result detail, result ≠ .success ∧
      (w.processTask now sendOk t).invoked = w.invoked ++ [⟨uid, result, detail⟩]

variable {w t}

/-- The data of a task that is sent arrives as it is, or the callback is told, exactly if it
goes into the buffer with the zero. -/
theorem fidelity_iff (hidle : (w.session t.sessionId).requestId = 0)
    (hcheck : checkPassed t = true) :
    Fidelity w now sendOk raw t ↔ t.data.length ≤ queryDataSize - 1 := by
  have hpacket : w.packet raw t = some (.build raw w.keyGen.nextId t) := by
    rw [WorkerData.packet, if_neg (not_not_intro hidle), if_pos hcheck]
  constructor
  · intro h
    by_contra hlong
    have hnone := (h.reported (Nat.lt_of_not_le hlong)).1
    rw [hpacket] at hnone
    cases hnone
  · intro hfits
    refine ⟨fun pkt hpkt => ?_, fun hlong => absurd hfits (Nat.not_le_of_lt hlong)⟩
    rw [hpacket] at hpkt
    cases hpkt
    exact ⟨by rw [PktDBQueryReq.dataLength_build, Nat.min_eq_left hfits],
      by rw [PktDBQueryReq.payload_build, List.take_of_length_le hfits]⟩

end ProcessTask

/-- A progress of `n` bytes. -/
def progress (n : Nat) : DBServerTask := { uid := 0, sessionId := 7, data := List.replicate n 1 }

/-- The exact condition for a progress of 511 bytes, the longest that fits. -/
theorem fidelity_iff_longest :
    Fidelity (.make 0) 0 true (.replicate queryDataSize 0) (progress 511) ↔
      (progress 511).data.length ≤ queryDataSize - 1 :=
  fidelity_iff 0 true _ rfl rfl

/-- Of a progress of 512 bytes the last one is lost. -/
theorem not_fidelity_long :
    ¬ Fidelity (.make 0) 0 true (.replicate queryDataSize 0) (progress 512) := by
  intro h
  have hlen : (progress 512).data.length = 512 := List.length_replicate
  have hlong : queryDataSize - 1 < (progress 512).data.length := by
    rw [hlen]
    decide
  have hnone := (h.reported hlong).1
  cases hnone

end NetworkModule.DBServer
