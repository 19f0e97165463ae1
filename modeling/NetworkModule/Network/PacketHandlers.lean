import NetworkModule.Lib.ReadLog

/-!
# Packet handlers

Three classes turn a received packet into actions: `ClientPacketHandler` and
`DBServerPacketHandler` of the test server, and `ServerPacketHandler` of the DB server.
`ProcessPacket` validates the header, finds the size that a packet with this id must have
at least, and calls the handler of the id.  A handler casts the buffer to the structure of
the packet and reads its fields.

The bytes may be anything.  The question is whether a handler reads only the structure
that `ProcessPacket` has validated (`inBounds_iff`).  Two handlers make a `std::string` of
a text field, and the string ends at the first zero byte.  A peer that sends the field
without a zero byte makes them read past the end of the structure, and of the buffer, if
it has nothing behind it.

The structures are packed, so a field lies where the fields before it end.
-/

namespace NetworkModule.PacketHandlers

open ReadLog

/-! ## Packets -/

/-- A field of a packet: its offset and its size. -/
structure Field where
  off : Nat
  len : Nat
  deriving DecidableEq, Repr

/-- The value of a number field. -/
def Field.read (f : Field) : ReadLog Nat := unsigned f.off f.len

/-- The bytes of a field. -/
def Field.of (f : Field) (buf : List UInt8) : List UInt8 := (buf.drop f.off).take f.len

/-- `header->size`. -/
def headerSizeField : Field := ⟨0, 2⟩

/-- `header->id`. -/
def headerIdField : Field := ⟨2, 2⟩

/-- `sizeof(PacketHeader)`. -/
def packetHeaderSize : Nat := 4

/-- `sizeof(ServerPacketHeader)`. -/
def serverPacketHeaderSize : Nat := 8

/-- `MAX_PACKET_SIZE`, and the limit of the server packets. -/
def maxPacketSize : Nat := 4096

namespace SessionConnectReq

def clientVersion : Field := ⟨4, 4⟩
def size : Nat := 8

end SessionConnectReq

namespace PingReq

def clientTime : Field := ⟨4, 8⟩
def sequence : Field := ⟨12, 4⟩
def size : Nat := 16

end PingReq

namespace ServerPingReq

def timestamp : Field := ⟨8, 8⟩
def sequence : Field := ⟨16, 4⟩
def size : Nat := 20

end ServerPingReq

namespace ServerPongRes

def requestTimestamp : Field := ⟨8, 8⟩
def responseTimestamp : Field := ⟨16, 8⟩
def sequence : Field := ⟨24, 4⟩
def size : Nat := 28

end ServerPongRes

namespace DBSavePingTimeReq

def serverId : Field := ⟨8, 4⟩
def timestamp : Field := ⟨12, 8⟩
def serverName : Field := ⟨20, 32⟩
def size : Nat := 52

end DBSavePingTimeReq

namespace DBSavePingTimeRes

def serverId : Field := ⟨8, 4⟩
def result : Field := ⟨12, 1⟩
def message : Field := ⟨13, 64⟩
def size : Nat := 77

end DBSavePingTimeRes

namespace DBQueryRes

def queryId : Field := ⟨8, 8⟩
def result : Field := ⟨16, 4⟩
def detailLength : Field := ⟨20, 2⟩
def detail : Field := ⟨22, 256⟩
def size : Nat := 278

end DBQueryRes

/-- The ids of the packets that have a handler. -/
def idSessionConnectReq : Nat := 1
def idPingReq : Nat := 3
def idServerPingReq : Nat := 1000
def idServerPongRes : Nat := 1001
def idDBSavePingTimeReq : Nat := 2000
def idDBSavePingTimeRes : Nat := 2001
def idDBQueryRes : Nat := 2003

/-! ## Actions -/

/-- Why `ProcessPacket` drops a packet. -/
inductive Rejection where
  | invalidData
  | notInitialized
  | sizeOutOfRange (size : Nat)
  | incomplete (expected received : Nat)
  | tooSmall (id expected actual : Nat)
  | unknownType (id : Nat)
  deriving DecidableEq, Repr

/-- A task for the `OrderedTaskQueue` of the DB server. -/
inductive Task where
  | recordLatency (serverId rttMs receiveTime : Nat)
  | savePingTime (serverId : Nat) (serverName : List UInt8) (timestamp : Nat)
  deriving DecidableEq, Repr

/-- What is done with a packet. -/
inductive Action where
  | rejected (why : Rejection)
  | nullPointer
  /-- Log lines. -/
  | logConnect (sessionId clientVersion : Nat)
  | logPing (sequence : Nat)
  | logLatency (sequence rttMs : Nat)
  | logSaveRequest (serverId : Nat) (serverName : List UInt8)
  | logSaved (serverId : Nat)
  | logSaveFailed (serverId : Nat) (message : List UInt8)
  | logNoTaskQueue
  /-- Packets sent. -/
  | sendConnectRes (sessionId serverTime result : Nat)
  | sendPongRes (clientTime serverTime sequence : Nat)
  | sendServerPongRes (sequence requestTimestamp responseTimestamp : Nat)
  | sendSaveRes (serverId result : Nat)
  /-- Calls. -/
  | setLastPingTime (time : Nat)
  | enqueue (key : Nat) (task : Task)
  | call (task : Task)
  | onDBResponse (queryId result : Nat) (detail : List UInt8)
  deriving DecidableEq, Repr

/-- What the handlers use besides the packet. -/
structure Env where
  /-- Whether the pointers are there. -/
  session : Bool
  data : Bool
  mOrderedTaskQueue : Bool
  mLatencyManager : Bool
  mTaskQueue : Bool
  /-- `mLatencyManager->IsInitialized()`. -/
  latencyInitialized : Bool
  /-- What `SavePingTime` returns. -/
  saved : Bool
  /-- `session->IsConnected()`. -/
  isConnected : Bool
  /-- `session->GetId()`. -/
  sessionId : Nat
  /-- `Timer::GetCurrentTimestamp()`. -/
  now : Nat
  /-- `std::time(nullptr)`. -/
  time : Nat
  deriving DecidableEq, Repr

/-- `PINGPONG_LOG_INTERVAL`. -/
def pingPongLogInterval : Nat := 10

/-- The difference of two 64-bit time stamps. -/
def elapsed (now timestamp : Nat) : Nat := (now + 2 ^ 64 - timestamp) % 2 ^ 64

/-! ## Handlers of the test server -/

/-- `ClientPacketHandler::HandleConnectRequest`. -/
def handleConnectRequest (e : Env) : ReadLog (List Action) := do
  if ¬ e.session ∨ ¬ e.data then
    return [.nullPointer]
  else
    let clientVersion ← SessionConnectReq.clientVersion.read
    return [.logConnect e.sessionId clientVersion,
      .sendConnectRes e.sessionId (e.time % 2 ^ 32) 0]

/-- `ClientPacketHandler::HandlePingRequest`. -/
def handlePingRequest (e : Env) : ReadLog (List Action) := do
  if ¬ e.session ∨ ¬ e.data then
    return [.nullPointer]
  else
    let clientTime ← PingReq.clientTime.read
    let sequence ← PingReq.sequence.read
    return [.setLastPingTime e.now, .sendPongRes clientTime e.now sequence] ++
      if sequence % pingPongLogInterval = 0 then [.logPing sequence] else []

/-- `DBServerPacketHandler::HandleServerPongResponse`. -/
def handleServerPongResponse (e : Env) : ReadLog (List Action) := do
  if ¬ e.session ∨ ¬ e.data then
    return [.nullPointer]
  else
    let requestTimestamp ← ServerPongRes.requestTimestamp.read
    let rtt := elapsed e.now requestTimestamp
    let sequence ← ServerPongRes.sequence.read
    let logged : List Action :=
      if sequence % pingPongLogInterval = 0 then [.logLatency sequence rtt] else []
    if e.isConnected then
      let responseTimestamp ← ServerPongRes.responseTimestamp.read
      return logged ++ [.setLastPingTime responseTimestamp]
    else
      return logged

/-- `DBServerPacketHandler::HandleDBSavePingTimeResponse`. -/
def handleDBSavePingTimeResponse (e : Env) : ReadLog (List Action) := do
  if ¬ e.session ∨ ¬ e.data then
    return [.nullPointer]
  else
    let result ← DBSavePingTimeRes.result.read
    let serverId ← DBSavePingTimeRes.serverId.read
    if result = 0 then
      return [.logSaved serverId]
    else
      let message ← cString DBSavePingTimeRes.message.off
      return [.logSaveFailed serverId message]

/-- `DBServerPacketHandler::HandleDBQueryResponse`.  The length of the text is given. -/
def handleDBQueryResponse (e : Env) : ReadLog (List Action) := do
  if ¬ e.data then
    return [.nullPointer]
  else if ¬ e.mTaskQueue then
    return [.logNoTaskQueue]
  else
    let result ← DBQueryRes.result.read
    let detailLength ← DBQueryRes.detailLength.read
    let detailLen := min detailLength DBQueryRes.detail.len
    let detail ← bytes DBQueryRes.detail.off detailLen
    let queryId ← DBQueryRes.queryId.read
    return [.onDBResponse queryId result detail]

/-! ## Handlers of the DB server -/

/-- `ServerPacketHandler::HandleServerPingRequest`. -/
def handleServerPingRequest (e : Env) : ReadLog (List Action) := do
  if ¬ e.session ∨ ¬ e.data then
    return [.nullPointer]
  else
    let timestamp ← ServerPingReq.timestamp.read
    let rttMs := elapsed e.now timestamp
    let sequence ← ServerPingReq.sequence.read
    let logged : List Action :=
      if sequence % pingPongLogInterval = 0 then [.logLatency sequence rttMs] else []
    let serverId := e.sessionId % 2 ^ 32
    let task := Task.recordLatency serverId rttMs e.now
    let recorded : List Action :=
      if e.mOrderedTaskQueue ∧ e.mLatencyManager then [.enqueue serverId task]
      else if e.mLatencyManager then [.call task] else []
    return logged ++ [.sendServerPongRes sequence timestamp e.now] ++ recorded

/-- `ServerPacketHandler::HandleDBSavePingTimeRequest`. -/
def handleDBSavePingTimeRequest (e : Env) : ReadLog (List Action) := do
  if ¬ e.session ∨ ¬ e.data then
    return [.nullPointer]
  else
    let serverId ← DBSavePingTimeReq.serverId.read
    let serverName ← cString DBSavePingTimeReq.serverName.off
    let logged := Action.logSaveRequest serverId serverName
    if e.mOrderedTaskQueue ∧ e.mLatencyManager then
      let capturedServerName ← cString DBSavePingTimeReq.serverName.off
      let timestamp ← DBSavePingTimeReq.timestamp.read
      return [logged, .enqueue serverId (.savePingTime serverId capturedServerName timestamp)]
    else if e.mLatencyManager ∧ e.latencyInitialized then
      let serverName' ← cString DBSavePingTimeReq.serverName.off
      let timestamp ← DBSavePingTimeReq.timestamp.read
      return [logged, .call (.savePingTime serverId serverName' timestamp),
        .sendSaveRes serverId (if e.saved then 0 else 1)]
    else
      return [logged, .sendSaveRes serverId 2]

/-! ## ProcessPacket -/

/-- The tables of a class: the size that a packet must have, and the handlers. -/
structure Dispatcher where
  headerSize : Nat
  requiredSize : Nat → Nat
  handler : Nat → Option (ReadLog (List Action))

/-- `ProcessPacket`, from the validation of the header on. -/
def checkedDispatch (d : Dispatcher) (size : Nat) : ReadLog (List Action) := do
  let headerSize ← headerSizeField.read
  if headerSize < d.headerSize ∨ maxPacketSize < headerSize then
    return [.rejected (.sizeOutOfRange headerSize)]
  else if size < headerSize then
    return [.rejected (.incomplete headerSize size)]
  else
    let id ← headerIdField.read
    if headerSize < d.requiredSize id then
      return [.rejected (.tooSmall id (d.requiredSize id) headerSize)]
    else
      match d.handler id with
      | some handler => handler
      | none => return [.rejected (.unknownType id)]

/-- The tables of `ClientPacketHandler`. -/
def clientDispatcher (e : Env) : Dispatcher where
  headerSize := packetHeaderSize
  requiredSize id :=
    if id = idSessionConnectReq then SessionConnectReq.size
    else if id = idPingReq then PingReq.size
    else packetHeaderSize
  handler id :=
    if id = idSessionConnectReq then some (handleConnectRequest e)
    else if id = idPingReq then some (handlePingRequest e)
    else none

/-- The tables of `DBServerPacketHandler`. -/
def dbServerDispatcher (e : Env) : Dispatcher where
  headerSize := serverPacketHeaderSize
  requiredSize id :=
    if id = idServerPongRes then ServerPongRes.size
    else if id = idDBSavePingTimeRes then DBSavePingTimeRes.size
    else if id = idDBQueryRes then DBQueryRes.size
    else serverPacketHeaderSize
  handler id :=
    if id = idServerPongRes then some (handleServerPongResponse e)
    else if id = idDBSavePingTimeRes then some (handleDBSavePingTimeResponse e)
    else if id = idDBQueryRes then some (handleDBQueryResponse e)
    else none

/-- The tables of `ServerPacketHandler`. -/
def serverDispatcher (e : Env) : Dispatcher where
  headerSize := serverPacketHeaderSize
  requiredSize id :=
    if id = idServerPingReq then ServerPingReq.size
    else if id = idDBSavePingTimeReq then DBSavePingTimeReq.size
    else serverPacketHeaderSize
  handler id :=
    if id = idServerPingReq then some (handleServerPingRequest e)
    else if id = idDBSavePingTimeReq then some (handleDBSavePingTimeRequest e)
    else none

/-- `ProcessPacket` of `ClientPacketHandler` and `DBServerPacketHandler`. -/
def processWith (d : Dispatcher) (e : Env) (size : Nat) : ReadLog (List Action) :=
  if ¬ e.session ∨ ¬ e.data ∨ size < d.headerSize then return [.rejected .invalidData]
  else checkedDispatch d size

/-- `ClientPacketHandler::ProcessPacket`. -/
def clientProcessPacket (e : Env) (size : Nat) : ReadLog (List Action) :=
  processWith (clientDispatcher e) e size

/-- `DBServerPacketHandler::ProcessPacket`. -/
def dbServerProcessPacket (e : Env) (size : Nat) : ReadLog (List Action) :=
  processWith (dbServerDispatcher e) e size

/-- `ServerPacketHandler::ProcessPacket`, which also checks that it was initialized. -/
def serverProcessPacket (e : Env) (size : Nat) : ReadLog (List Action) :=
  if ¬ e.session ∨ ¬ e.data ∨ size < serverPacketHeaderSize then
    return [.rejected .invalidData]
  else if ¬ e.mOrderedTaskQueue ∨ ¬ e.mLatencyManager then
    return [.rejected .notInitialized]
  else checkedDispatch (serverDispatcher e) size

/-- The three classes. -/
inductive Which where
  | client
  | dbServer
  | server
  deriving DecidableEq, Repr

/-- The tables of a class. -/
def Which.dispatcher (e : Env) : Which → Dispatcher
  | .client => clientDispatcher e
  | .dbServer => dbServerDispatcher e
  | .server => serverDispatcher e

/-- `ProcessPacket` of a class. -/
def processPacket (e : Env) (size : Nat) : Which → ReadLog (List Action)
  | .client => clientProcessPacket e size
  | .dbServer => dbServerProcessPacket e size
  | .server => serverProcessPacket e size

/-! ## Reading in bounds -/

/-- `header->size` of a buffer. -/
def sizeOf (buf : List UInt8) : Nat := littleEndian (headerSizeField.of buf)

/-- `header->id` of a buffer. -/
def idOf (buf : List UInt8) : Nat := littleEndian (headerIdField.of buf)

/-- Every byte that is read of the buffer `buf`, with `rest` behind it in the memory, is
one of the structure that was validated, and one of the buffer. -/
def InBounds (which : Which) (e : Env) (buf rest : List UInt8) : Prop :=
  ∀ k ∈ (processPacket e buf.length which).reads (buf ++ rest),
    k < (which.dispatcher e).requiredSize (idOf buf) ∧ k < buf.length

/-- The checks of `ProcessPacket` before the header is read. -/
def Which.ready (e : Env) (buf : List UInt8) : Which → Bool
  | .client => e.session && e.data && packetHeaderSize ≤ buf.length
  | .dbServer => e.session && e.data && serverPacketHeaderSize ≤ buf.length
  | .server =>
      e.session && e.data && serverPacketHeaderSize ≤ buf.length && e.mOrderedTaskQueue &&
        e.mLatencyManager

/-- A packet with this id passes the checks of the header. -/
def Dispatcher.accepts (d : Dispatcher) (buf : List UInt8) : Bool :=
  d.headerSize ≤ sizeOf buf && sizeOf buf ≤ maxPacketSize && sizeOf buf ≤ buf.length &&
    d.requiredSize (idOf buf) ≤ sizeOf buf

/-- A packet is accepted whose text field is read and has no zero byte. -/
def ReadsUnterminated (which : Which) (e : Env) (buf : List UInt8) : Prop :=
  which.ready e buf = true ∧ (which.dispatcher e).accepts buf = true ∧
    match which with
    | .client => False
    | .dbServer =>
        idOf buf = idDBSavePingTimeRes ∧ littleEndian (DBSavePingTimeRes.result.of buf) ≠ 0 ∧
          0 ∉ DBSavePingTimeRes.message.of buf
    | .server => idOf buf = idDBSavePingTimeReq ∧ 0 ∉ DBSavePingTimeReq.serverName.of buf

section
variable {mem buf rest : List UInt8} {n : Nat} {e : Env} {d : Dispatcher}

theorem Field.within_read {f : Field} (h : f.off + f.len ≤ n) : Within f.read mem n :=
  within_unsigned h

/-- The value of a field that lies in the buffer. -/
theorem Field.val_read {f : Field} (h : f.off + f.len ≤ buf.length) (rest : List UInt8) :
    f.read.val (buf ++ rest) = littleEndian (f.of buf) := by
  have hdrop : (buf ++ rest).drop f.off = buf.drop f.off ++ rest :=
    List.drop_append_of_le_length (by omega)
  change littleEndian (((buf ++ rest).drop f.off).take f.len) = _
  rw [hdrop, List.take_append_of_le_length (by rw [List.length_drop]; omega)]
  rfl

/-- A text field in the buffer is read in bounds exactly when it has a zero byte. -/
theorem Field.within_cString {f : Field} (h : f.off + f.len ≤ buf.length) (rest : List UInt8) :
    Within (cString f.off) (buf ++ rest) (f.off + f.len) ↔ 0 ∈ f.of buf := by
  have hdrop : (buf ++ rest).drop f.off = buf.drop f.off ++ rest :=
    List.drop_append_of_le_length (by omega)
  have hlen : f.len ≤ (buf.drop f.off).length := by rw [List.length_drop]; omega
  rw [ReadLog.within_cString, hdrop, Nat.add_lt_add_iff_left,
    length_takeWhile_lt (le_trans hlen (by simp)), List.take_append_of_le_length hlen]
  rfl

/-- The dispatch reads below `n` if the handler that it comes to does. -/
theorem within_checkedDispatch (hbuf : 4 ≤ buf.length) (hn : 4 ≤ n) :
    Within (checkedDispatch d buf.length) (buf ++ rest) n ↔
      (d.accepts buf = true → ∀ h, d.handler (idOf buf) = some h → Within h (buf ++ rest) n) := by
  have hsize := Field.val_read (f := headerSizeField) (le_trans (by decide) hbuf) rest
  have hid := Field.val_read (f := headerIdField) (le_trans (by decide) hbuf) rest
  have hws : Within headerSizeField.read (buf ++ rest) n :=
    Field.within_read (le_trans (by decide) hn)
  have hwi : Within headerIdField.read (buf ++ rest) n :=
    Field.within_read (le_trans (by decide) hn)
  rw [checkedDispatch, within_bind, hsize, ← sizeOf]
  by_cases hrange : sizeOf buf < d.headerSize ∨ maxPacketSize < sizeOf buf
  · have hno : d.accepts buf = false := by
      simp only [Dispatcher.accepts, Bool.and_eq_false_iff, decide_eq_false_iff_not]
      omega
    simp [hrange, hws, hno]
  · by_cases hwhole : buf.length < sizeOf buf
    · have hno : d.accepts buf = false := by
        simp only [Dispatcher.accepts, Bool.and_eq_false_iff, decide_eq_false_iff_not]
        omega
      simp [hrange, hwhole, hws, hno]
    · rw [if_neg hrange, if_neg hwhole, within_bind, hid, ← idOf]
      by_cases hreq : sizeOf buf < d.requiredSize (idOf buf)
      · have hno : d.accepts buf = false := by
          simp only [Dispatcher.accepts, Bool.and_eq_false_iff, decide_eq_false_iff_not]
          omega
        simp [hreq, hws, hwi, hno]
      · have hyes : d.accepts buf = true := by
          simp only [Dispatcher.accepts, Bool.and_eq_true, decide_eq_true_eq]
          omega
        rw [if_neg hreq]
        cases hh : d.handler (idOf buf) with
        | none => simp [hws, hwi]
        | some h => simp [hws, hwi, hyes]

/-- A buffer that is not ready is not read. -/
theorem reads_of_not_ready {which : Which} (h : which.ready e buf = false) :
    (processPacket e buf.length which).reads mem = [] := by
  cases which with
  | client =>
      simp only [Which.ready, Bool.and_eq_false_iff, decide_eq_false_iff_not, not_le] at h
      rw [processPacket, clientProcessPacket, processWith, if_pos]
      · rfl
      · simpa [clientDispatcher, or_assoc] using h
  | dbServer =>
      simp only [Which.ready, Bool.and_eq_false_iff, decide_eq_false_iff_not, not_le] at h
      rw [processPacket, dbServerProcessPacket, processWith, if_pos]
      · rfl
      · simpa [dbServerDispatcher, or_assoc] using h
  | server =>
      rw [processPacket, serverProcessPacket]
      split
      · rfl
      next hptr =>
        rw [if_pos]
        · rfl
        · simp only [not_or, not_not, not_lt] at hptr
          simp only [Which.ready, hptr, Bool.and_eq_false_iff] at h
          simpa using h

/-- A buffer that is ready is dispatched. -/
theorem processPacket_of_ready {which : Which} (h : which.ready e buf = true) :
    processPacket e buf.length which = checkedDispatch (which.dispatcher e) buf.length := by
  cases which with
  | client =>
      rw [processPacket, clientProcessPacket, processWith, if_neg]
      · rfl
      · simpa [Which.ready, clientDispatcher, and_assoc] using h
  | dbServer =>
      rw [processPacket, dbServerProcessPacket, processWith, if_neg]
      · rfl
      · simpa [Which.ready, dbServerDispatcher, and_assoc] using h
  | server =>
      simp only [Which.ready, Bool.and_eq_true, decide_eq_true_eq] at h
      rw [processPacket, serverProcessPacket, if_neg, if_neg]
      · rfl
      · simp [h]
      · simp [h]

theorem Which.length_of_ready {which : Which} (h : which.ready e buf = true) : 4 ≤ buf.length := by
  have hle : packetHeaderSize ≤ serverPacketHeaderSize := by decide
  cases which with
  | client =>
      simp only [Which.ready, Bool.and_eq_true, decide_eq_true_eq] at h
      exact h.2
  | dbServer =>
      simp only [Which.ready, Bool.and_eq_true, decide_eq_true_eq] at h
      exact le_trans hle h.2
  | server =>
      simp only [Which.ready, Bool.and_eq_true, decide_eq_true_eq] at h
      exact le_trans hle h.1.1.2

theorem Which.four_le_requiredSize (which : Which) (id : Nat) :
    4 ≤ (which.dispatcher e).requiredSize id := by
  cases which <;> simp only [Which.dispatcher, clientDispatcher, dbServerDispatcher,
    serverDispatcher] <;> split_ifs <;> decide

theorem Dispatcher.requiredSize_le (h : d.accepts buf = true) :
    d.requiredSize (idOf buf) ≤ buf.length := by
  simp only [Dispatcher.accepts, Bool.and_eq_true, decide_eq_true_eq] at h
  omega

/-- It comes to the handler of the packet. -/
theorem inBounds_iff_handler {which : Which} :
    InBounds which e buf rest ↔
      (which.ready e buf = true → (which.dispatcher e).accepts buf = true →
        ∀ h, (which.dispatcher e).handler (idOf buf) = some h →
          Within h (buf ++ rest) ((which.dispatcher e).requiredSize (idOf buf))) := by
  cases hready : which.ready e buf with
  | false => simp [InBounds, reads_of_not_ready hready]
  | true =>
      have hfour := Which.length_of_ready hready
      have hreq := which.four_le_requiredSize (e := e) (idOf buf)
      have hboth : InBounds which e buf rest ↔
          Within (checkedDispatch (which.dispatcher e) buf.length) (buf ++ rest)
            ((which.dispatcher e).requiredSize (idOf buf)) ∧
          Within (checkedDispatch (which.dispatcher e) buf.length) (buf ++ rest) buf.length := by
        rw [InBounds, processPacket_of_ready hready]
        exact forall₂_and
      rw [hboth, within_checkedDispatch hfour hreq, within_checkedDispatch hfour hfour]
      refine ⟨fun h _ => h.1, fun h => ⟨h rfl, fun hacc hd hh => ?_⟩⟩
      exact (h rfl hacc hd hh).mono (Dispatcher.requiredSize_le hacc)

/-! ## The handlers -/

theorem within_handleConnectRequest :
    Within (handleConnectRequest e) mem SessionConnectReq.size := by
  unfold handleConnectRequest
  split
  · exact within_pure _
  · exact within_bind.mpr ⟨Field.within_read (by decide), within_pure _⟩

theorem within_handlePingRequest : Within (handlePingRequest e) mem PingReq.size := by
  unfold handlePingRequest
  split
  · exact within_pure _
  · simp only [within_bind, within_pure, and_true]
    exact ⟨Field.within_read (by decide), Field.within_read (by decide)⟩

theorem within_handleServerPongResponse :
    Within (handleServerPongResponse e) mem ServerPongRes.size := by
  unfold handleServerPongResponse
  split
  · exact within_pure _
  · simp only [within_bind]
    refine ⟨Field.within_read (by decide), Field.within_read (by decide), ?_⟩
    split
    · exact within_bind.mpr ⟨Field.within_read (by decide), within_pure _⟩
    · exact within_pure _

theorem within_handleServerPingRequest :
    Within (handleServerPingRequest e) mem ServerPingReq.size := by
  unfold handleServerPingRequest
  split
  · exact within_pure _
  · simp only [within_bind, within_pure, and_true]
    exact ⟨Field.within_read (by decide), Field.within_read (by decide)⟩

/-- The length of the text is cut to the size of the field. -/
theorem within_handleDBQueryResponse : Within (handleDBQueryResponse e) mem DBQueryRes.size := by
  unfold handleDBQueryResponse
  split
  · exact within_pure _
  · split
    · exact within_pure _
    · simp only [within_bind, within_pure, and_true]
      refine ⟨Field.within_read (by decide), Field.within_read (by decide), within_bytes ?_,
        Field.within_read (by decide)⟩
      have hmin := Nat.min_le_right (DBQueryRes.detailLength.read.val mem) DBQueryRes.detail.len
      exact le_trans (Nat.add_le_add_left hmin _) (by decide)

theorem within_handleDBSavePingTimeResponse (hs : e.session = true) (hd : e.data = true)
    (hlen : DBSavePingTimeRes.size ≤ buf.length) :
    Within (handleDBSavePingTimeResponse e) (buf ++ rest) DBSavePingTimeRes.size ↔
      (littleEndian (DBSavePingTimeRes.result.of buf) ≠ 0 →
        0 ∈ DBSavePingTimeRes.message.of buf) := by
  have hresult := Field.val_read (f := DBSavePingTimeRes.result) (le_trans (by decide) hlen) rest
  have htext : Within (cString DBSavePingTimeRes.message.off) (buf ++ rest)
      DBSavePingTimeRes.size ↔ _ := Field.within_cString (f := DBSavePingTimeRes.message) hlen rest
  rw [handleDBSavePingTimeResponse, if_neg (by simp [hs, hd]), within_bind, within_bind, hresult]
  simp only [Field.within_read (f := DBSavePingTimeRes.result) (n := DBSavePingTimeRes.size)
    (by decide), Field.within_read (f := DBSavePingTimeRes.serverId)
    (n := DBSavePingTimeRes.size) (by decide), true_and]
  by_cases hr : littleEndian (DBSavePingTimeRes.result.of buf) = 0
  · simp [hr]
  · rw [if_neg hr, within_bind]
    simpa [hr] using htext

theorem within_handleDBSavePingTimeRequest (hs : e.session = true) (hd : e.data = true)
    (hq : e.mOrderedTaskQueue = true) (hl : e.mLatencyManager = true)
    (hlen : DBSavePingTimeReq.size ≤ buf.length) :
    Within (handleDBSavePingTimeRequest e) (buf ++ rest) DBSavePingTimeReq.size ↔
      0 ∈ DBSavePingTimeReq.serverName.of buf := by
  have htext := Field.within_cString (f := DBSavePingTimeReq.serverName) hlen rest
  have hid : Within DBSavePingTimeReq.serverId.read (buf ++ rest) DBSavePingTimeReq.size :=
    Field.within_read (by decide)
  have htime : Within DBSavePingTimeReq.timestamp.read (buf ++ rest) DBSavePingTimeReq.size :=
    Field.within_read (by decide)
  rw [handleDBSavePingTimeRequest, if_neg (by simp [hs, hd]), within_bind, within_bind,
    if_pos ⟨hq, hl⟩, within_bind, within_bind]
  refine ⟨fun h => htext.mp h.2.1, fun h => ?_⟩
  exact ⟨hid, htext.mpr h, htext.mpr h, htime, within_pure _⟩

/-! ## The three classes -/

theorem inBounds_client : InBounds .client e buf rest := by
  refine inBounds_iff_handler.mpr fun _ _ h hh => ?_
  simp only [Which.dispatcher, clientDispatcher] at hh ⊢
  split_ifs at hh ⊢ with hconnect hping
  · cases hh
    exact within_handleConnectRequest
  · cases hh
    exact within_handlePingRequest

theorem inBounds_dbServer :
    InBounds .dbServer e buf rest ↔ ¬ ReadsUnterminated .dbServer e buf := by
  rw [inBounds_iff_handler, ReadsUnterminated, not_and, not_and]
  refine forall_congr' fun hready => forall_congr' fun hacc => ?_
  have hlen := Dispatcher.requiredSize_le hacc
  simp only [Which.dispatcher, dbServerDispatcher] at hlen ⊢
  split_ifs at hlen ⊢ with hpong hsave hquery
  · have hne : ¬ idServerPongRes = idDBSavePingTimeRes := by decide
    simpa [hpong, hne] using within_handleServerPongResponse
  · simp only [Which.ready, Bool.and_eq_true] at hready
    have hspec : Within (handleDBSavePingTimeResponse e) (buf ++ rest) DBSavePingTimeRes.size ↔ _ :=
      within_handleDBSavePingTimeResponse hready.1.1 hready.1.2 hlen
    simpa [hsave] using hspec
  · simpa [hsave] using within_handleDBQueryResponse
  · simp [hsave]

theorem inBounds_server : InBounds .server e buf rest ↔ ¬ ReadsUnterminated .server e buf := by
  rw [inBounds_iff_handler, ReadsUnterminated, not_and, not_and]
  refine forall_congr' fun hready => forall_congr' fun hacc => ?_
  have hlen := Dispatcher.requiredSize_le hacc
  simp only [Which.dispatcher, serverDispatcher] at hlen ⊢
  split_ifs at hlen ⊢ with hping hsave
  · have hne : ¬ idServerPingReq = idDBSavePingTimeReq := by decide
    simpa [hping, hne] using within_handleServerPingRequest
  · simp only [Which.ready, Bool.and_eq_true] at hready
    have hspec : Within (handleDBSavePingTimeRequest e) (buf ++ rest) DBSavePingTimeReq.size ↔ _ :=
      within_handleDBSavePingTimeRequest hready.1.1.1.1 hready.1.1.1.2 hready.1.2 hready.2 hlen
    simpa [hsave] using hspec
  · simp [hsave]

/-- Whatever the bytes are, a packet is read in bounds exactly when it is not accepted as
one whose text field is read and has no zero byte. -/
theorem inBounds_iff (which : Which) (e : Env) (buf rest : List UInt8) :
    InBounds which e buf rest ↔ ¬ ReadsUnterminated which e buf := by
  cases which with
  | client => simpa [ReadsUnterminated] using inBounds_client
  | dbServer => exact inBounds_dbServer
  | server => exact inBounds_server

end

/-- A DB server that is up. -/
def running : Env where
  session := true
  data := true
  mOrderedTaskQueue := true
  mLatencyManager := true
  mTaskQueue := true
  latencyInitialized := true
  saved := true
  isConnected := true
  sessionId := 1
  now := 1000
  time := 1

/-- A `PKT_DBSavePingTimeReq` whose name fills its field. -/
def fullName : List UInt8 :=
  [52, 0, 208, 7, 0, 0, 0, 0] ++ List.replicate 12 0 ++ List.replicate 32 65

/-- The DB server reads the byte behind the buffer. -/
theorem not_inBounds_fullName :
    fullName.length = DBSavePingTimeReq.size ∧
      52 ∈ (processPacket running fullName.length .server).reads (fullName ++ []) ∧
      ¬ InBounds .server running fullName [] := by
  have hread : 52 ∈ (processPacket running fullName.length .server).reads (fullName ++ []) := by
    decide
  refine ⟨rfl, hread, fun h => ?_⟩
  have hlt := (h 52 hread).2
  exact absurd hlt (by decide)

end NetworkModule.PacketHandlers
