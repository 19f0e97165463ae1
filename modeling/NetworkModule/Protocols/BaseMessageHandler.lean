import NetworkModule.Lib.ByteCodec
import NetworkModule.Types

/-!
# Messages

`BaseMessageHandler` puts a packed header of 24 bytes before the payload of a message:
type, connection, timestamp and the size of the payload.  `SerializeMessage` writes it,
`ValidateMessage` looks at the size, and `ParseMessage` reads the rest, but not the
connection, which the receiver knows.

The last two get a pointer and a size.  They are programs that read the memory from the
pointer on, so that it can be said which bytes they read.

`message_codec` says that the three agree: a message is read back, no beginning of it is
accepted, and `ParseMessage` stays inside any buffer that `ValidateMessage` accepts.
-/

namespace NetworkModule.Protocols

open ByteCodec (Scalar)
open ReadLog (Within)

/-- `MessageType`, an enumeration over `uint32_t`. -/
structure MessageType where
  value : UInt32
  deriving DecidableEq, Repr

namespace MessageType

def unknown : MessageType := ⟨0⟩

def ping : MessageType := ⟨1⟩

def pong : MessageType := ⟨2⟩

def customStart : MessageType := ⟨1000⟩

end MessageType

/-- `Message`. -/
structure Message where
  type : MessageType := .unknown
  connectionId : ConnectionId := 0
  data : List UInt8 := []
  timestamp : UInt64 := 0
  deriving DecidableEq, Repr

/-- `MessageHeader`, without padding. -/
structure MessageHeader where
  type : UInt32
  connectionId : UInt64
  timestamp : UInt64
  dataSize : UInt32

def MessageHeader.bytes (header : MessageHeader) : List UInt8 :=
  Scalar.bytes header.type ++ (Scalar.bytes header.connectionId ++
    (Scalar.bytes header.timestamp ++ Scalar.bytes header.dataSize))

/-- `sizeof(MessageHeader)`. -/
def sizeofMessageHeader : Nat := 24

/-- `SerializeMessage`. -/
def serializeMessage (message : Message) : List UInt8 :=
  let header : MessageHeader :=
    ⟨message.type.value, message.connectionId, message.timestamp, .ofNat message.data.length⟩
  header.bytes ++ message.data

/-- `CreateMessage` at this time. -/
def createMessage (type : MessageType) (connectionId : ConnectionId) (timestamp : UInt64)
    (data : List UInt8) : List UInt8 :=
  serializeMessage { type, connectionId, data, timestamp }

/-- `ValidateMessage`. -/
def validateMessage (nonnull : Bool) (size : Nat) : ReadLog Bool :=
  if nonnull = false ∨ size < sizeofMessageHeader then return false
  else do
    let dataSize ← ReadLog.unsigned 20 4
    return decide (sizeofMessageHeader + dataSize ≤ size)

/-- `ParseMessage`.  An empty payload leaves the one of `outMessage`. -/
def parseMessage (connectionId : ConnectionId) (size : Nat) (outMessage : Message) :
    ReadLog (Bool × Message) :=
  if size < sizeofMessageHeader then return (false, outMessage)
  else do
    let type ← ReadLog.unsigned 0 4
    let timestamp ← ReadLog.unsigned 12 8
    let dataSize ← ReadLog.unsigned 20 4
    let outMessage := { outMessage with
      type := ⟨.ofNat type⟩, connectionId, timestamp := .ofNat timestamp }
    if 0 < dataSize then do
      let payload ← ReadLog.bytes sizeofMessageHeader dataSize
      return (true, { outMessage with data := payload })
    else return (true, outMessage)

/-- `ProcessMessage`: the message that a handler is called with, and `none` when it returns
`false`. -/
def processMessage (mHandlers : MessageType → Bool) (connectionId : ConnectionId) (nonnull : Bool)
    (size : Nat) : ReadLog (Option Message) := do
  let valid ← validateMessage nonnull size
  if valid then do
    let (parsed, message) ← parseMessage connectionId size {}
    return if parsed && mHandlers message.type then some message else none
  else return none

/-! ## Reading and writing -/

section
variable {nonnull : Bool} {size : Nat} {mem : List UInt8}

theorem length_header (header : MessageHeader) : header.bytes.length = sizeofMessageHeader := by
  simp only [MessageHeader.bytes, List.length_append, Scalar.length_bytes]
  rfl

theorem length_serializeMessage (message : Message) :
    (serializeMessage message).length = sizeofMessageHeader + message.data.length := by
  rw [serializeMessage, List.length_append, length_header]

/-- What stands where in a memory that begins with a header. -/
theorem val_header (header : MessageHeader) (rest : List UInt8) :
    (ReadLog.unsigned 0 4).val (header.bytes ++ rest) = header.type.toNat ∧
      (ReadLog.unsigned 12 8).val (header.bytes ++ rest) = header.timestamp.toNat ∧
      (ReadLog.unsigned 20 4).val (header.bytes ++ rest) = header.dataSize.toNat := by
  have hbytes : header.bytes ++ rest = Scalar.bytes header.type ++
      (Scalar.bytes header.connectionId ++ (Scalar.bytes header.timestamp ++
        (Scalar.bytes header.dataSize ++ rest))) := by
    simp only [MessageHeader.bytes, List.append_assoc]
  have htype := Scalar.val_unsigned (hbytes.trans (List.nil_append _).symm)
  have htimestamp := Scalar.val_unsigned (hbytes.trans (List.append_assoc _ _ _).symm)
  have hdataSize := Scalar.val_unsigned (hbytes.trans ((congrArg _ (List.append_assoc _ _ _).symm).trans
    (List.append_assoc _ _ _).symm))
  simp only [List.length_append, Scalar.length_bytes] at htimestamp hdataSize
  exact ⟨htype, htimestamp, hdataSize⟩

/-- `ValidateMessage` accepts a buffer that has the header, and the payload that it announces. -/
theorem val_validateMessage :
    (validateMessage nonnull size).val mem = true ↔ nonnull = true ∧
      sizeofMessageHeader + (ReadLog.unsigned 20 4).val mem ≤ size := by
  rw [validateMessage]
  split
  next hno =>
    constructor
    · intro h
      cases h
    · rintro ⟨hnonnull, hle⟩
      rcases hno with hnull | hshort
      · rw [hnull] at hnonnull
        cases hnonnull
      · omega
  next hok =>
    obtain ⟨hnonnull, -⟩ := not_or.mp hok
    rw [ReadLog.val_bind, ReadLog.val_pure, decide_eq_true_iff]
    exact (and_iff_right (Bool.eq_true_of_not_eq_false hnonnull)).symm

/-- `ParseMessage` reads the header and the payload. -/
theorem within_parseMessage {connectionId : ConnectionId} {outMessage : Message}
    (h : sizeofMessageHeader + (ReadLog.unsigned 20 4).val mem ≤ size) :
    Within (parseMessage connectionId size outMessage) mem size := by
  have hheader : sizeofMessageHeader ≤ size := (Nat.le_add_right _ _).trans h
  have hsize : 24 ≤ size := hheader
  rw [parseMessage, if_neg (Nat.not_lt.mpr hheader)]
  refine ReadLog.within_bind.mpr ⟨ReadLog.within_unsigned (by omega), ?_⟩
  refine ReadLog.within_bind.mpr ⟨ReadLog.within_unsigned (by omega), ?_⟩
  refine ReadLog.within_bind.mpr ⟨ReadLog.within_unsigned (by omega), ?_⟩
  split
  · exact ReadLog.within_bind.mpr ⟨ReadLog.within_bytes h, ReadLog.within_pure _⟩
  · exact ReadLog.within_pure _

/-- What `ParseMessage` makes of a memory that begins with a header. -/
theorem val_parseMessage (header : MessageHeader) (rest : List UInt8) (connectionId : ConnectionId)
    (outMessage : Message) (hsize : sizeofMessageHeader ≤ size) :
    (parseMessage connectionId size outMessage).val (header.bytes ++ rest) =
      (true, {
        type := ⟨header.type⟩
        connectionId
        data := if 0 < header.dataSize.toNat then rest.take header.dataSize.toNat
          else outMessage.data
        timestamp := header.timestamp }) := by
  obtain ⟨htype, htimestamp, hdataSize⟩ := val_header header rest
  have hpayload : (ReadLog.bytes sizeofMessageHeader header.dataSize.toNat).val
      (header.bytes ++ rest) = rest.take header.dataSize.toNat := by
    change ((header.bytes ++ rest).drop sizeofMessageHeader).take _ = _
    rw [← length_header header, List.drop_left]
  rw [parseMessage, if_neg (Nat.not_lt.mpr hsize), ReadLog.val_bind, ReadLog.val_bind,
    ReadLog.val_bind, htype, htimestamp, hdataSize, UInt32.ofNat_toNat, UInt64.ofNat_toNat]
  split
  · rw [ReadLog.val_bind, ReadLog.val_pure, hpayload]
  · rfl

end

/-! ## The codec -/

/-- What is promised of a message that was serialized, and of any buffer. -/
structure Codec (message : Message) : Prop where
  /-- It is accepted, with anything behind it. -/
  accepts : ∀ trailing, (validateMessage true ((serializeMessage message).length +
    trailing.length)).val (serializeMessage message ++ trailing) = true
  /-- `ParseMessage` of a receiver fills a new message with it. -/
  recovers : ∀ trailing connectionId,
    (parseMessage connectionId ((serializeMessage message).length + trailing.length) {}).val
      (serializeMessage message ++ trailing) = (true, { message with connectionId })
  /-- No beginning of it is accepted, whatever is in the memory behind that. -/
  rejects : ∀ size < (serializeMessage message).length, ∀ behind,
    (validateMessage true size).val ((serializeMessage message).take size ++ behind) = false
  /-- Inside of a buffer that is accepted nothing else is read. -/
  inside : ∀ nonnull size mem, (validateMessage nonnull size).val mem = true →
    ∀ connectionId outMessage, Within (parseMessage connectionId size outMessage) mem size

section
variable {message : Message}

/-- The header says the size of a payload that fits. -/
theorem val_dataSize (hlen : message.data.length < 2 ^ 32) (rest : List UInt8) :
    (ReadLog.unsigned 20 4).val ((MessageHeader.mk message.type.value message.connectionId
      message.timestamp (.ofNat message.data.length)).bytes ++ rest) = message.data.length := by
  rw [(val_header _ rest).2.2]
  exact UInt32.toNat_ofNat_of_lt' hlen

theorem accepts_serializeMessage (hlen : message.data.length < 2 ^ 32) (trailing : List UInt8) :
    (validateMessage true ((serializeMessage message).length + trailing.length)).val
      (serializeMessage message ++ trailing) = true := by
  refine val_validateMessage.mpr ⟨rfl, ?_⟩
  rw [length_serializeMessage, serializeMessage, List.append_assoc, val_dataSize hlen]
  exact Nat.le_add_right _ _

theorem recovers_serializeMessage (hlen : message.data.length < 2 ^ 32)
    (trailing : List UInt8) (connectionId : ConnectionId) :
    (parseMessage connectionId ((serializeMessage message).length + trailing.length) {}).val
      (serializeMessage message ++ trailing) = (true, { message with connectionId }) := by
  have hdataSize : (UInt32.ofNat message.data.length).toNat = message.data.length :=
    UInt32.toNat_ofNat_of_lt' hlen
  have hpayload : (if 0 < message.data.length then (message.data ++ trailing).take
      message.data.length else []) = message.data := by
    rw [List.take_left]
    split
    · rfl
    next hzero => exact (List.eq_nil_of_length_eq_zero (Nat.eq_zero_of_not_pos hzero)).symm
  rw [length_serializeMessage, serializeMessage, List.append_assoc,
    val_parseMessage _ _ _ _ ((Nat.le_add_right _ _).trans (Nat.le_add_right _ _)), hdataSize,
    hpayload]

theorem rejects_serializeMessage (hlen : message.data.length < 2 ^ 32) (size : Nat)
    (hlt : size < (serializeMessage message).length) (behind : List UInt8) :
    (validateMessage true size).val ((serializeMessage message).take size ++ behind) = false := by
  refine Bool.eq_false_iff.mpr fun hvalid => ?_
  obtain ⟨-, hle⟩ := val_validateMessage.mp hvalid
  have hheader : sizeofMessageHeader ≤ size := (Nat.le_add_right _ _).trans hle
  -- The beginning has the whole header, which says what is missing.
  rw [serializeMessage, List.take_append, List.take_of_length_le
    ((length_header _).trans_le hheader), List.append_assoc, val_dataSize hlen] at hle
  rw [length_serializeMessage] at hlt
  exact absurd hle (Nat.not_le.mpr hlt)

end

/-- A payload whose size fits into the header comes through. -/
theorem message_codec (type : MessageType) (connectionId : ConnectionId) (timestamp : UInt64)
    (payload : List UInt8) (hlen : payload.length < 2 ^ 32) :
    Codec ⟨type, connectionId, payload, timestamp⟩ where
  accepts := accepts_serializeMessage hlen
  recovers := recovers_serializeMessage hlen
  rejects := rejects_serializeMessage hlen
  inside := fun _ _ _ hvalid _ _ => within_parseMessage (val_validateMessage.mp hvalid).2

theorem message_codec_ping : Codec ⟨.ping, 7, [1, 2, 3], 1000⟩ :=
  message_codec .ping 7 1000 [1, 2, 3] (by decide)

/-- A handler of the type gets what `CreateMessage` was called with. -/
theorem processMessage_createMessage {mHandlers : MessageType → Bool} {type : MessageType}
    (htype : mHandlers type = true) (connectionId receiver : ConnectionId) (timestamp : UInt64)
    {payload : List UInt8} (hlen : payload.length < 2 ^ 32) (trailing : List UInt8) :
    (processMessage mHandlers receiver true ((createMessage type connectionId timestamp
      payload).length + trailing.length)).val
        (createMessage type connectionId timestamp payload ++ trailing) =
      some ⟨type, receiver, payload, timestamp⟩ := by
  let message : Message := ⟨type, connectionId, payload, timestamp⟩
  have hlen : message.data.length < 2 ^ 32 := hlen
  rw [createMessage, processMessage, ReadLog.val_bind, accepts_serializeMessage hlen,
    if_pos rfl, ReadLog.val_bind, recovers_serializeMessage hlen, ReadLog.val_pure]
  change (if true && mHandlers type then some _ else none) = _
  rw [htype]
  rfl

end NetworkModule.Protocols
