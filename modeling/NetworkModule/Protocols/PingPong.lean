import NetworkModule.Lib.ByteCodec

/-!
# Ping and pong

`PingPongHandler` of the tests, in the build without protobuf.  A ping has a timestamp, a
sequence number, a message and two arrays of random values, and the pong to it gives these
arrays back, so that the handler that made the ping can compare them.  Strings and arrays
stand behind their lengths, and everything is written and read with a moving offset.

`pingPong_codec` says that what is written is read.  An empty message stands for `"ping"`, an
empty response for `"pong"` and the sequence number 0 for the next one of the handler, so these
are not read back as they were given.
-/

namespace NetworkModule.Protocols

open ByteCodec (Scalar Reader Reads reads_scalar)

/-! ## Writing and reading -/

section
variable {α : Type} [Scalar α]

/-- `WriteScalar`. -/
def writeScalar (buffer : List UInt8) (value : α) : List UInt8 := buffer ++ Scalar.bytes value

/-- `WriteString`. -/
def writeString (buffer value : List UInt8) : List UInt8 :=
  let length : UInt32 := .ofNat value.length
  let buffer := writeScalar buffer length
  if length = 0 then buffer else buffer ++ value

/-- `ReadString`. -/
def readString : Reader (List UInt8) := do
  let length ← Reader.scalar UInt32
  Reader.takeBytes length.toNat

/-- `WriteValidationArray`. -/
def writeValidationArray (buffer : List UInt8) (arr : List α) : List UInt8 :=
  arr.foldl writeScalar (writeScalar buffer (UInt8.ofNat arr.length))

/-- `std::vector::resize`. -/
def resize (out : List α) (count : Nat) : List α :=
  out.take count ++ List.replicate (count - out.length) (Scalar.ofNat 0)

/-- The loop of `ReadValidationArray`.  It overwrites elements until the buffer ends. -/
def readElements (buffer : List UInt8) : Nat → List α → Option Nat × List α
  | offset, [] => (some offset, [])
  | offset, v :: out =>
      match Reader.scalar α buffer offset with
      | none => (none, v :: out)
      | some (a, offset) =>
          let rest := readElements buffer offset out
          (rest.1, a :: rest.2)

/-- `ReadValidationArray`: the offset behind the array, unless it fails, and `out`. -/
def readValidationArray (buffer : List UInt8) (offset : Nat) (out : List α) :
    Option Nat × List α :=
  match Reader.scalar UInt8 buffer offset with
  | none => (none, out)
  | some (count, offset) => readElements buffer offset (resize out count.toNat)

end

/-! ## The handler -/

/-- `PingPongHandler`. -/
structure PingPongHandler where
  mNextSequence : UInt32 := 1
  mLastPingTimestamp : UInt64 := 0
  mLastPingSequence : UInt32 := 0
  mLastPingMessage : List UInt8 := []
  mHasLastPing : Bool := false
  mLastPongTimestamp : UInt64 := 0
  mLastPongPingTimestamp : UInt64 := 0
  mLastPongPingSequence : UInt32 := 0
  mLastPongMessage : List UInt8 := []
  mHasLastPong : Bool := false
  mLastPingValidationNums : List UInt32 := []
  mLastPingValidationChars : List UInt8 := []
  mLastValidationOk : Bool := false

/-- What `GenerateValidationPayload` may give. -/
structure ValidationPayload where
  nums : List UInt32
  chars : List UInt8
  numCount : 1 ≤ nums.length ∧ nums.length ≤ 5
  charCount : 1 ≤ chars.length ∧ chars.length ≤ 5
  printable : ∀ c ∈ chars, 0x21 ≤ c ∧ c ≤ 0x7E

/-- `message.empty() ? "ping" : message`. -/
def actualMessage (message : List UInt8) : List UInt8 :=
  if message = [] then [112, 105, 110, 103] else message

/-- `response.empty() ? "pong" : response`. -/
def actualResponse (response : List UInt8) : List UInt8 :=
  if response = [] then [112, 111, 110, 103] else response

namespace PingPongHandler

/-- `sequence == 0 ? mNextSequence++ : sequence`, without the increment. -/
def actualSequence (handler : PingPongHandler) (sequence : UInt32) : UInt32 :=
  if sequence = 0 then handler.mNextSequence else sequence

/-- `CreatePing`, with this random payload and at this time. -/
def createPing (handler : PingPongHandler) (payload : ValidationPayload) (timestamp : UInt64)
    (message : List UInt8) (sequence : UInt32) : List UInt8 × PingPongHandler :=
  let actualMessage := actualMessage message
  let actualSequence := handler.actualSequence sequence
  let data := writeScalar [] timestamp
  let data := writeScalar data actualSequence
  let data := writeString data actualMessage
  let data := writeValidationArray data payload.nums
  let data := writeValidationArray data payload.chars
  (data, { handler with
    mNextSequence := if sequence = 0 then handler.mNextSequence + 1 else handler.mNextSequence
    mLastPingValidationNums := payload.nums
    mLastPingValidationChars := payload.chars
    mLastValidationOk := false
    mLastPingTimestamp := timestamp
    mLastPingSequence := actualSequence
    mLastPingMessage := actualMessage
    mHasLastPing := true })

/-- What `ParsePing` reads into variables of its own. -/
def pingHead : Reader (UInt64 × UInt32 × List UInt8) := do
  let timestamp ← Reader.scalar UInt64
  let sequence ← Reader.scalar UInt32
  let message ← readString
  return (timestamp, sequence, message)

/-- `ParsePing`.  The arrays are read into the handler, also when it fails. -/
def parsePing (handler : PingPongHandler) (data : List UInt8) : Bool × PingPongHandler :=
  let handler := { handler with mHasLastPing := false }
  if data = [] then (false, handler)
  else
    match pingHead data 0 with
    | none => (false, handler)
    | some ((timestamp, sequence, message), offset) =>
        let nums := readValidationArray data offset handler.mLastPingValidationNums
        let handler := { handler with mLastPingValidationNums := nums.2 }
        match nums.1 with
        | none => (false, handler)
        | some offset =>
            let chars := readValidationArray data offset handler.mLastPingValidationChars
            let handler := { handler with mLastPingValidationChars := chars.2 }
            match chars.1 with
            | none => (false, handler)
            | some _ =>
                (true, { handler with
                  mLastPingTimestamp := timestamp
                  mLastPingSequence := sequence
                  mLastPingMessage := message
                  mHasLastPing := true })

/-- `CreatePong` at this time. -/
def createPong (handler : PingPongHandler) (timestamp : UInt64) (pingData response : List UInt8) :
    List UInt8 × PingPongHandler :=
  let parsed := handler.parsePing pingData
  let handler := parsed.2
  if parsed.1 = false then ([], handler)
  else
    let actualResponse := actualResponse response
    let data := writeScalar [] timestamp
    let data := writeScalar data handler.mLastPingTimestamp
    let data := writeScalar data handler.mLastPingSequence
    let data := writeString data actualResponse
    let data := writeValidationArray data handler.mLastPingValidationNums
    let data := writeValidationArray data handler.mLastPingValidationChars
    (data, { handler with
      mLastPongTimestamp := timestamp
      mLastPongPingTimestamp := handler.mLastPingTimestamp
      mLastPongPingSequence := handler.mLastPingSequence
      mLastPongMessage := actualResponse
      mHasLastPong := true })

/-- What `ParsePong` reads before the arrays. -/
def pongHead : Reader (UInt64 × UInt64 × UInt32 × List UInt8) := do
  let timestamp ← Reader.scalar UInt64
  let pingTimestamp ← Reader.scalar UInt64
  let pingSequence ← Reader.scalar UInt32
  let message ← readString
  return (timestamp, pingTimestamp, pingSequence, message)

/-- `ParsePong`. -/
def parsePong (handler : PingPongHandler) (data : List UInt8) : Bool × PingPongHandler :=
  let handler := { handler with mHasLastPong := false }
  if data = [] then (false, handler)
  else
    match pongHead data 0 with
    | none => (false, handler)
    | some ((timestamp, pingTimestamp, pingSequence, message), offset) =>
        let echoNums : Option Nat × List UInt32 := readValidationArray data offset []
        match echoNums.1 with
        | none => (false, handler)
        | some offset =>
            let echoChars : Option Nat × List UInt8 := readValidationArray data offset []
            match echoChars.1 with
            | none => (false, handler)
            | some _ =>
                (true, { handler with
                  mLastValidationOk := echoNums.2 = handler.mLastPingValidationNums ∧
                    echoChars.2 = handler.mLastPingValidationChars
                  mLastPongTimestamp := timestamp
                  mLastPongPingTimestamp := pingTimestamp
                  mLastPongPingSequence := pingSequence
                  mLastPongMessage := message
                  mHasLastPong := true })

end PingPongHandler

/-! ## Parts of a message -/

section
variable {α : Type} [Scalar α] {buffer : List UInt8} {offset : Nat}

/-- The bytes of a string. -/
def stringBytes (value : List UInt8) : List UInt8 :=
  Scalar.bytes (UInt32.ofNat value.length) ++ value

/-- The bytes of an array. -/
def arrayBytes (arr : List α) : List UInt8 :=
  Scalar.bytes (UInt8.ofNat arr.length) ++ arr.flatMap Scalar.bytes

/-- `ReadValidationArray` into a new vector. -/
def readArray (α : Type) [Scalar α] : Reader (List α) := do
  let count ← Reader.scalar UInt8
  Reader.scalars α count.toNat

theorem writeString_eq {value : List UInt8} (h : value.length < 2 ^ 32) :
    writeString buffer value = buffer ++ stringBytes value := by
  have hlen : (UInt32.ofNat value.length).toNat = value.length := UInt32.toNat_ofNat_of_lt' h
  rw [writeString, writeScalar, stringBytes, ← List.append_assoc]
  split
  next hzero =>
    have hnil : value = [] := by
      rw [hzero] at hlen
      exact List.eq_nil_of_length_eq_zero hlen.symm
    rw [hnil, List.append_nil]
  · rfl

theorem foldl_writeScalar (arr : List α) (buffer : List UInt8) :
    arr.foldl writeScalar buffer = buffer ++ arr.flatMap Scalar.bytes := by
  induction arr generalizing buffer with
  | nil => exact (List.append_nil _).symm
  | cons a arr ih =>
      rw [List.foldl_cons, ih, writeScalar, List.flatMap_cons, List.append_assoc]

theorem writeValidationArray_eq (arr : List α) :
    writeValidationArray buffer arr = buffer ++ arrayBytes arr := by
  rw [writeValidationArray, foldl_writeScalar, writeScalar, arrayBytes, List.append_assoc]

theorem reads_string {value : List UInt8} (h : value.length < 2 ^ 32) :
    Reads readString (stringBytes value) value := by
  have hlen : (UInt32.ofNat value.length).toNat = value.length := UInt32.toNat_ofNat_of_lt' h
  apply (reads_scalar _).bind
  rw [hlen]
  exact ByteCodec.reads_takeBytes value

theorem reads_array {arr : List α} (h : arr.length < 2 ^ 8) :
    Reads (readArray α) (arrayBytes arr) arr := by
  have hlen : (UInt8.ofNat arr.length).toNat = arr.length := UInt8.toNat_ofNat_of_lt' h
  apply (reads_scalar _).bind
  rw [hlen]
  exact ByteCodec.reads_scalars arr

theorem length_resize (out : List α) (count : Nat) : (resize out count).length = count := by
  rw [resize, List.length_append, List.length_take, List.length_replicate]
  omega

/-- The loop reads as many scalars as there are elements to overwrite. -/
theorem readElements_of_some {out as : List α} {stop : Nat}
    (h : Reader.scalars α out.length buffer offset = some (as, stop)) :
    readElements buffer offset out = (some stop, as) := by
  induction out generalizing offset as with
  | nil =>
      cases h
      rfl
  | cons v out ih =>
      obtain ⟨first, hfirst, h⟩ := Option.bind_eq_some_iff.mp h
      obtain ⟨rest, hrest, h⟩ := Option.bind_eq_some_iff.mp h
      cases h
      simp only [readElements, hfirst, ih hrest]

theorem readElements_of_none {out : List α}
    (h : Reader.scalars α out.length buffer offset = none) :
    (readElements buffer offset out).1 = none := by
  induction out generalizing offset with
  | nil => cases h
  | cons v out ih =>
      rw [readElements]
      cases hfirst : Reader.scalar α buffer offset with
      | none => rfl
      | some first =>
          apply ih
          cases hrest : Reader.scalars α out.length buffer first.2 with
          | none => rfl
          | some rest =>
              have hsome : Reader.scalars α (out.length + 1) buffer offset =
                  some (first.1 :: rest.1, rest.2) := by
                rw [Reader.scalars, Reader.bind_apply, hfirst, Option.bind_some,
                  Reader.bind_apply, hrest]
                rfl
              cases hsome.symm.trans h

/-- The old elements of `out` do not matter. -/
theorem readValidationArray_of_some {out as : List α} {stop : Nat}
    (h : readArray α buffer offset = some (as, stop)) :
    readValidationArray buffer offset out = (some stop, as) := by
  obtain ⟨count, hcount, h⟩ := Option.bind_eq_some_iff.mp h
  rw [readValidationArray, hcount]
  apply readElements_of_some
  rwa [length_resize]

theorem readValidationArray_of_none {out : List α} (h : readArray α buffer offset = none) :
    (readValidationArray buffer offset out).1 = none := by
  rw [readValidationArray]
  cases hcount : Reader.scalar UInt8 buffer offset with
  | none => rfl
  | some count =>
      apply readElements_of_none
      rw [readArray, Reader.bind_apply, hcount] at h
      rwa [length_resize]

end

/-! ## Whole messages -/

section
variable {α β : Type} {head : Reader α} {make : α → List UInt32 → List UInt8 → β}
  {data : List UInt8}

/-- What stands before the arrays, and the arrays. -/
def withArrays (head : Reader α) (make : α → List UInt32 → List UInt8 → β) : Reader β := do
  let a ← head
  let nums ← readArray UInt32
  let chars ← readArray UInt8
  return make a nums chars

theorem reads_withArrays {bytes : List UInt8} {a : α} {nums : List UInt32} {chars : List UInt8}
    (hhead : Reads head bytes a) (hnums : nums.length < 2 ^ 8) (hchars : chars.length < 2 ^ 8) :
    Reads (withArrays head make) (bytes ++ (arrayBytes nums ++ arrayBytes chars))
      (make a nums chars) := by
  apply hhead.bind
  apply (reads_array hnums).bind
  exact (reads_array hchars).map (make a nums)

theorem withArrays_of_some {b : β} {stop : Nat} (h : withArrays head make data 0 = some (b, stop)) :
    ∃ a afterHead nums afterNums chars, head data 0 = some (a, afterHead) ∧
      readArray UInt32 data afterHead = some (nums, afterNums) ∧
      readArray UInt8 data afterNums = some (chars, stop) ∧ b = make a nums chars := by
  obtain ⟨a, ha, h⟩ := Option.bind_eq_some_iff.mp h
  obtain ⟨nums, hnums, h⟩ := Option.bind_eq_some_iff.mp h
  obtain ⟨chars, hchars, h⟩ := Option.bind_eq_some_iff.mp h
  cases h
  exact ⟨a.1, a.2, nums.1, nums.2, chars.1, ha, hnums, hchars, rfl⟩

/-- Where the reading of a message may end too early. -/
theorem withArrays_of_none (h : withArrays head make data 0 = none) :
    head data 0 = none ∨ ∃ a afterHead, head data 0 = some (a, afterHead) ∧
      (readArray UInt32 data afterHead = none ∨ ∃ nums afterNums,
        readArray UInt32 data afterHead = some (nums, afterNums) ∧
        readArray UInt8 data afterNums = none) := by
  cases ha : head data 0 with
  | none => exact .inl rfl
  | some a =>
      refine .inr ⟨a.1, a.2, rfl, ?_⟩
      rw [withArrays, Reader.bind_apply, ha, Option.bind_some, Reader.bind_apply] at h
      cases hnums : readArray UInt32 data a.2 with
      | none => exact .inl rfl
      | some nums =>
          refine .inr ⟨nums.1, nums.2, rfl, ?_⟩
          rw [hnums, Option.bind_some, Reader.bind_apply] at h
          cases hchars : readArray UInt8 data nums.2 with
          | none => rfl
          | some chars =>
              rw [hchars] at h
              cases h

end

/-- The contents of a ping. -/
structure Ping where
  timestamp : UInt64
  sequence : UInt32
  message : List UInt8
  nums : List UInt32
  chars : List UInt8

/-- The contents of a pong. -/
structure Pong where
  timestamp : UInt64
  pingTimestamp : UInt64
  pingSequence : UInt32
  message : List UInt8
  nums : List UInt32
  chars : List UInt8

/-- The lengths of a ping have a place in it. -/
structure Ping.Fits (ping : Ping) : Prop where
  message : ping.message.length < 2 ^ 32
  nums : ping.nums.length < 2 ^ 8
  chars : ping.chars.length < 2 ^ 8

structure Pong.Fits (pong : Pong) : Prop where
  message : pong.message.length < 2 ^ 32
  nums : pong.nums.length < 2 ^ 8
  chars : pong.chars.length < 2 ^ 8

def Ping.bytes (ping : Ping) : List UInt8 :=
  (Scalar.bytes ping.timestamp ++ (Scalar.bytes ping.sequence ++ stringBytes ping.message)) ++
    (arrayBytes ping.nums ++ arrayBytes ping.chars)

def Pong.bytes (pong : Pong) : List UInt8 :=
  (Scalar.bytes pong.timestamp ++ (Scalar.bytes pong.pingTimestamp ++
    (Scalar.bytes pong.pingSequence ++ stringBytes pong.message))) ++
    (arrayBytes pong.nums ++ arrayBytes pong.chars)

namespace PingPongHandler

/-- All that `ParsePing` reads. -/
def readPing : Reader Ping :=
  withArrays pingHead fun head nums chars => ⟨head.1, head.2.1, head.2.2, nums, chars⟩

/-- All that `ParsePong` reads. -/
def readPong : Reader Pong :=
  withArrays pongHead fun head nums chars =>
    ⟨head.1, head.2.1, head.2.2.1, head.2.2.2, nums, chars⟩

theorem reads_ping {ping : Ping} (h : ping.Fits) : Reads readPing ping.bytes ping := by
  have hhead : Reads pingHead _ (ping.timestamp, ping.sequence, ping.message) :=
    (reads_scalar _).bind ((reads_scalar _).bind
      ((reads_string h.message).map fun message => (ping.timestamp, ping.sequence, message)))
  exact reads_withArrays hhead h.nums h.chars

theorem reads_pong {pong : Pong} (h : pong.Fits) : Reads readPong pong.bytes pong := by
  have hhead : Reads pongHead _
      (pong.timestamp, pong.pingTimestamp, pong.pingSequence, pong.message) :=
    (reads_scalar _).bind ((reads_scalar _).bind ((reads_scalar _).bind
      ((reads_string h.message).map fun message =>
        (pong.timestamp, pong.pingTimestamp, pong.pingSequence, message))))
  exact reads_withArrays hhead h.nums h.chars

section
variable {handler : PingPongHandler} {data : List UInt8} {stop : Nat}

/-- `ParsePing` takes over what it reads. -/
theorem parsePing_of_some {ping : Ping} (h : readPing data 0 = some (ping, stop)) :
    handler.parsePing data = (true, { handler with
      mLastPingTimestamp := ping.timestamp
      mLastPingSequence := ping.sequence
      mLastPingMessage := ping.message
      mLastPingValidationNums := ping.nums
      mLastPingValidationChars := ping.chars
      mHasLastPing := true }) := by
  have hdata : data ≠ [] := by
    rintro rfl
    cases h
  obtain ⟨head, afterHead, nums, afterNums, chars, hhead, hnums, hchars, rfl⟩ :=
    withArrays_of_some h
  simp only [parsePing, if_neg hdata, hhead, readValidationArray_of_some hnums,
    readValidationArray_of_some hchars]

theorem parsePing_of_none (h : readPing data 0 = none) : (handler.parsePing data).1 = false := by
  rw [parsePing]
  split
  · rfl
  · rcases withArrays_of_none h with hhead | ⟨head, afterHead, hhead, hnums | hchars⟩
    · simp only [hhead]
    · simp only [hhead, readValidationArray_of_none hnums]
    · obtain ⟨nums, afterNums, hnums, hchars⟩ := hchars
      simp only [hhead, readValidationArray_of_some hnums, readValidationArray_of_none hchars]

/-- `ParsePong` takes over what it reads, and compares the arrays with those of the ping. -/
theorem parsePong_of_some {pong : Pong} (h : readPong data 0 = some (pong, stop)) :
    handler.parsePong data = (true, { handler with
      mLastValidationOk := pong.nums = handler.mLastPingValidationNums ∧
        pong.chars = handler.mLastPingValidationChars
      mLastPongTimestamp := pong.timestamp
      mLastPongPingTimestamp := pong.pingTimestamp
      mLastPongPingSequence := pong.pingSequence
      mLastPongMessage := pong.message
      mHasLastPong := true }) := by
  have hdata : data ≠ [] := by
    rintro rfl
    cases h
  obtain ⟨head, afterHead, nums, afterNums, chars, hhead, hnums, hchars, rfl⟩ :=
    withArrays_of_some h
  simp only [parsePong, if_neg hdata, hhead, readValidationArray_of_some hnums,
    readValidationArray_of_some hchars]

theorem parsePong_of_none (h : readPong data 0 = none) : (handler.parsePong data).1 = false := by
  rw [parsePong]
  split
  · rfl
  · rcases withArrays_of_none h with hhead | ⟨head, afterHead, hhead, hnums | hchars⟩
    · simp only [hhead]
    · simp only [hhead, readValidationArray_of_none hnums]
    · obtain ⟨nums, afterNums, hnums, hchars⟩ := hchars
      simp only [hhead, readValidationArray_of_some hnums, readValidationArray_of_none hchars]

end

/-! ## The codec -/

section
variable {handler : PingPongHandler} {payload : ValidationPayload} {timestamp : UInt64}
  {message : List UInt8} {sequence : UInt32}

/-- What `CreatePing` puts into a ping. -/
def pingOf (handler : PingPongHandler) (payload : ValidationPayload) (timestamp : UInt64)
    (message : List UInt8) (sequence : UInt32) : Ping :=
  ⟨timestamp, handler.actualSequence sequence, actualMessage message, payload.nums, payload.chars⟩

/-- What `CreatePong` puts into the pong to a ping. -/
def pongOf (ping : Ping) (timestamp : UInt64) (response : List UInt8) : Pong :=
  ⟨timestamp, ping.timestamp, ping.sequence, actualResponse response, ping.nums, ping.chars⟩

theorem length_actualMessage (h : message.length < 2 ^ 32) :
    (actualMessage message).length < 2 ^ 32 := by
  rw [actualMessage]
  split
  · decide
  · exact h

theorem length_actualResponse {response : List UInt8} (h : response.length < 2 ^ 32) :
    (actualResponse response).length < 2 ^ 32 := by
  rw [actualResponse]
  split
  · decide
  · exact h

theorem fits_pingOf (h : message.length < 2 ^ 32) :
    (handler.pingOf payload timestamp message sequence).Fits :=
  ⟨length_actualMessage h, payload.numCount.2.trans_lt (by decide),
    payload.charCount.2.trans_lt (by decide)⟩

theorem fits_pongOf {ping : Ping} {response : List UInt8} (hping : ping.Fits)
    (h : response.length < 2 ^ 32) : (pongOf ping timestamp response).Fits :=
  ⟨length_actualResponse h, hping.nums, hping.chars⟩

theorem createPing_eq (h : message.length < 2 ^ 32) :
    (handler.createPing payload timestamp message sequence).1 =
      (handler.pingOf payload timestamp message sequence).bytes := by
  simp only [createPing, writeValidationArray_eq, writeString_eq (length_actualMessage h),
    writeScalar, Ping.bytes, pingOf, List.nil_append, List.append_assoc]

theorem readPing_bytes {ping : Ping} (h : ping.Fits) :
    readPing ping.bytes 0 = some (ping, ping.bytes.length) := by
  have hwhole := (reads_ping h).whole [] []
  rwa [List.nil_append, List.append_nil, List.length_nil, Nat.zero_add] at hwhole

theorem readPong_bytes {pong : Pong} (h : pong.Fits) :
    readPong pong.bytes 0 = some (pong, pong.bytes.length) := by
  have hwhole := (reads_pong h).whole [] []
  rwa [List.nil_append, List.append_nil, List.length_nil, Nat.zero_add] at hwhole

theorem createPong_eq {ping : Ping} {response : List UInt8} (hping : ping.Fits)
    (h : response.length < 2 ^ 32) :
    (handler.createPong timestamp ping.bytes response).1 =
      (pongOf ping timestamp response).bytes := by
  simp only [createPong, parsePing_of_some (readPing_bytes hping), Bool.true_eq_false, if_false,
    writeValidationArray_eq, writeString_eq (length_actualResponse h), writeScalar, Pong.bytes,
    pongOf, List.nil_append, List.append_assoc]

end

/-- What is promised of the ping that a handler makes: with `pingMessage` and `pingSequence` the
message and the number that are read from it. -/
structure Codec (handler : PingPongHandler) (payload : ValidationPayload) (timestamp : UInt64)
    (message : List UInt8) (sequence : UInt32) (pingMessage : List UInt8) (pingSequence : UInt32) :
    Prop where
  /-- Any handler parses it. -/
  ping : ∀ receiver : PingPongHandler,
    receiver.parsePing (handler.createPing payload timestamp message sequence).1 =
      (true, { receiver with
        mLastPingTimestamp := timestamp
        mLastPingSequence := pingSequence
        mLastPingMessage := pingMessage
        mLastPingValidationNums := payload.nums
        mLastPingValidationChars := payload.chars
        mHasLastPing := true })
  /-- The handler parses the pong of any other, and finds the arrays of its ping. -/
  pong : ∀ (second : PingPongHandler) pongTimestamp (response : List UInt8),
    response.length < 2 ^ 32 →
    (handler.createPing payload timestamp message sequence).2.parsePong
        (second.createPong pongTimestamp
          (handler.createPing payload timestamp message sequence).1 response).1 =
      (true, { (handler.createPing payload timestamp message sequence).2 with
        mLastValidationOk := true
        mLastPongTimestamp := pongTimestamp
        mLastPongPingTimestamp := timestamp
        mLastPongPingSequence := pingSequence
        mLastPongMessage := actualResponse response
        mHasLastPong := true })
  /-- No proper beginning of the ping is accepted. -/
  pingCut : ∀ (receiver : PingPongHandler) part,
    part <+: (handler.createPing payload timestamp message sequence).1 →
    part ≠ (handler.createPing payload timestamp message sequence).1 →
    (receiver.parsePing part).1 = false
  /-- No proper beginning of a pong is. -/
  pongCut : ∀ (receiver second : PingPongHandler) pongTimestamp (response : List UInt8) part,
    response.length < 2 ^ 32 →
    part <+: (second.createPong pongTimestamp
      (handler.createPing payload timestamp message sequence).1 response).1 →
    part ≠ (second.createPong pongTimestamp
      (handler.createPing payload timestamp message sequence).1 response).1 →
    (receiver.parsePong part).1 = false

theorem pingPong_codec (handler : PingPongHandler) (payload : ValidationPayload)
    (timestamp : UInt64) (message : List UInt8) (sequence : UInt32)
    (hlen : message.length < 2 ^ 32) :
    Codec handler payload timestamp message sequence (actualMessage message)
      (handler.actualSequence sequence) := by
  have hfits : (handler.pingOf payload timestamp message sequence).Fits := fits_pingOf hlen
  constructor
  · intro receiver
    rw [createPing_eq hlen, parsePing_of_some (readPing_bytes hfits)]
    rfl
  · intro second pongTimestamp response hresponse
    rw [createPing_eq hlen, createPong_eq hfits hresponse,
      parsePong_of_some (readPong_bytes (fits_pongOf hfits hresponse))]
    -- The arrays of the pong are those of the ping, and the handler still has them.
    simp [pongOf, pingOf, createPing]
  · intro receiver part hpart hne
    rw [createPing_eq hlen] at hpart hne
    apply parsePing_of_none
    have hlt : part.length < _ := lt_of_le_of_ne hpart.length_le fun h => hne (hpart.eq_of_length h)
    exact (reads_ping hfits).cut [] part hpart hlt
  · intro receiver second pongTimestamp response part hresponse hpart hne
    rw [createPing_eq hlen, createPong_eq hfits hresponse] at hpart hne
    apply parsePong_of_none
    have hlt : part.length < _ := lt_of_le_of_ne hpart.length_le fun h => hne (hpart.eq_of_length h)
    exact (reads_pong (fits_pongOf hfits hresponse)).cut [] part hpart hlt

/-- Two numbers and two characters. -/
def somePayload : ValidationPayload where
  nums := [7, 4000000000]
  chars := [0x21, 0x7E]
  numCount := by decide
  charCount := by decide
  printable := by decide +kernel

theorem pingPong_codec_hi :
    Codec {} somePayload 1000 [104, 105] 0 [104, 105] 1 :=
  pingPong_codec {} somePayload 1000 [104, 105] 0 (by decide)

/-- An empty message and the number 0 are not read back. -/
theorem not_codec_defaults :
    ¬ Codec {} somePayload 1000 [] 5 [] 5 ∧ ¬ Codec {} somePayload 1000 [104, 105] 0 [104, 105] 0 := by
  constructor
  · intro h
    have hmessage := congrArg (fun r => r.2.mLastPingMessage) (h.ping {})
    revert hmessage
    decide +kernel
  · intro h
    have hsequence := congrArg (fun r => r.2.mLastPingSequence) (h.ping {})
    revert hsequence
    decide +kernel

end PingPongHandler

end NetworkModule.Protocols
