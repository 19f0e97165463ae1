import NetworkModule.Network.SessionSend

/-!
# The bytes that `SendData` counts

`BaseNetworkEngine::SendData` takes a length of 64 bits, `Session::Send` one of 32.  The
conversion stands between the two, and the limit on the size of a packet behind it.  So a
block of `2 ^ 32` bytes or more is measured by what is left of its length: if the session
takes a packet of that size, the beginning of the block is sent and the whole is counted.

`sendData_accounted_iff` says that this is the only way for the counter to be wrong.
-/

namespace NetworkModule.SendAccounting

open SessionSend (sendQueueBackpressureThreshold maxPacketTotalSize)

/-! ## Sending -/

/-- `Session::SendResult`. -/
inductive SendResult where
  | ok
  | queueFull
  | notConnected
  deriving DecidableEq, Repr

/-- Which branch of `#if defined(IS_WINDOWS)` is compiled. -/
inductive Platform where
  | windows
  | posix
  deriving DecidableEq, Repr

/-- A block of memory, with a length that is a `size_t`. -/
structure Block where
  bytes : List UInt8
  fits : bytes.length < 2 ^ 64

def Block.size (block : Block) : UInt64 := .ofNat block.bytes.length

/-- What a call finds when it looks.  Other threads may change all of it meanwhile. -/
structure Moment where
  /-- `GetSession` gives a session. -/
  found : Bool
  /-- `IsConnected` in `SendData`. -/
  connected : Bool
  /-- `IsConnected` in `Send`. -/
  stillConnected : Bool
  /-- `mSocket` is valid. -/
  mSocket : Bool
  /-- Whether `SendAsync` of the provider succeeds, if there is a provider. -/
  mAsyncProvider : Option Bool
  mSendQueueSize : UInt64
  /-- The slot that `SendBufferPool::Acquire` gives, if it is not empty. -/
  slot : Option UInt64

/-- The end of `Session::Send`: back-pressure, the slot for the copy, and the send queue. -/
def enqueue (platform : Platform) (moment : Moment) (packet : List UInt8) :
    SendResult × List (List UInt8) :=
  if sendQueueBackpressureThreshold ≤ moment.mSendQueueSize then (.queueFull, [])
  else if platform = .windows ∧ moment.slot = none then (.queueFull, [])
  else (.ok, [packet])

/-- `Session::Send`: its result, and the packets that were accepted. -/
def send (platform : Platform) (moment : Moment) (nonnull : Bool) (data : List UInt8)
    (size : UInt32) : SendResult × List (List UInt8) :=
  if moment.stillConnected = false ∨ nonnull = false ∨ size = 0 then (.notConnected, [])
  else if maxPacketTotalSize < size.toNat then (.queueFull, [])
  else
    let packet := data.take size.toNat
    match platform, moment.mAsyncProvider with
    | .windows, some success =>
        if moment.mSocket = false then (.notConnected, [])
        else if success then (.ok, [packet])
        else (.queueFull, [])
    | .windows, none =>
        if moment.mSocket = false then (.notConnected, []) else enqueue .windows moment packet
    | .posix, _ => enqueue .posix moment packet

/-- An engine, and the packets that the sessions have accepted from it. -/
structure Engine where
  mTotalBytesSent : UInt64 := 0
  accepted : List (List UInt8) := []

/-- A call of `SendData`. -/
structure Call where
  moment : Moment
  /-- `data` is not null. -/
  nonnull : Bool
  block : Block

/-- `SendData`. -/
def Engine.sendData (engine : Engine) (platform : Platform) (call : Call) : Bool × Engine :=
  let size := call.block.size
  if call.nonnull = false ∨ size = 0 then (false, engine)
  else if call.moment.found = false ∨ call.moment.connected = false then (false, engine)
  else
    let sendResult := send platform call.moment call.nonnull call.block.bytes size.toUInt32
    let engine := { engine with accepted := engine.accepted ++ sendResult.2 }
    if sendResult.1 ≠ .ok then (false, engine)
    else (true, { engine with mTotalBytesSent := engine.mTotalBytesSent + size })

/-- Any number of calls, one after the other. -/
def Engine.sendAll (platform : Platform) : Engine → List Call → Engine
  | engine, [] => engine
  | engine, call :: calls => sendAll platform (engine.sendData platform call).2 calls

/-! ## What is promised -/

/-- The bytes of some packets. -/
def bytesOf (packets : List (List UInt8)) : UInt64 := .ofNat packets.flatten.length

/-- What is promised of a call. -/
structure Accounted (platform : Platform) (engine : Engine) (call : Call) : Prop where
  /-- It returns `true` only when the block was accepted as one packet. -/
  whole : (engine.sendData platform call).1 = true →
    (engine.sendData platform call).2.accepted = engine.accepted ++ [call.block.bytes]
  /-- The counter grows by the bytes that were accepted. -/
  counted : ∃ packets, (engine.sendData platform call).2.accepted = engine.accepted ++ packets ∧
    (engine.sendData platform call).2.mTotalBytesSent = engine.mTotalBytesSent + bytesOf packets
  /-- A block over the limit is refused. -/
  refused : maxPacketTotalSize < call.block.bytes.length →
    (engine.sendData platform call).1 = false

/-- The send queue takes a packet. -/
def HasRoom (platform : Platform) (moment : Moment) : Prop :=
  moment.mSendQueueSize < sendQueueBackpressureThreshold ∧
    ¬ (platform = .windows ∧ moment.slot = none)

/-- There is a place for a packet: with the provider, or in the send queue. -/
def HasPlace (platform : Platform) (moment : Moment) : Prop :=
  match platform, moment.mAsyncProvider with
  | .windows, some success => moment.mSocket = true ∧ success = true
  | .windows, none => moment.mSocket = true ∧ HasRoom .windows moment
  | .posix, _ => HasRoom .posix moment

/-- The session takes a packet of this size: it is there and connected, the size is within
the limits, and there is a place. -/
structure Takes (platform : Platform) (moment : Moment) (nonnull : Bool) (size : UInt32) :
    Prop where
  nonnull : nonnull = true
  found : moment.found = true
  connected : moment.connected = true
  stillConnected : moment.stillConnected = true
  positive : size ≠ 0
  limit : size.toNat ≤ maxPacketTotalSize
  place : HasPlace platform moment

/-! ## One call -/

section
variable {platform : Platform} {moment : Moment} {nonnull : Bool} {packet : List UInt8}
  {P : Prop} {result : SendResult × List (List UInt8)}

/-- The packet is accepted under this condition, and otherwise nothing is. -/
structure Settles (result : SendResult × List (List UInt8)) (packet : List UInt8) (P : Prop) :
    Prop where
  taken : P → result = (.ok, [packet])
  refused : ¬ P → result.1 ≠ .ok ∧ result.2 = []

theorem settles_taken (h : P) : Settles (.ok, [packet]) packet P :=
  ⟨fun _ => rfl, fun hno => absurd h hno⟩

theorem settles_refused {r : SendResult} (hr : r ≠ .ok) (h : ¬ P) : Settles (r, []) packet P :=
  ⟨fun hyes => absurd hyes h, fun _ => ⟨hr, rfl⟩⟩

theorem settles_enqueue :
    Settles (enqueue platform moment packet) packet (HasRoom platform moment) := by
  rw [enqueue]
  split
  next hfull => exact settles_refused (fun h => by cases h) fun h => UInt64.not_le.mpr h.1 hfull
  next hqueue =>
    split
    next hslot => exact settles_refused (fun h => by cases h) fun h => h.2 hslot
    next hslot => exact settles_taken ⟨UInt64.not_le.mp hqueue, hslot⟩

/-- A test of `mSocket` before the rest. -/
theorem settles_socket (h : Settles result packet P) :
    Settles (if moment.mSocket = false then (.notConnected, []) else result) packet
      (moment.mSocket = true ∧ P) := by
  split
  next hclosed =>
    refine settles_refused (fun h => by cases h) fun hopen => ?_
    rw [hclosed] at hopen
    cases hopen.1
  next hopen =>
    have hopen : moment.mSocket = true := Bool.eq_true_of_not_eq_false hopen
    exact ⟨fun hP => h.taken hP.2, fun hno => h.refused fun hP => hno ⟨hopen, hP⟩⟩

/-- `Send` accepts the packet when the session takes one of this size. -/
theorem settles_send (data : List UInt8) (size : UInt32) (hfound : moment.found = true)
    (hconnected : moment.connected = true) :
    Settles (send platform moment nonnull data size) (data.take size.toNat)
      (Takes platform moment nonnull size) := by
  rw [send]
  split
  next hargs =>
    refine settles_refused (fun h => by cases h) fun h => ?_
    rcases hargs with hstill | hnull | hsize
    · cases hstill.symm.trans h.stillConnected
    · cases hnull.symm.trans h.nonnull
    · exact h.positive hsize
  next hargs =>
    split
    next hlong => exact settles_refused (fun h => by cases h) fun h => Nat.not_lt.mpr h.limit hlong
    next hlimit =>
      obtain ⟨hstill, hnonnull, hsize⟩ : moment.stillConnected = true ∧ nonnull = true ∧
          size ≠ 0 := by
        simpa only [not_or, Bool.not_eq_false] using hargs
      have hplace : HasPlace platform moment ↔ Takes platform moment nonnull size :=
        ⟨fun h => ⟨hnonnull, hfound, hconnected, hstill, hsize, Nat.not_lt.mp hlimit, h⟩,
          Takes.place⟩
      rw [← hplace, HasPlace.eq_def]
      cases platform with
      | windows =>
          cases moment.mAsyncProvider with
          | some success =>
              refine settles_socket ?_
              cases success with
              | true => exact settles_taken rfl
              | false => exact settles_refused (fun h => by cases h) (fun h => by cases h)
          | none => exact settles_socket settles_enqueue
      | posix => exact settles_enqueue

end

section
variable {platform : Platform} {call : Call}

/-- A call that the session takes counts the length of the whole block. -/
theorem sendData_of_takes (engine : Engine)
    (h : Takes platform call.moment call.nonnull call.block.size.toUInt32) :
    engine.sendData platform call = (true,
      { mTotalBytesSent := engine.mTotalBytesSent + call.block.size
        accepted := engine.accepted ++ [call.block.bytes.take call.block.size.toUInt32.toNat] }) := by
  have hsize : call.block.size ≠ 0 := by
    intro hzero
    apply h.positive
    rw [hzero]
    rfl
  have hsend := (settles_send call.block.bytes _ h.found h.connected).taken h
  rw [Engine.sendData, if_neg (by simp [h.nonnull, hsize]), if_neg (by simp [h.found, h.connected]),
    hsend]
  rfl

/-- Any other call returns `false` and changes nothing. -/
theorem sendData_of_not_takes (engine : Engine)
    (h : ¬ Takes platform call.moment call.nonnull call.block.size.toUInt32) :
    engine.sendData platform call = (false, engine) := by
  rw [Engine.sendData]
  split
  · rfl
  · split
    · rfl
    next hsession =>
      obtain ⟨hfound, hconnected⟩ : call.moment.found = true ∧ call.moment.connected = true := by
        simpa only [not_or, Bool.not_eq_false] using hsession
      obtain ⟨hresult, hnone⟩ := (settles_send call.block.bytes _ hfound hconnected).refused h
      rw [if_pos hresult, hnone, List.append_nil]

theorem toNat_size (block : Block) : block.size.toNat = block.bytes.length :=
  UInt64.toNat_ofNat_of_lt' block.fits

/-- A length of 32 bits is not changed by the conversion. -/
theorem toNat_narrow {block : Block} (h : block.bytes.length < 2 ^ 32) :
    block.size.toUInt32.toNat = block.bytes.length := by
  rw [UInt64.toNat_toUInt32, toNat_size, Nat.mod_eq_of_lt h]

end

/-- The promise is broken exactly when the block has `2 ^ 32` bytes or more, and the session
takes a packet of the size that is left of that. -/
theorem sendData_accounted_iff (platform : Platform) (engine : Engine) (call : Call) :
    Accounted platform engine call ↔ call.block.bytes.length < 2 ^ 32 ∨
      ¬ Takes platform call.moment call.nonnull call.block.size.toUInt32 := by
  constructor
  · intro h
    refine or_iff_not_imp_left.mpr fun hwide htakes => ?_
    have hlong : maxPacketTotalSize < call.block.bytes.length :=
      (show maxPacketTotalSize < 2 ^ 32 by decide).trans_le (Nat.not_lt.mp hwide)
    have hrefused := h.refused hlong
    rw [sendData_of_takes _ htakes] at hrefused
    cases hrefused
  · intro h
    rcases em (Takes platform call.moment call.nonnull call.block.size.toUInt32) with htakes | hnot
    · have hnarrow : call.block.bytes.length < 2 ^ 32 := h.resolve_right (not_not_intro htakes)
      have hsend := sendData_of_takes engine htakes
      rw [toNat_narrow hnarrow, List.take_length] at hsend
      constructor
      · intro _
        rw [hsend]
      · refine ⟨[call.block.bytes], by rw [hsend], ?_⟩
        rw [hsend, bytesOf, List.flatten_singleton]
        rfl
      · intro hlong
        have hlimit := htakes.limit
        rw [toNat_narrow hnarrow] at hlimit
        exact absurd hlong (Nat.not_lt.mpr hlimit)
    · have hsend := sendData_of_not_takes engine hnot
      constructor
      · intro htrue
        rw [hsend] at htrue
        cases htrue
      · refine ⟨[], by rw [hsend, List.append_nil], ?_⟩
        rw [hsend]
        exact (UInt64.add_zero _).symm
      · intro _
        rw [hsend]

/-- A session with an empty queue. -/
def Moment.ready : Moment where
  found := true
  connected := true
  stillConnected := true
  mSocket := true
  mAsyncProvider := none
  mSendQueueSize := 0
  slot := some 0

/-- A block of `2 ^ 32 + 100` bytes. -/
def wideBlock : Block where
  bytes := List.replicate (2 ^ 32 + 100) 0
  fits := by rw [List.length_replicate]; decide

theorem not_accounted_wideBlock : ¬ Accounted .posix {} ⟨.ready, true, wideBlock⟩ := by
  intro h
  have hsize : wideBlock.size = 2 ^ 32 + 100 := by
    rw [Block.size, wideBlock, List.length_replicate]
    rfl
  have htakes : Takes .posix .ready true wideBlock.size.toUInt32 := by
    rw [hsize]
    exact ⟨rfl, rfl, rfl, rfl, by decide, by decide, by decide, fun h => by cases h.1⟩
  have hrefused := h.refused (by rw [wideBlock, List.length_replicate]; decide)
  rw [sendData_of_takes _ htakes] at hrefused
  cases hrefused

/-! ## Any number of calls -/

/-- Over calls that keep the promise, the counter is the bytes that were accepted. -/
theorem sendAll_counts {platform : Platform} {engine : Engine} {calls : List Call}
    (hcalls : ∀ engine, ∀ call ∈ calls, Accounted platform engine call)
    (hcount : engine.mTotalBytesSent = bytesOf engine.accepted) :
    (engine.sendAll platform calls).mTotalBytesSent =
      bytesOf (engine.sendAll platform calls).accepted := by
  induction calls generalizing engine with
  | nil => exact hcount
  | cons call calls ih =>
      refine ih (fun engine call hmem => hcalls engine call (List.mem_cons_of_mem _ hmem)) ?_
      obtain ⟨packets, haccepted, htotal⟩ := (hcalls engine call List.mem_cons_self).counted
      rw [haccepted, htotal, hcount, bytesOf, bytesOf, bytesOf, List.flatten_append,
        List.length_append, UInt64.ofNat_add]

end NetworkModule.SendAccounting
