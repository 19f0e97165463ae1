import NetworkModule.Network.PacketFraming
import Mathlib

/-!
# The packet stream of the client

`PacketStream` puts the byte stream of a socket together again for the test client
(`TestClient/src/PacketStream.cpp`).  It owns a receive buffer of fixed size, and
`mRecvBufferOffset` is the number of bytes in it.  The buffer is the list of these bytes.

A byte is of any type with a value, so that a caller can say where it has come from.

A call of `RecvPacket` takes what the socket answers to its calls of `recv`.  A socket with
no further answer times out.
-/

namespace NetworkModule.TestClient

open NetworkModule.PacketFraming (packetHeaderSize maxPacketSize recvBufferSize hdrSize)

variable {α : Type*}

/-- `RecvResult`. -/
inductive RecvResult where
  | success
  | timeout
  | connectionClosed
  | error
  | invalidPacket
  deriving DecidableEq, Repr

/-- What `recv` answers. -/
inductive Recv (α : Type*) where
  /-- At least one byte. -/
  | data (first : α) (rest : List α)
  | closed
  /-- The call times out or would block. -/
  | wouldBlock
  | failed
  deriving DecidableEq, Repr

/-- A call of `recv` for at most `requested` bytes, which go to the end of the buffer, and
the further answers of the socket. -/
def recvOnce (mRecvBuffer : List α) (requested : Nat) :
    List (Recv α) → Except RecvResult (List α) × List (Recv α)
  | [] => (.error .timeout, [])
  | .data first rest :: answers => (.ok (mRecvBuffer ++ (first :: rest).take requested), answers)
  | .closed :: answers => (.error .connectionClosed, answers)
  | .wouldBlock :: answers => (.error .timeout, answers)
  | .failed :: answers => (.error .error, answers)

/-- What `RecvPacket` gives. -/
structure Received (α : Type*) where
  result : RecvResult
  /-- `outHeader` and `outBody`. -/
  packet : List α := []
  mRecvBuffer : List α
  /-- What the socket has not been asked for. -/
  answers : List (Recv α)
  deriving DecidableEq, Repr

/-- The packet is complete: it is copied out, and the rest of the buffer is moved to the
front. -/
def copyOut (bodyBufferSize packetSize : Nat) (mRecvBuffer : List α) (answers : List (Recv α)) :
    Received α :=
  if bodyBufferSize < packetSize - packetHeaderSize then ⟨.invalidPacket, [], mRecvBuffer, answers⟩
  else ⟨.success, mRecvBuffer.take packetSize, mRecvBuffer.drop packetSize, answers⟩

/-- The loop that receives the rest of the packet. -/
def fillLoop (bodyBufferSize packetSize : Nat) (mRecvBuffer : List α) :
    List (Recv α) → Received α
  | [] =>
      if packetSize ≤ mRecvBuffer.length then copyOut bodyBufferSize packetSize mRecvBuffer []
      else ⟨.timeout, [], mRecvBuffer, []⟩
  | answer :: answers =>
      if packetSize ≤ mRecvBuffer.length then
        copyOut bodyBufferSize packetSize mRecvBuffer (answer :: answers)
      else
        match recvOnce mRecvBuffer (packetSize - mRecvBuffer.length) [answer] with
        | (.error result, _) => ⟨result, [], mRecvBuffer, answers⟩
        | (.ok mRecvBuffer', _) => fillLoop bodyBufferSize packetSize mRecvBuffer' answers

/-- The part of `RecvPacket` after the first call of `recv`. -/
def recvBody (value : α → UInt8) (bodyBufferSize : Nat) (mRecvBuffer : List α)
    (answers : List (Recv α)) : Received α :=
  if mRecvBuffer.length < packetHeaderSize then ⟨.timeout, [], mRecvBuffer, answers⟩
  else
    let packetSize := hdrSize (mRecvBuffer.map value)
    if packetSize < packetHeaderSize ∨ maxPacketSize < packetSize then
      ⟨.invalidPacket, [], mRecvBuffer, answers⟩
    else fillLoop bodyBufferSize packetSize mRecvBuffer answers

/-- `PacketStream::RecvPacket`. -/
def recvPacket (value : α → UInt8) (bodyBufferSize : Nat) (mRecvBuffer : List α)
    (answers : List (Recv α)) : Received α :=
  if mRecvBuffer.length < packetHeaderSize then
    match recvOnce mRecvBuffer (recvBufferSize - mRecvBuffer.length) answers with
    | (.error result, answers') => ⟨result, [], mRecvBuffer, answers'⟩
    | (.ok mRecvBuffer', answers') => recvBody value bodyBufferSize mRecvBuffer' answers'
  else recvBody value bodyBufferSize mRecvBuffer answers

end NetworkModule.TestClient
