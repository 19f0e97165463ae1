import NetworkModule.Lib.Machine
import NetworkModule.Network.PacketFraming

/-!
# The link of TestServer to the DB server

`TestServer` keeps one connection to the DB server (`TestServer/src/TestServer.cpp`).
`main` calls `ConnectToDBServer` once, after `Start`.  Each connection has a thread in
`DBRecvLoop`, which cuts the bytes into packets and gives them to the session of the
connection.  When the connection is lost, this thread starts another one in
`DBReconnectLoop`, which waits and connects again.  `Stop` ends it all.

The threads share flags.  Every load and store of a flag, every join and every start of a
thread is one step.  The receive buffer and the read offset belong to the server and not
to a connection.  Only the thread in `DBRecvLoop` uses them, and `DisconnectFromDBServer`
after it has joined that thread, so a call of `recv` with the loop over the packets is one
step.

The ping timer and the sends are left out: they read `mDBRunning` and write no flag.
-/

namespace NetworkModule.TestServer.DBLink

open NetworkModule.PacketFraming (hdrSize)

/-! ## Packets -/

/-- `sizeof(ServerPacketHeader)`: the size, the id and the sequence number. -/
def serverPacketHeaderSize : Nat := 8

/-- The largest size that `DBRecvLoop` accepts. -/
def maxServerPacketSize : Nat := 4096

/-- `kTempBufferSize`. -/
def kTempBufferSize : Nat := 4096

/-- A packet as the DB server should send it. -/
def WellFormed (p : List UInt8) : Prop :=
  serverPacketHeaderSize ≤ p.length ∧ p.length ≤ maxServerPacketSize ∧ hdrSize p = p.length

instance (p : List UInt8) : Decidable (WellFormed p) := inferInstanceAs (Decidable (_ ∧ _))

/-- The loop over the packets in `DBRecvLoop`: the buffer and the offset after it, and
the packets given to `OnRecv`.  The offset never exceeds the size of the buffer, so the
subtraction does not wrap. -/
def packetLoop (mDBRecvBuffer : List UInt8) (mDBRecvOffset : Nat) (packets : List (List UInt8)) :
    List UInt8 × Nat × List (List UInt8) :=
  if serverPacketHeaderSize ≤ mDBRecvBuffer.length - mDBRecvOffset then
    let size := hdrSize (mDBRecvBuffer.drop mDBRecvOffset)
    if size < serverPacketHeaderSize ∨ maxServerPacketSize < size then ([], 0, packets)
    else if mDBRecvBuffer.length - mDBRecvOffset < size then (mDBRecvBuffer, mDBRecvOffset, packets)
    else
      packetLoop mDBRecvBuffer (mDBRecvOffset + size)
        (packets ++ [(mDBRecvBuffer.drop mDBRecvOffset).take size])
  else (mDBRecvBuffer, mDBRecvOffset, packets)
termination_by mDBRecvBuffer.length - mDBRecvOffset
decreasing_by
  rename_i hhdr hbad _
  have hpos : 0 < serverPacketHeaderSize := by decide
  simp only [not_or, not_lt] at hbad
  omega

/-- The buffer is compacted when more than half of it is consumed. -/
def compact (mDBRecvBuffer : List UInt8) (mDBRecvOffset : Nat) : List UInt8 × Nat :=
  if 0 < mDBRecvOffset ∧ mDBRecvBuffer.length / 2 < mDBRecvOffset then
    (mDBRecvBuffer.drop mDBRecvOffset, 0)
  else (mDBRecvBuffer, mDBRecvOffset)

/-! ## Threads -/

/-- Where a call of `ConnectToDBServer` stands. -/
inductive ConnectPc where
  /-- The load of `mDBRunning`. -/
  | test
  /-- Joining the old `mDBRecvThread`. -/
  | join
  /-- `socket`, `inet_pton` and `connect`. -/
  | openSocket
  /-- Storing the session, the socket and `mDBRunning`. -/
  | store
  /-- Starting the thread for `DBRecvLoop`. -/
  | spawn
  deriving DecidableEq, Repr

/-- `mDBRecvThread`. -/
inductive RecvPc where
  /-- There is no thread. -/
  | none
  /-- The load of `mDBRunning` at the head of the loop. -/
  | head
  /-- In `recv`. -/
  | recv
  /-- `mDBRunning.store(false)` after the loop. -/
  | store
  /-- The check loads `mIsRunning`. -/
  | runningTest
  /-- The check loads `mDBReconnectRunning`. -/
  | reconnectTest
  /-- `mDBReconnectRunning.store(true)`. -/
  | set
  /-- Joining the old `mDBReconnectThread`. -/
  | join
  /-- Starting the thread for `DBReconnectLoop`. -/
  | spawn
  /-- The thread has ended and is not joined. -/
  | ended
  deriving DecidableEq, Repr

/-- `mDBReconnectThread`. -/
inductive ReconnectPc where
  /-- There is no thread. -/
  | none
  /-- The loop condition loads `mIsRunning`. -/
  | runningTest
  /-- The loop condition loads `mDBRunning`. -/
  | dbRunningTest
  /-- Waiting for the delay. -/
  | wait
  /-- The load of `mIsRunning` after the wait. -/
  | wakeTest
  /-- In `ConnectToDBServer`. -/
  | connecting (pc : ConnectPc)
  /-- `mDBReconnectRunning.store(false)`. -/
  | clear
  /-- The thread has ended and is not joined. -/
  | ended
  deriving DecidableEq, Repr

/-- The thread of `main`. -/
inductive MainPc where
  /-- In `ConnectToDBServer`. -/
  | connecting (pc : ConnectPc)
  /-- The server is running. -/
  | up
  /-- `Stop` clears `mIsRunning`. -/
  | store
  /-- `Stop` joins `mDBReconnectThread`. -/
  | joinReconnect
  /-- `DisconnectFromDBServer` loads `mDBRunning`. -/
  | dbTest
  /-- `DisconnectFromDBServer` clears `mDBRunning`. -/
  | dbStore
  /-- `DisconnectFromDBServer` has shut the socket down and joins `mDBRecvThread`. -/
  | joinRecv
  /-- `DisconnectFromDBServer` clears the buffer and the offset. -/
  | reset
  | stopped
  deriving DecidableEq, Repr

/-- A connection: the bytes that `recv` returned, and the packets given to `OnRecv` of
its session. -/
structure Conn where
  bytes : List UInt8 := []
  passed : List (List UInt8) := []
  deriving DecidableEq, Repr

/-- `TestServer` after `Start`, as far as it is about the DB server. -/
structure Link where
  mIsRunning : Bool := true
  mDBRunning : Bool := false
  mDBReconnectRunning : Bool := false
  mDBRecvBuffer : List UInt8 := []
  mDBRecvOffset : Nat := 0
  mLastDBConnectError : Nat := 0
  main : MainPc := .connecting .test
  recv : RecvPc := .none
  reconnect : ReconnectPc := .none
  /-- `delayMs` of `DBReconnectLoop`. -/
  delayMs : Nat := 1000
  /-- The connections so far, the newest last. -/
  conns : List Conn := []
  deriving DecidableEq, Repr

/-! ## Steps -/

/-- How `socket`, `inet_pton` and `connect` end. -/
inductive ConnectAnswer where
  | ok
  /-- `inet_pton` rejects the address, or the first `WSAStartup` has failed. -/
  | invalidAddress
  /-- `socket` or `connect` fails with an error code. -/
  | failed (error : Nat)
  deriving DecidableEq, Repr

/-- What `recv` returns. -/
inductive RecvAnswer where
  | data (chunk : List UInt8)
  /-- The connection is closed, or there is an error other than `WSAEINTR`. -/
  | lost
  | interrupted
  deriving DecidableEq, Repr

/-- A call of `ConnectToDBServer` goes on, or it returns. -/
inductive ConnectNext where
  | goesOn (pc : ConnectPc)
  | returns (ok : Bool)
  deriving DecidableEq, Repr

/-- One step of `ConnectToDBServer`. -/
def connectStep (s : Link) (answer : ConnectAnswer) : ConnectPc → Option (Link × ConnectNext)
  | .test => some (s, if s.mDBRunning then .returns true else .goesOn .join)
  | .join =>
      if s.recv = .none ∨ s.recv = .ended then some ({ s with recv := .none }, .goesOn .openSocket)
      else none
  | .openSocket =>
      match answer with
      | .ok => some ({ s with mLastDBConnectError := 0 }, .goesOn .store)
      | .invalidAddress => some (s, .returns false)
      | .failed error => some ({ s with mLastDBConnectError := error }, .returns false)
  | .store => some ({ s with mDBRunning := true, conns := s.conns ++ [{}] }, .goesOn .spawn)
  | .spawn => some ({ s with recv := .head }, .returns true)

/-- The bytes that `recv` returned, through the loop over the packets. -/
def receive (s : Link) (chunk : List UInt8) : Link :=
  let r := packetLoop (s.mDBRecvBuffer ++ chunk) s.mDBRecvOffset []
  let left := compact r.1 r.2.1
  { s with
    mDBRecvBuffer := left.1
    mDBRecvOffset := left.2
    conns := s.conns.modify (s.conns.length - 1) fun c =>
      { bytes := c.bytes ++ chunk, passed := c.passed ++ r.2.2 } }

/-- One step of the thread in `DBRecvLoop`. -/
def recvStep (s : Link) (answer : RecvAnswer) : Option Link :=
  match s.recv with
  | .none | .ended => none
  | .head => some { s with recv := if s.mDBRunning then .recv else .store }
  | .recv =>
      match answer with
      | .data chunk =>
          if chunk ≠ [] ∧ chunk.length ≤ kTempBufferSize then
            some { receive s chunk with recv := .head }
          else none
      | .lost => some { s with recv := .store }
      | .interrupted => some { s with recv := .head }
  | .store => some { s with mDBRunning := false, recv := .runningTest }
  | .runningTest => some { s with recv := if s.mIsRunning then .reconnectTest else .ended }
  | .reconnectTest => some { s with recv := if s.mDBReconnectRunning then .ended else .set }
  | .set => some { s with mDBReconnectRunning := true, recv := .join }
  | .join =>
      if s.reconnect = .none ∨ s.reconnect = .ended then
        some { s with reconnect := .none, recv := .spawn }
      else none
  | .spawn => some { s with reconnect := .runningTest, delayMs := 1000, recv := .ended }

/-- `WSAECONNREFUSED`. -/
def wsaConnRefused : Nat := 10061

/-- `kMaxDelayMs`. -/
def kMaxDelayMs : Nat := 30000

/-- `kConnRefusedDelayMs`. -/
def kConnRefusedDelayMs : Nat := 1000

/-- The delay after a failed attempt. -/
def nextDelay (lastError delayMs : Nat) : Nat :=
  if lastError = wsaConnRefused then kConnRefusedDelayMs else min (delayMs * 2) kMaxDelayMs

/-- One step of the thread in `DBReconnectLoop`. -/
def reconnectStep (s : Link) (answer : ConnectAnswer) : Option Link :=
  match s.reconnect with
  | .none | .ended => none
  | .runningTest => some { s with reconnect := if s.mIsRunning then .dbRunningTest else .clear }
  | .dbRunningTest => some { s with reconnect := if s.mDBRunning then .clear else .wait }
  | .wait => some { s with reconnect := .wakeTest }
  | .wakeTest => some { s with reconnect := if s.mIsRunning then .connecting .test else .clear }
  | .connecting pc =>
      (connectStep s answer pc).map fun r =>
        match r.2 with
        | .goesOn pc' => { r.1 with reconnect := .connecting pc' }
        | .returns true => { r.1 with reconnect := .clear }
        | .returns false =>
            { r.1 with
              reconnect := .runningTest
              delayMs := nextDelay r.1.mLastDBConnectError r.1.delayMs }
  | .clear => some { s with mDBReconnectRunning := false, reconnect := .ended }

/-- One step of `main`. -/
def mainStep (s : Link) (answer : ConnectAnswer) : Option Link :=
  match s.main with
  | .connecting pc =>
      (connectStep s answer pc).map fun r =>
        match r.2 with
        | .goesOn pc' => { r.1 with main := .connecting pc' }
        | .returns _ => { r.1 with main := .up }
  | .up => some { s with main := .store }
  | .store => some { s with mIsRunning := false, main := .joinReconnect }
  | .joinReconnect =>
      if s.reconnect = .none ∨ s.reconnect = .ended then
        some { s with reconnect := .none, main := .dbTest }
      else none
  | .dbTest => some { s with main := if s.mDBRunning then .dbStore else .stopped }
  | .dbStore => some { s with mDBRunning := false, main := .joinRecv }
  | .joinRecv =>
      if s.recv = .none ∨ s.recv = .ended then some { s with recv := .none, main := .reset }
      else none
  | .reset => some { s with mDBRecvBuffer := [], mDBRecvOffset := 0, main := .stopped }
  | .stopped => none

/-- Who moves. -/
inductive Act where
  | main (answer : ConnectAnswer)
  | recv (answer : RecvAnswer)
  | reconnect (answer : ConnectAnswer)
  deriving DecidableEq, Repr

/-- One step. -/
def step (s : Link) : Act → Option Link
  | .main answer => mainStep s answer
  | .recv answer => recvStep s answer
  | .reconnect answer => reconnectStep s answer

end NetworkModule.TestServer.DBLink
