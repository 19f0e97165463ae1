import NetworkModule.Lib.Machine
import NetworkModule.TestClient.PacketStream

/-!
# Reconnecting of the test client

`main` of the test client connects, starts a worker thread and polls the keyboard.  When the
connection is lost it calls `Disconnect` and connects again (`TestClient/main.cpp` and
`TestClient/src/TestClient.cpp`).  The worker receives packets and sends pings.  It sets
`mState` to `Disconnected` when `RecvPacket` fails.

Every load and store of `mState` and of `mStopRequested`, every system call, the join and
the start of a thread is one step.  A call of `RecvPacket` is one step: `main` uses the
stream only where no worker is in it.  A signal may call `RequestStop` at any time.

The socket handles are numbered in the order in which they are made, so that two sockets
never have one number.  The statistics, the handling of packets and the length of the delays
are left out: they change nothing that is here.
-/

namespace NetworkModule.TestClient

/-! ## The client -/

/-- `ClientState`. -/
inductive ClientState where
  | disconnected
  | connecting
  | connected
  | sessionActive
  | disconnecting
  deriving DecidableEq, Repr

/-- `IsConnected`. -/
def ClientState.isConnected (mState : ClientState) : Bool :=
  mState = .connected || mState = .sessionActive

/-- A byte and the socket it was received from. -/
structure Byte where
  socket : Nat
  value : UInt8
  deriving DecidableEq, Repr

/-- What the socket `k` answers. -/
def Recv.tag (k : Nat) : Recv UInt8 → Recv Byte
  | .data first rest => .data ⟨k, first⟩ (rest.map fun v => ⟨k, v⟩)
  | .closed => .closed
  | .wouldBlock => .wouldBlock
  | .failed => .failed

/-- Where a call of `Disconnect` stands. -/
inductive DisconnectPc where
  /-- The load of `mState`. -/
  | test
  /-- `mState.store(Disconnecting)`. -/
  | store
  /-- `mStopRequested.store(true)`. -/
  | stop
  | join
  /-- Closing the socket, resetting the stream, and `mState.store(Disconnected)`. -/
  | close
  deriving DecidableEq, Repr

/-- Where `main` stands. -/
inductive MainPc where
  /-- The outer loop tests `IsStopRequested`. -/
  | outerStop
  /-- `IsConnected` in the outer loop. -/
  | outerConnected
  /-- `IsStopRequested` after the delay. -/
  | delayed
  /-- `Connect` loads `mState`. -/
  | connectTest
  /-- `mStopRequested.store(false)` in `Connect`. -/
  | resetStop
  /-- `mState.store(Connecting)`. -/
  | storeConnecting
  /-- `getaddrinfo`. -/
  | resolve
  /-- `socket`. -/
  | openSocket
  /-- `connect`. -/
  | connect
  /-- `mState.store(Connected)`. -/
  | storeConnected
  /-- Attaching the stream, and sending `SessionConnectReq`. -/
  | send
  /-- Waiting for `SessionConnectRes`, of which so many bytes are there. -/
  | handshake (totalReceived : Nat)
  /-- `Connect` has returned true, and `Start` loads `mState`. -/
  | startTest
  /-- `mStopRequested.store(false)` in `Start`. -/
  | startReset
  /-- `Start` assigns `mWorkerThread`. -/
  | assign
  /-- The main loop tests `IsStopRequested`. -/
  | innerStop
  /-- And `IsConnected`. -/
  | innerConnected
  /-- Polling the keyboard. -/
  | poll
  /-- `IsStopRequested` after the main loop. -/
  | lostStop
  /-- And `IsConnected`. -/
  | lostConnected
  /-- In `Disconnect`, from the reconnect loop or at the end from `Shutdown`. -/
  | disconnect (atEnd : Bool) (pc : DisconnectPc)
  /-- The client is destroyed. -/
  | destroy
  | exited
  /-- `std::terminate`: a thread that is joinable is assigned or destroyed. -/
  | terminated
  deriving DecidableEq, Repr

/-- `mWorkerThread`. -/
inductive WorkerPc where
  /-- There is no thread: `mWorkerThread` is not joinable. -/
  | none
  /-- The loop condition loads `mStopRequested`. -/
  | stopTest
  /-- And `mState`. -/
  | stateTest
  /-- Whether to send a ping. -/
  | ping
  /-- In `RecvPacket`. -/
  | recv
  /-- `mState.store(Disconnected)`. -/
  | store
  /-- The thread has ended and is not joined. -/
  | ended
  deriving DecidableEq, Repr

/-- `TestClient`, and `main`. -/
structure Client where
  mState : ClientState := .disconnected
  mStopRequested : Bool := false
  /-- `none` is `INVALID_SOCKET_HANDLE`. -/
  mSocket : Option Nat := none
  mMaxPings : Nat := 0
  mPingSequence : Nat := 0
  /-- `mSocket` of the stream. -/
  streamSocket : Option Nat := none
  /-- `mRecvBuffer` of the stream. -/
  mRecvBuffer : List Byte := []
  worker : WorkerPc := .none
  main : MainPc := .outerStop
  reconnectAttempt : Nat := 0
  /-- How many sockets have been made. -/
  sockets : Nat := 0
  /-- The sockets that have not been closed. -/
  openSockets : List Nat := []
  deriving DecidableEq, Repr

/-! ## Connecting -/

/-- `kMaxReconnectAttempts`. -/
def kMaxReconnectAttempts : Nat := 10

/-- `sizeof(PKT_SessionConnectRes)`. -/
def connectResSize : Nat := 17

/-- `kHandshakeTimeoutMs`. -/
def kHandshakeTimeoutMs : Nat := 10000

/-- The reconnect loop counts an attempt, and gives up or goes on. -/
def Client.retry (s : Client) : Client :=
  { s with
    reconnectAttempt := s.reconnectAttempt + 1
    main := if kMaxReconnectAttempts ≤ s.reconnectAttempt + 1 then .disconnect true .test
      else .outerStop }

/-- Closing `mSocket`. -/
def Client.closeSocket (s : Client) : Client :=
  { s with openSockets := s.openSockets.filter fun k => s.mSocket ≠ some k, mSocket := none }

/-- `PacketStream::Reset`. -/
def Client.resetStream (s : Client) : Client := { s with streamSocket := none, mRecvBuffer := [] }

/-- `Connect` has failed with the socket open. -/
def Client.connectFailed (s : Client) : Client :=
  { s.closeSocket.resetStream with mState := .disconnected }.retry

/-- What the system answers to a step of `main`. -/
inductive Answer where
  /-- The call succeeds.  In the handshake `recv` was interrupted, or the response says
  `Success`.  At the keyboard nobody has asked to quit. -/
  | ok
  /-- The call fails, the response refuses the session, or somebody wants to quit. -/
  | failed
  /-- `recv` gives so many bytes of the response, none if the server has closed. -/
  | received (bytes : Nat)
  /-- `recv` times out, so long after the beginning of the handshake. -/
  | wouldBlock (elapsedMs : Nat)
  deriving DecidableEq, Repr

/-- Waiting for `SessionConnectRes`. -/
def handshakeStep (s : Client) (totalReceived : Nat) (answer : Answer) : Client :=
  if totalReceived < connectResSize then
    match answer with
    | .ok => s
    | .failed => s.connectFailed
    | .received 0 => s.connectFailed
    | .received bytes =>
        { s with main := .handshake (totalReceived + min bytes (connectResSize - totalReceived)) }
    | .wouldBlock elapsedMs => if elapsedMs < kHandshakeTimeoutMs then s else s.connectFailed
  else
    match answer with
    | .ok => { s with mState := .sessionActive, main := .startTest }
    | _ => s.connectFailed

/-! ## Disconnecting -/

/-- `Disconnect` returns. -/
def Client.disconnected (s : Client) (atEnd : Bool) : Client :=
  if atEnd then { s with main := .destroy } else s.retry

/-- `Disconnect`. -/
def disconnectStep (s : Client) (atEnd : Bool) : DisconnectPc → Option Client
  | .test =>
      some (if s.mState = .disconnected then s.disconnected atEnd
        else { s with main := .disconnect atEnd .store })
  | .store => some { s with mState := .disconnecting, main := .disconnect atEnd .stop }
  | .stop => some { s with mStopRequested := true, main := .disconnect atEnd .join }
  | .join =>
      if s.worker = .none ∨ s.worker = .ended then
        some { s with worker := .none, main := .disconnect atEnd .close }
      else none
  | .close =>
      some ({ s.closeSocket.resetStream with mState := .disconnected }.disconnected atEnd)

/-! ## The threads -/

/-- A step of `main`. -/
def mainStep (s : Client) (answer : Answer) : Option Client :=
  match s.main with
  | .outerStop =>
      some { s with main := if s.mStopRequested then .disconnect true .test else .outerConnected }
  | .outerConnected =>
      some { s with main :=
        if s.mState.isConnected then .innerStop
        else if 0 < s.reconnectAttempt then .delayed
        else .connectTest }
  | .delayed =>
      some { s with main := if s.mStopRequested then .disconnect true .test else .connectTest }
  | .connectTest =>
      some (if s.mState = .disconnected then { s with main := .resetStop } else s.retry)
  | .resetStop => some { s with mStopRequested := false, main := .storeConnecting }
  | .storeConnecting => some { s with mState := .connecting, main := .resolve }
  | .resolve =>
      some (match answer with
        | .ok => { s with main := .openSocket }
        | _ => { s with mState := .disconnected }.retry)
  | .openSocket =>
      some (match answer with
        | .ok =>
            { s with
              mSocket := some s.sockets
              sockets := s.sockets + 1
              openSockets := s.openSockets ++ [s.sockets]
              main := .connect }
        | _ => { s.resetStream with mSocket := none, mState := .disconnected }.retry)
  | .connect =>
      some (match answer with
        | .ok => { s with main := .storeConnected }
        | _ => s.connectFailed)
  | .storeConnected => some { s with mState := .connected, main := .send }
  | .send =>
      some (match answer with
        | .ok => { s with streamSocket := s.mSocket, main := .handshake 0 }
        | _ => s.connectFailed)
  | .handshake totalReceived => some (handshakeStep s totalReceived answer)
  | .startTest =>
      some { s with
        main := if s.mState = .sessionActive then .startReset else .disconnect true .test }
  | .startReset => some { s with mStopRequested := false, main := .assign }
  | .assign =>
      some (if s.worker = .none then
        { s with worker := .stopTest, reconnectAttempt := 0, main := .innerStop }
      else { s with main := .terminated })
  | .innerStop =>
      some { s with main := if s.mStopRequested then .lostStop else .innerConnected }
  | .innerConnected =>
      some { s with main := if s.mState.isConnected then .poll else .lostStop }
  | .poll =>
      some (match answer with
        | .failed => { s with mStopRequested := true, main := .lostStop }
        | _ => { s with main := .innerStop })
  | .lostStop =>
      some { s with main := if s.mStopRequested then .outerStop else .lostConnected }
  | .lostConnected =>
      some { s with main := if s.mState.isConnected then .outerStop else .disconnect false .test }
  | .disconnect atEnd pc => disconnectStep s atEnd pc
  | .destroy => some { s with main := if s.worker = .none then .exited else .terminated }
  | .exited => none
  | .terminated => none

/-- `RecvPacket` of the stream, with the body buffer of the worker. -/
def Client.recvPacket (s : Client) (answers : List (Recv UInt8)) : Received Byte :=
  TestClient.recvPacket Byte.value PacketFraming.maxPacketSize s.mRecvBuffer
    (match s.streamSocket with
      | none => [.failed]
      | some k => answers.map (Recv.tag k))

/-- A step of `NetworkWorkerThread`: whether a ping is due, and what the socket answers. -/
def workerStep (s : Client) (due : Bool) (answers : List (Recv UInt8)) : Option Client :=
  match s.worker with
  | .none => none
  | .stopTest => some { s with worker := if s.mStopRequested then .ended else .stateTest }
  | .stateTest => some { s with worker := if s.mState = .sessionActive then .ping else .ended }
  | .ping =>
      some (if due then
        if 0 < s.mMaxPings ∧ s.mMaxPings ≤ s.mPingSequence then
          { s with mStopRequested := true, worker := .ended }
        else { s with mPingSequence := (s.mPingSequence + 1) % 2 ^ 32, worker := .recv }
      else { s with worker := .recv })
  | .recv =>
      some { s with
        mRecvBuffer := (s.recvPacket answers).mRecvBuffer
        worker :=
          match (s.recvPacket answers).result with
          | .success | .timeout => .stopTest
          | .connectionClosed | .error | .invalidPacket => .store }
  | .store => some { s with mState := .disconnected, worker := .stopTest }
  | .ended => none

/-- What happens next. -/
inductive Act where
  | main (answer : Answer)
  | worker (due : Bool) (answers : List (Recv UInt8))
  /-- `RequestStop` from a signal handler. -/
  | signal
  deriving DecidableEq, Repr

/-- One step.  Nothing happens when the process has ended. -/
def step (s : Client) (a : Act) : Option Client :=
  if s.main = .exited ∨ s.main = .terminated then none
  else
    match a with
    | .main answer => mainStep s answer
    | .worker due answers => workerStep s due answers
    | .signal => some { s with mStopRequested := true }

/-- The client after `Initialize`. -/
def Client.init (mMaxPings : Nat) : Client := { mMaxPings := mMaxPings }

/-! ## A clean start -/

/-- `Connect` has returned true, and `Start` has not assigned the thread. -/
def MainPc.starting : MainPc → Bool
  | .startTest | .startReset | .assign => true
  | _ => false

/-- Where a new connection starts, there is no worker, every byte in the stream is of the
new connection, and no other socket is open. -/
def Clean (s : Client) : Prop :=
  s.main.starting = true →
    s.worker = .none ∧ (∀ b ∈ s.mRecvBuffer, s.mSocket = some b.socket) ∧
      ∀ k ∈ s.openSockets, s.mSocket = some k

instance (s : Client) : Decidable (Clean s) := inferInstanceAs (Decidable (_ → _))

/-- The step by which `Connect` returns true. -/
def accepts (s : Client) : Act → Bool
  | .main .ok =>
      match s.main with
      | .handshake totalReceived => connectResSize ≤ totalReceived
      | _ => false
  | _ => false

/-- If `Connect` returns true, no worker has been started before. -/
def firstConnection (s : Client) (a : Act) : Prop := accepts s a = true → s.worker = .none

instance (s : Client) (a : Act) : Decidable (firstConnection s a) :=
  inferInstanceAs (Decidable (_ → _))

/-! ## Invariants -/

/-- `main` may own a socket that has not been given to a worker. -/
def MainPc.holdsSocket : MainPc → Bool
  | .connect | .storeConnected | .send | .handshake _ => true
  | pc => pc.starting

/-- `main` will not connect again. -/
def MainPc.atEnd : MainPc → Bool
  | .disconnect true _ | .destroy | .exited | .terminated => true
  | _ => false

/-- `main` is neither in `Connect` nor at its end. -/
def MainPc.settled : MainPc → Bool
  | .connectTest | .resetStop | .storeConnecting | .outerStop | .outerConnected | .delayed
  | .innerStop | .innerConnected | .poll | .lostStop | .lostConnected | .disconnect false _ => true
  | pc => pc.starting

/-- What holds in every state. -/
structure ClientInv (s : Client) : Prop where
  settled : s.main.settled = true → s.mState = .disconnected ∨ s.mState = .sessionActive
  /-- In the reconnect loop `Disconnect` returns at once. -/
  lost : ∀ pc, s.main = .disconnect false pc → pc = .test ∧ s.mState = .disconnected
  /-- Before the first worker. -/
  buffer : s.worker = .none → s.main.atEnd = false → s.mRecvBuffer = []
  sockets : s.worker = .none → s.main.atEnd = false →
    ∀ k ∈ s.openSockets, s.mSocket = some k ∧ s.main.holdsSocket = true

theorem clientInv_init (mMaxPings : Nat) : ClientInv (.init mMaxPings) where
  settled := fun _ => .inl rfl
  lost := fun pc h => by simp [Client.init] at h
  buffer := fun _ _ => rfl
  sockets := by simp [Client.init]

section
variable {s s' : Client}

/-- `main` goes on, and the flag for stopping may change. -/
theorem ClientInv.goto (h : ClientInv s) {pc : MainPc} (stop : Bool) (attempt : Nat)
    (hsettled : pc.settled = true → s.mState = .disconnected ∨ s.mState = .sessionActive)
    (hlost : ∀ pc', pc = .disconnect false pc' → pc' = .test ∧ s.mState = .disconnected)
    (hend : pc.atEnd = false → s.main.atEnd = false)
    (hholds : pc.atEnd = false → s.main.holdsSocket = true → pc.holdsSocket = true) :
    ClientInv { s with main := pc, mStopRequested := stop, reconnectAttempt := attempt } where
  settled := hsettled
  lost := hlost
  buffer := fun hw he => h.buffer hw (hend he)
  sockets := fun hw he k hk =>
    have hsock := h.sockets hw (hend he) k hk
    ⟨hsock.1, hholds he hsock.2⟩

/-- Nothing is asked of a client that will not connect again. -/
theorem clientInv_of_atEnd (hend : s.main.atEnd = true) : ClientInv s where
  settled := fun hsettled => by
    cases hpc : s.main with
    | disconnect atEnd pc =>
        cases atEnd <;> simp_all [MainPc.atEnd, MainPc.settled, MainPc.starting]
    | _ => simp_all [MainPc.atEnd, MainPc.settled, MainPc.starting]
  lost := fun pc hpc => by simp [hpc, MainPc.atEnd] at hend
  buffer := fun _ he => by simp [he] at hend
  sockets := fun _ he => by simp [he] at hend

/-- `main` goes on where it owns no socket. -/
theorem ClientInv.quiet (h : ClientInv s) {pc : MainPc} (stop : Bool) (attempt : Nat)
    (hsettled : s.mState = .disconnected ∨ s.mState = .sessionActive)
    (hlost : ∀ pc', pc = .disconnect false pc' → pc' = .test ∧ s.mState = .disconnected)
    (hend : s.main.atEnd = false) (hholds : s.main.holdsSocket = false) :
    ClientInv { s with main := pc, mStopRequested := stop, reconnectAttempt := attempt } :=
  h.goto stop attempt (fun _ => hsettled) hlost (fun _ => hend) (by simp [hholds])

/-- The reconnect loop counts an attempt. -/
theorem ClientInv.retry (h : ClientInv s)
    (hsettled : s.mState = .disconnected ∨ s.mState = .sessionActive)
    (hend : s.main.atEnd = false) (hholds : s.main.holdsSocket = false) : ClientInv s.retry :=
  h.quiet s.mStopRequested _ hsettled (by split <;> simp) hend hholds

/-- `Connect` fails, and before the first worker no socket is open then. -/
theorem clientInv_retry {t : Client} (hstate : t.mState = .disconnected)
    (hbuffer : t.worker = .none → t.mRecvBuffer = [])
    (hsockets : t.worker = .none → t.openSockets = []) : ClientInv t.retry where
  settled := fun _ => .inl hstate
  lost := by
    simp only [Client.retry]
    split <;> simp
  buffer := fun hw _ => hbuffer hw
  sockets := fun hw _ k hk => by
    rw [show t.retry.openSockets = [] from hsockets hw] at hk
    cases hk

theorem ClientInv.connectFailed (h : ClientInv s) (hend : s.main.atEnd = false) :
    ClientInv s.connectFailed := by
  refine clientInv_retry rfl (fun _ => rfl) fun hw => ?_
  refine List.filter_eq_nil_iff.mpr fun k hk => ?_
  simp [(h.sockets hw hend k hk).1]

theorem ClientInv.handshake {n : Nat} {answer : Answer} (h : ClientInv s)
    (hpc : s.main = .handshake n) : ClientInv (handshakeStep s n answer) := by
  have hend : s.main.atEnd = false := by rw [hpc]; rfl
  simp only [handshakeStep]
  split
  · cases answer with
    | ok => exact h
    | failed => exact h.connectFailed hend
    | received bytes =>
        cases bytes with
        | zero => exact h.connectFailed hend
        | succ bytes =>
            exact h.goto s.mStopRequested s.reconnectAttempt
              (by simp [MainPc.settled, MainPc.starting]) (by simp) (fun _ => hend) (fun _ _ => rfl)
    | wouldBlock elapsedMs =>
        simp only
        split
        · exact h
        · exact h.connectFailed hend
  · cases answer with
    | ok =>
        exact {
          settled := fun _ => .inr rfl
          lost := by simp
          buffer := fun hw _ => h.buffer hw hend
          sockets := fun hw _ k hk => ⟨(h.sockets hw hend k hk).1, rfl⟩ }
    | failed => exact h.connectFailed hend
    | received bytes => exact h.connectFailed hend
    | wouldBlock elapsedMs => exact h.connectFailed hend

theorem ClientInv.disconnect {atEnd : Bool} {pc : DisconnectPc} (h : ClientInv s)
    (hpc : s.main = .disconnect atEnd pc) (hs : disconnectStep s atEnd pc = some s') :
    ClientInv s' := by
  cases atEnd with
  | false =>
      obtain ⟨rfl, hstate⟩ := h.lost pc hpc
      simp only [disconnectStep, if_pos hstate, Option.some.injEq] at hs
      subst hs
      exact h.retry (.inl hstate) (by rw [hpc]; rfl) (by rw [hpc]; rfl)
  | true =>
      cases pc with
      | test =>
          simp only [disconnectStep, Option.some.injEq] at hs
          subst hs
          split
          · exact clientInv_of_atEnd rfl
          · exact clientInv_of_atEnd rfl
      | store =>
          simp only [disconnectStep, Option.some.injEq] at hs
          subst hs
          exact clientInv_of_atEnd rfl
      | stop =>
          simp only [disconnectStep, Option.some.injEq] at hs
          subst hs
          exact clientInv_of_atEnd rfl
      | join =>
          simp only [disconnectStep] at hs
          split at hs
          · cases hs
            exact clientInv_of_atEnd rfl
          · cases hs
      | close =>
          simp only [disconnectStep, Option.some.injEq] at hs
          subst hs
          exact clientInv_of_atEnd rfl

/-- Before the first worker no socket is open but the one that `main` owns. -/
theorem ClientInv.no_sockets (h : ClientInv s) (hend : s.main.atEnd = false)
    (hholds : s.main.holdsSocket = false) (hw : s.worker = .none) : s.openSockets = [] := by
  refine List.eq_nil_iff_forall_not_mem.mpr fun k hk => ?_
  have howns := (h.sockets hw hend k hk).2
  simp [hholds] at howns

/-- A step of `main` in `Connect`, after the state is stored. -/
theorem ClientInv.connectStep {answer : Answer} (h : ClientInv s)
    (hsettled : s.main.settled = false) (hend : s.main.atEnd = false)
    (hs : mainStep s answer = some s') : ClientInv s' := by
  cases hpc : s.main with
  | resolve =>
      simp only [mainStep, hpc, Option.some.injEq] at hs
      subst hs
      split
      · exact h.goto s.mStopRequested s.reconnectAttempt (by simp [MainPc.settled, MainPc.starting])
          (by simp) (fun _ => hend) (by simp [hpc, MainPc.holdsSocket, MainPc.starting])
      · exact clientInv_retry rfl (fun hw => h.buffer hw hend)
          (h.no_sockets hend (by rw [hpc]; rfl))
  | openSocket =>
      simp only [mainStep, hpc, Option.some.injEq] at hs
      subst hs
      have hnone := h.no_sockets hend (by rw [hpc]; rfl)
      split
      · exact {
          settled := by simp [MainPc.settled, MainPc.starting]
          lost := by simp
          buffer := fun hw _ => h.buffer hw hend
          sockets := fun hw _ k hk => by simpa [hnone hw, MainPc.holdsSocket, eq_comm] using hk }
      · exact clientInv_retry rfl (fun _ => rfl) hnone
  | connect =>
      simp only [mainStep, hpc, Option.some.injEq] at hs
      subst hs
      split
      · exact h.goto s.mStopRequested s.reconnectAttempt (by simp [MainPc.settled, MainPc.starting])
          (by simp) (fun _ => hend) (fun _ _ => rfl)
      · exact h.connectFailed hend
  | storeConnected =>
      simp only [mainStep, hpc, Option.some.injEq] at hs
      subst hs
      exact {
        settled := by simp [MainPc.settled, MainPc.starting]
        lost := by simp
        buffer := fun hw _ => h.buffer hw hend
        sockets := fun hw _ k hk => ⟨(h.sockets hw hend k hk).1, rfl⟩ }
  | send =>
      simp only [mainStep, hpc, Option.some.injEq] at hs
      subst hs
      split
      · exact {
          settled := by simp [MainPc.settled, MainPc.starting]
          lost := by simp
          buffer := fun hw _ => h.buffer hw hend
          sockets := fun hw _ k hk => ⟨(h.sockets hw hend k hk).1, rfl⟩ }
      · exact h.connectFailed hend
  | handshake n =>
      simp only [mainStep, hpc, Option.some.injEq] at hs
      subst hs
      exact h.handshake hpc
  | disconnect atEnd pc => cases atEnd <;> simp_all [MainPc.atEnd, MainPc.settled]
  | _ => simp_all [MainPc.atEnd, MainPc.settled, MainPc.starting]

/-- A step of `main` in `Start`. -/
theorem ClientInv.startStep {answer : Answer} (h : ClientInv s)
    (hstarting : s.main.starting = true) (hs : mainStep s answer = some s') : ClientInv s' := by
  have hsettled := h.settled
  cases hpc : s.main with
  | startTest =>
      simp only [mainStep, hpc, Option.some.injEq] at hs
      subst hs
      rw [hpc] at hsettled
      split
      · exact h.goto s.mStopRequested s.reconnectAttempt (fun _ => hsettled rfl) (by simp)
          (by simp [hpc, MainPc.atEnd]) (fun _ _ => rfl)
      · exact clientInv_of_atEnd rfl
  | startReset =>
      simp only [mainStep, hpc, Option.some.injEq] at hs
      subst hs
      rw [hpc] at hsettled
      exact h.goto false s.reconnectAttempt (fun _ => hsettled rfl) (by simp)
        (by simp [hpc, MainPc.atEnd]) (fun _ _ => rfl)
  | assign =>
      simp only [mainStep, hpc, Option.some.injEq] at hs
      subst hs
      rw [hpc] at hsettled
      split
      · exact {
          settled := fun _ => hsettled rfl
          lost := by simp
          buffer := by simp
          sockets := by simp }
      · exact clientInv_of_atEnd rfl
  | _ => simp [hpc, MainPc.starting] at hstarting

/-- Every other step of `main`. -/
theorem ClientInv.loopStep {answer : Answer} (h : ClientInv s) (hsettled : s.main.settled = true)
    (hstarting : s.main.starting = false) (hs : mainStep s answer = some s') : ClientInv s' := by
  have hstate := h.settled hsettled
  have hend : s.main.atEnd = false := by
    cases hpc : s.main with
    | disconnect atEnd pc =>
        cases atEnd <;> simp_all [MainPc.atEnd, MainPc.settled, MainPc.starting]
    | _ => simp_all [MainPc.atEnd, MainPc.settled, MainPc.starting]
  have hquiet : ∀ {pc : MainPc} (stop : Bool) (attempt : Nat),
      (∀ pc', pc = .disconnect false pc' → pc' = .test ∧ s.mState = .disconnected) →
      ClientInv { s with main := pc, mStopRequested := stop, reconnectAttempt := attempt } := by
    intro pc stop attempt hlost
    refine h.quiet stop attempt hstate hlost hend ?_
    cases hpc : s.main <;> simp_all [MainPc.settled, MainPc.holdsSocket]
  cases hpc : s.main with
  | outerStop =>
      simp only [mainStep, hpc, Option.some.injEq] at hs
      subst hs
      exact hquiet s.mStopRequested s.reconnectAttempt (by split <;> simp)
  | outerConnected =>
      simp only [mainStep, hpc, Option.some.injEq] at hs
      subst hs
      refine hquiet s.mStopRequested s.reconnectAttempt ?_
      split
      · simp
      · split <;> simp
  | delayed =>
      simp only [mainStep, hpc, Option.some.injEq] at hs
      subst hs
      exact hquiet s.mStopRequested s.reconnectAttempt (by split <;> simp)
  | connectTest =>
      simp only [mainStep, hpc, Option.some.injEq] at hs
      subst hs
      split
      · exact hquiet s.mStopRequested s.reconnectAttempt (by simp)
      · exact hquiet s.mStopRequested _ (by split <;> simp)
  | resetStop =>
      simp only [mainStep, hpc, Option.some.injEq] at hs
      subst hs
      exact hquiet false s.reconnectAttempt (by simp)
  | storeConnecting =>
      simp only [mainStep, hpc, Option.some.injEq] at hs
      subst hs
      exact {
        settled := by simp [MainPc.settled, MainPc.starting]
        lost := by simp
        buffer := fun hw _ => h.buffer hw hend
        sockets := fun hw _ k hk => by
          have howns := (h.sockets hw hend k hk).2
          simp [hpc, MainPc.holdsSocket, MainPc.starting] at howns }
  | innerStop =>
      simp only [mainStep, hpc, Option.some.injEq] at hs
      subst hs
      exact hquiet s.mStopRequested s.reconnectAttempt (by split <;> simp)
  | innerConnected =>
      simp only [mainStep, hpc, Option.some.injEq] at hs
      subst hs
      exact hquiet s.mStopRequested s.reconnectAttempt (by split <;> simp)
  | poll =>
      simp only [mainStep, hpc, Option.some.injEq] at hs
      subst hs
      split
      · exact hquiet true s.reconnectAttempt (by simp)
      · exact hquiet s.mStopRequested s.reconnectAttempt (by simp)
  | lostStop =>
      simp only [mainStep, hpc, Option.some.injEq] at hs
      subst hs
      exact hquiet s.mStopRequested s.reconnectAttempt (by split <;> simp)
  | lostConnected =>
      simp only [mainStep, hpc, Option.some.injEq] at hs
      subst hs
      refine hquiet s.mStopRequested s.reconnectAttempt fun pc' hpc' => ?_
      split at hpc'
      · cases hpc'
      next hoff =>
        cases hpc'
        -- The worker has stored `Disconnected`, so `Disconnect` will find nothing to do.
        refine ⟨rfl, hstate.resolve_right fun hactive => hoff ?_⟩
        rw [hactive]
        rfl
  | disconnect atEnd pc =>
      simp only [mainStep, hpc] at hs
      exact h.disconnect hpc hs
  | _ => simp_all [MainPc.settled, MainPc.starting]

/-- Every step of `main` keeps the invariant. -/
theorem ClientInv.main {answer : Answer} (h : ClientInv s) (hs : mainStep s answer = some s') :
    ClientInv s' := by
  cases hstarting : s.main.starting with
  | true => exact h.startStep hstarting hs
  | false =>
      cases hsettled : s.main.settled with
      | true => exact h.loopStep hsettled hstarting hs
      | false =>
          cases hend : s.main.atEnd with
          | false => exact h.connectStep hsettled hend hs
          | true =>
              cases hpc : s.main with
              | disconnect atEnd pc =>
                  simp only [mainStep, hpc] at hs
                  exact h.disconnect hpc hs
              | destroy =>
                  simp only [mainStep, hpc, Option.some.injEq] at hs
                  subst hs
                  split
                  · exact clientInv_of_atEnd rfl
                  · exact clientInv_of_atEnd rfl
              | exited => simp [mainStep, hpc] at hs
              | terminated => simp [mainStep, hpc] at hs
              | _ => simp [hpc, MainPc.atEnd] at hend

/-- What a step of the worker does to `mState`, and where it leaves the threads. -/
theorem workerStep_spec {due : Bool} {answers : List (Recv UInt8)}
    (hs : workerStep s due answers = some s') :
    s'.worker ≠ .none ∧ s'.main = s.main ∧
      (s'.mState = s.mState ∨ s'.mState = .disconnected) := by
  cases hpc : s.worker with
  | none => simp [workerStep, hpc] at hs
  | stopTest =>
      simp only [workerStep, hpc, Option.some.injEq] at hs
      subst hs
      exact ⟨by simp only; split <;> simp, rfl, .inl rfl⟩
  | stateTest =>
      simp only [workerStep, hpc, Option.some.injEq] at hs
      subst hs
      exact ⟨by simp only; split <;> simp, rfl, .inl rfl⟩
  | ping =>
      simp only [workerStep, hpc, Option.some.injEq] at hs
      subst hs
      split
      · split
        · exact ⟨by simp, rfl, .inl rfl⟩
        · exact ⟨by simp, rfl, .inl rfl⟩
      · exact ⟨by simp, rfl, .inl rfl⟩
  | recv =>
      simp only [workerStep, hpc, Option.some.injEq] at hs
      subst hs
      exact ⟨by simp only; split <;> simp, rfl, .inl rfl⟩
  | store =>
      simp only [workerStep, hpc, Option.some.injEq] at hs
      subst hs
      exact ⟨by simp, rfl, .inr rfl⟩
  | ended => simp [workerStep, hpc] at hs

/-- A worker that is there changes nothing that the invariant asks before the first. -/
theorem ClientInv.worker {due : Bool} {answers : List (Recv UInt8)} (h : ClientInv s)
    (hs : workerStep s due answers = some s') : ClientInv s' := by
  obtain ⟨hworker, hmain, hstate⟩ := workerStep_spec hs
  exact {
    settled := fun hsettled => by
      rw [hmain] at hsettled
      rcases hstate with hstate | hstate
      · rw [hstate]
        exact h.settled hsettled
      · exact .inl hstate
    lost := fun pc hpc => by
      rw [hmain] at hpc
      refine ⟨(h.lost pc hpc).1, ?_⟩
      rcases hstate with hstate | hstate
      · rw [hstate]
        exact (h.lost pc hpc).2
      · exact hstate
    buffer := fun hw => absurd hw hworker
    sockets := fun hw => absurd hw hworker }

/-- Every step keeps the invariant. -/
theorem ClientInv.step {a : Act} (h : ClientInv s) (hs : TestClient.step s a = some s') :
    ClientInv s' := by
  simp only [TestClient.step] at hs
  split at hs
  · cases hs
  · cases a with
    | main answer => exact h.main hs
    | worker due answers => exact h.worker hs
    | signal =>
        cases hs
        exact { h with }

/-! ## Runs -/

theorem not_starting_retry : s.retry.main.starting = false := by
  simp only [Client.retry]
  split <;> rfl

theorem not_starting_connectFailed : s.connectFailed.main.starting = false := not_starting_retry

theorem not_starting_disconnected {atEnd : Bool} :
    (s.disconnected atEnd).main.starting = false := by
  cases atEnd with
  | false => exact not_starting_retry
  | true => rfl

theorem not_starting_disconnect {atEnd : Bool} {pc : DisconnectPc}
    (hs : disconnectStep s atEnd pc = some s') : s'.main.starting = false := by
  cases pc with
  | test =>
      simp only [disconnectStep, Option.some.injEq] at hs
      subst hs
      split
      · exact not_starting_disconnected
      · rfl
  | store =>
      cases hs
      rfl
  | stop =>
      cases hs
      rfl
  | join =>
      simp only [disconnectStep] at hs
      split at hs
      · cases hs
        rfl
      · cases hs
  | close =>
      cases hs
      exact not_starting_disconnected

/-- The handshake leads to `Start` by the step that accepts. -/
theorem handshake_starting {n : Nat} {answer : Answer} (hpc : s.main = .handshake n)
    (hstarting : (handshakeStep s n answer).main.starting = true) :
    accepts s (.main answer) = true ∧
      handshakeStep s n answer = { s with mState := .sessionActive, main := .startTest } := by
  have hs : s.main.starting = false := by rw [hpc]; rfl
  have hfailed : s.connectFailed.main.starting = false := not_starting_connectFailed
  simp only [handshakeStep] at hstarting ⊢
  by_cases hn : n < connectResSize
  · rw [if_pos hn] at hstarting
    split at hstarting
    · simp [hs] at hstarting
    · simp [hfailed] at hstarting
    · simp [hfailed] at hstarting
    · cases hstarting
    · split at hstarting
      · simp [hs] at hstarting
      · simp [hfailed] at hstarting
  · rw [if_neg hn] at hstarting ⊢
    split at hstarting
    · exact ⟨by simpa [accepts, hpc] using hn, rfl⟩
    · simp [hfailed] at hstarting

/-- How `main` gets to `Start`, and on in it. -/
theorem starting_cases {answer : Answer} (hs : mainStep s answer = some s')
    (hstarting : s'.main.starting = true) :
    (accepts s (.main answer) = true ∧
      s' = { s with mState := .sessionActive, main := .startTest }) ∨
    s.main.starting = true ∧ s'.worker = s.worker ∧ s'.mRecvBuffer = s.mRecvBuffer ∧
      s'.mSocket = s.mSocket ∧ s'.openSockets = s.openSockets := by
  cases hpc : s.main with
  | handshake n =>
      simp only [mainStep, hpc, Option.some.injEq] at hs
      subst hs
      exact .inl (handshake_starting hpc hstarting)
  | startTest =>
      simp only [mainStep, hpc, Option.some.injEq] at hs
      subst hs
      exact .inr ⟨rfl, rfl, rfl, rfl, rfl⟩
  | startReset =>
      simp only [mainStep, hpc, Option.some.injEq] at hs
      subst hs
      exact .inr ⟨rfl, rfl, rfl, rfl, rfl⟩
  | disconnect atEnd pc =>
      simp only [mainStep, hpc] at hs
      simp [not_starting_disconnect hs] at hstarting
  | exited => simp [mainStep, hpc] at hs
  | terminated => simp [mainStep, hpc] at hs
  | _ =>
      -- `main` is before the handshake or behind `Start`, and one step does not get there.
      simp only [mainStep, hpc, Option.some.injEq] at hs
      grind [MainPc.starting, not_starting_retry, not_starting_connectFailed]

/-- `Connect` returns true when the whole response is there. -/
theorem accepts_cases {a : Act} (haccepts : accepts s a = true) :
    ∃ n, a = .main .ok ∧ s.main = .handshake n ∧ ¬ n < connectResSize := by
  cases a with
  | main answer =>
      cases answer with
      | ok =>
          cases hpc : s.main with
          | handshake n => exact ⟨n, rfl, rfl, by simpa [accepts, hpc] using haccepts⟩
          | _ => simp [accepts, hpc] at haccepts
      | failed => cases haccepts
      | received bytes => cases haccepts
      | wouldBlock elapsedMs => cases haccepts
  | worker due answers => cases haccepts
  | signal => cases haccepts

/-- The first step by which `Connect` returns true leaves a clean start. -/
theorem Clean.step {a : Act} (hI : ClientInv s) (h : Clean s) (hok : firstConnection s a)
    (hs : TestClient.step s a = some s') : Clean s' := by
  intro hstarting
  simp only [TestClient.step] at hs
  split at hs
  · cases hs
  cases a with
  | main answer =>
      rcases starting_cases hs hstarting with ⟨haccepts, rfl⟩ | ⟨hbefore, hw, hb, hm, ho⟩
      · have hw := hok haccepts
        obtain ⟨n, -, hpc, -⟩ := accepts_cases haccepts
        have hend : s.main.atEnd = false := by rw [hpc]; rfl
        refine ⟨hw, ?_, fun k hk => (hI.sockets hw hend k hk).1⟩
        simp [hI.buffer hw hend]
      · rw [hw, hb, hm, ho]
        exact h hbefore
  | worker due answers =>
      rw [(workerStep_spec hs).2.1] at hstarting
      simp [workerStep, (h hstarting).1] at hs
  | signal =>
      cases hs
      exact h hstarting

/-- `Connect` returns true with an earlier worker that has not been joined. -/
theorem not_clean_of_worker {a : Act} (hno : ¬ firstConnection s a)
    (hs : TestClient.step s a = some s') : ¬ Clean s' := by
  simp only [firstConnection, Classical.not_imp] at hno
  obtain ⟨haccepts, hw⟩ := hno
  obtain ⟨n, rfl, hpc, hn⟩ := accepts_cases haccepts
  simp only [TestClient.step, hpc, mainStep, handshakeStep, if_neg hn] at hs
  simp only [reduceCtorEq, or_self, if_false, Option.some.injEq] at hs
  subst hs
  exact fun hclean => hw (hclean rfl).1

/-- In every state of a run the start is clean, just if `Connect` returns true only before
the first worker. -/
theorem clean_iff_firstConnection {mMaxPings : Nat} {as : List Act}
    (hrun : Machine.run TestClient.step (.init mMaxPings) as = some s) :
    Machine.Always TestClient.step Clean (.init mMaxPings) as ↔
      Machine.Meets TestClient.step firstConnection (.init mMaxPings) as :=
  Machine.always_iff_meets (I := ClientInv) (fun _ _ _ h hs => h.step hs)
    (fun _ _ _ hI h hok hs => h.step hI hok hs) (fun _ _ _ _ hno hs => not_clean_of_worker hno hs)
    (clientInv_init mMaxPings) (fun hstarting => by cases hstarting) hrun

end

/-- `Connect` returns true, and the worker is started. -/
def connectTrace : List Act :=
  List.flatten [List.replicate 10 (.main .ok), [.main (.received 17)], List.replicate 4 (.main .ok)]

/-- The server refuses the first attempt.  The second one succeeds, and the worker receives a
part of a packet. -/
def refusedTrace : List Act :=
  List.flatten
    [List.replicate 7 (.main .ok), [.main .failed, .main .ok], connectTrace,
      List.replicate 3 (.worker false []), [.worker false [.data 16 [0, 7]]]]

theorem clean_refusedTrace :
    ∃ s, Machine.run step (.init 0) refusedTrace = some s ∧ s.mState = .sessionActive ∧
      s.openSockets = [1] ∧ s.mRecvBuffer = [⟨1, 16⟩, ⟨1, 0⟩, ⟨1, 7⟩] ∧
      Machine.Always step Clean (.init 0) refusedTrace :=
  ⟨_, rfl, rfl, rfl, rfl, (@clean_iff_firstConnection _ 0 refusedTrace rfl).mpr (by decide)⟩

/-- The server closes the connection within a packet.  The worker ends, and the client
connects again. -/
def lostTrace : List Act :=
  List.flatten
    [connectTrace, List.replicate 3 (.worker false []), [.worker false [.data 16 [0, 7]]],
      List.replicate 3 (.worker false []), [.worker false [.closed]],
      List.replicate 3 (.worker false []), List.replicate 16 (.main .ok),
      [.main (.received 17), .main .ok]]

/-- The bytes of the lost connection are still in the stream, its socket is open, and its
worker is joinable.  Assigning the new thread ends the process. -/
theorem not_clean_lostTrace :
    ∃ s, Machine.run step (.init 0) lostTrace = some s ∧ s.main = .startTest ∧
      s.mSocket = some 1 ∧ s.mRecvBuffer = [⟨0, 16⟩, ⟨0, 0⟩, ⟨0, 7⟩] ∧ s.openSockets = [0, 1] ∧
      s.worker = .ended ∧ ¬ Clean s ∧
      (Machine.run step s (List.replicate 3 (.main .ok))).map Client.main = some .terminated :=
  ⟨_, rfl, rfl, rfl, rfl, rfl, rfl, by decide, rfl⟩

end NetworkModule.TestClient
