import NetworkModule.TestServer.DBLink

/-!
# Who reconnects

While the server runs and has no connection to the DB server, somebody has to be about to
get one: the thread that lost the connection, before its check, or a reconnect loop.

The thread that lost the connection leaves the matter to a reconnect loop if
`mDBReconnectRunning` is set.  But a loop that has just connected still has the flag set
until it clears it and ends.  If the new connection is lost before that, the thread sees
the flag, and the loop does not look again.  `supervised_iff_flagClear` says that this is
the only way to stay without a connection.
-/

namespace NetworkModule.TestServer.DBLink

/-! ## The promise -/

/-- The thread has not evaluated its check. -/
def RecvPc.beforeCheck : RecvPc → Bool
  | .head | .recv | .store | .runningTest | .reconnectTest => true
  | _ => false

/-- The check was positive, and the thread is starting a reconnect loop. -/
def RecvPc.starting : RecvPc → Bool
  | .set | .join | .spawn => true
  | _ => false

/-- The reconnect loop will test its condition or has an attempt under way. -/
def ReconnectPc.active : ReconnectPc → Bool
  | .runningTest | .dbRunningTest | .wait | .wakeTest => true
  | .connecting pc => pc ≠ .spawn
  | _ => false

/-- A server that runs and has lost its connection gets a new one. -/
def Supervised (s : Link) : Prop :=
  s.mIsRunning = true → s.conns ≠ [] → s.mDBRunning = false →
    s.recv.beforeCheck = true ∨ s.recv.starting = true ∨ s.reconnect.active = true

/-- The check of a running server does not find `mDBReconnectRunning` set. -/
def flagClear (s : Link) : Act → Bool
  | .recv _ => s.recv ≠ .reconnectTest || !s.mDBReconnectRunning || !s.mIsRunning
  | _ => true

/-! ## Invariants -/

/-- The thread runs. -/
def RecvPc.alive : RecvPc → Bool
  | .none | .ended => false
  | _ => true

/-- The thread runs. -/
def ReconnectPc.alive : ReconnectPc → Bool
  | .none | .ended => false
  | _ => true

/-- `Stop` has cleared `mIsRunning`. -/
def MainPc.stopping : MainPc → Bool
  | .connecting _ | .up | .store => false
  | _ => true

/-- What holds of the threads and the flags. -/
structure LinkInv (s : Link) : Prop where
  flag : s.mDBReconnectRunning = (s.recv = .join || s.recv = .spawn || s.reconnect.alive)
  /-- A loop that runs beside a receiving thread has just connected it. -/
  apart : s.recv.alive = true →
    s.reconnect = .none ∨ s.reconnect = .ended ∨ s.reconnect = .clear
  /-- A loop is started when the old one has ended. -/
  starting : s.recv.starting = true → s.reconnect.alive = false
  up : s.mDBRunning = true → s.recv = .head ∨ s.recv = .recv ∨ s.recv = .store ∨
    s.reconnect = .connecting .spawn ∨ s.main = .connecting .spawn
  first : ∀ pc, s.main = .connecting pc → s.recv = .none ∧ s.reconnect = .none
  connected : s.recv ≠ .none ∨ s.reconnect ≠ .none ∨ s.main = .connecting .spawn → s.conns ≠ []
  spawning : s.mIsRunning = true →
    s.reconnect = .connecting .spawn ∨ s.main = .connecting .spawn → s.mDBRunning = true
  stopping : s.main.stopping = true → s.mIsRunning = false

theorem linkInv_init : LinkInv {} where
  flag := rfl
  apart := by simp [RecvPc.alive]
  starting := by simp [RecvPc.starting]
  up := by simp
  first := fun pc _ => ⟨rfl, rfl⟩
  connected := by simp
  spawning := by simp
  stopping := by simp [MainPc.stopping]

section
variable {s s' : Link}

/-- Receiving changes no flag and no thread. -/
theorem LinkInv.receive (h : LinkInv s) (chunk : List UInt8) : LinkInv (receive s chunk) where
  flag := h.flag
  apart := h.apart
  starting := h.starting
  up := h.up
  first := h.first
  connected := fun hc hnil => h.connected hc (by simpa [DBLink.receive] using hnil)
  spawning := h.spawning
  stopping := h.stopping

/-- The receiving thread moves on, and does not come to start a loop. -/
theorem LinkInv.recvMove (h : LinkInv s) {pc : RecvPc} (halive : s.recv.alive = true)
    (hold : s.recv ≠ .join ∧ s.recv ≠ .spawn) (hnew : pc ≠ .join ∧ pc ≠ .spawn)
    (hup : s.mDBRunning = true → pc = .head ∨ pc = .recv ∨ pc = .store)
    (hset : pc = .set → s.reconnect.alive = false) : LinkInv { s with recv := pc } where
  flag := by simpa [hold, hnew] using h.flag
  apart := fun _ => h.apart halive
  starting := fun hst => by
    cases pc <;> simp [RecvPc.starting] at hst hnew
    exact hset rfl
  up := fun hr => by
    rcases hup hr with rfl | rfl | rfl <;> simp
  first := fun m hm => by simp [(h.first m hm).1, RecvPc.alive] at halive
  connected := fun _ => h.connected (.inl fun hn => by simp [hn, RecvPc.alive] at halive)
  spawning := h.spawning
  stopping := h.stopping

/-- While a thread receives, nobody else is at the start of one. -/
theorem LinkInv.notSpawning (h : LinkInv s) (halive : s.recv.alive = true) :
    s.reconnect ≠ .connecting .spawn ∧ ∀ pc, s.main ≠ .connecting pc := by
  refine ⟨fun hs => ?_, fun pc hm => ?_⟩
  · have hapart := h.apart halive
    simp [hs] at hapart
  · simp [(h.first pc hm).1, RecvPc.alive] at halive

/-- A thread past its loop has no connection. -/
theorem LinkInv.down (h : LinkInv s) (halive : s.recv.alive = true)
    (hpast : s.recv ≠ .head ∧ s.recv ≠ .recv ∧ s.recv ≠ .store) : s.mDBRunning = false := by
  by_contra hup
  have hn := h.notSpawning halive
  have hcases := h.up (by simpa using hup)
  simp [hpast, hn] at hcases

theorem LinkInv.recv {answer : RecvAnswer} (h : LinkInv s) (hs : recvStep s answer = some s') :
    LinkInv s' := by
  cases hpc : s.recv with
  | none | ended => simp [recvStep, hpc] at hs
  | head =>
      simp only [recvStep, hpc, Option.some.injEq] at hs
      subst hs
      refine h.recvMove (by rw [hpc]; rfl) (by simp [hpc]) (by split <;> simp) (fun hr => ?_)
        (by split <;> simp)
      simp [hr]
  | recv =>
      cases answer with
      | data chunk =>
          simp only [recvStep, hpc] at hs
          split at hs
          · cases hs
            have hkeep : (DBLink.receive s chunk).recv = .recv := hpc
            exact (h.receive chunk).recvMove (by rw [hkeep]; rfl) (by simp [hkeep]) (by simp)
              (fun _ => .inl rfl) (by simp)
          · cases hs
      | lost =>
          simp only [recvStep, hpc, Option.some.injEq] at hs
          subst hs
          exact h.recvMove (by rw [hpc]; rfl) (by simp [hpc]) (by simp)
            (fun _ => .inr (.inr rfl)) (by simp)
      | interrupted =>
          simp only [recvStep, hpc, Option.some.injEq] at hs
          subst hs
          exact h.recvMove (by rw [hpc]; rfl) (by simp [hpc]) (by simp) (fun _ => .inl rfl) (by simp)
  | store =>
      simp only [recvStep, hpc, Option.some.injEq] at hs
      subst hs
      have halive : s.recv.alive = true := by rw [hpc]; rfl
      have hn := h.notSpawning halive
      have hdown : LinkInv { s with mDBRunning := false } :=
        { h with
          up := fun hr => by cases hr
          spawning := fun _ hsp => by simp [hn] at hsp }
      exact hdown.recvMove halive (by simp [hpc]) (by simp) (fun hr => by cases hr) (by simp)
  | runningTest =>
      simp only [recvStep, hpc, Option.some.injEq] at hs
      subst hs
      have halive : s.recv.alive = true := by rw [hpc]; rfl
      have hdown := h.down halive (by simp [hpc])
      exact h.recvMove halive (by simp [hpc]) (by split <;> simp)
        (fun hr => by simp [hdown] at hr) (by split <;> simp)
  | reconnectTest =>
      simp only [recvStep, hpc, Option.some.injEq] at hs
      subst hs
      have halive : s.recv.alive = true := by rw [hpc]; rfl
      have hdown := h.down halive (by simp [hpc])
      refine h.recvMove halive (by simp [hpc]) (by split <;> simp)
        (fun hr => by simp [hdown] at hr) fun hset => ?_
      -- The flag is not set, so no loop runs.
      have hflag : s.mDBReconnectRunning = false := by
        by_contra hf
        simp [hf] at hset
      rw [h.flag] at hflag
      simp at hflag
      exact hflag.2
  | set =>
      simp only [recvStep, hpc, Option.some.injEq] at hs
      subst hs
      have halive : s.recv.alive = true := by rw [hpc]; rfl
      have hdown := h.down halive (by simp [hpc])
      exact {
        flag := by simp
        apart := fun _ => h.apart halive
        starting := fun _ => h.starting (by rw [hpc]; rfl)
        up := fun hr => by simp [hdown] at hr
        first := fun pc hm => absurd hm ((h.notSpawning halive).2 pc)
        connected := fun _ => h.connected (.inl (by simp [hpc]))
        spawning := h.spawning
        stopping := h.stopping }
  | join =>
      simp only [recvStep, hpc] at hs
      split at hs
      next hold =>
        cases hs
        have halive : s.recv.alive = true := by rw [hpc]; rfl
        have hdown := h.down halive (by simp [hpc])
        have hflag : s.mDBReconnectRunning = true := by rw [h.flag]; simp [hpc]
        exact {
          flag := by simp [hflag]
          apart := fun _ => .inl rfl
          starting := fun _ => rfl
          up := fun hr => by simp [hdown] at hr
          first := fun pc hm => absurd hm ((h.notSpawning halive).2 pc)
          connected := fun _ => h.connected (.inl (by simp [hpc]))
          spawning := fun _ hsp => absurd (hsp.resolve_left (by simp)) ((h.notSpawning halive).2 _)
          stopping := h.stopping }
      · cases hs
  | spawn =>
      simp only [recvStep, hpc, Option.some.injEq] at hs
      subst hs
      have halive : s.recv.alive = true := by rw [hpc]; rfl
      have hdown := h.down halive (by simp [hpc])
      have hflag : s.mDBReconnectRunning = true := by rw [h.flag]; simp [hpc]
      exact {
        flag := by simp [hflag, ReconnectPc.alive]
        apart := fun hal => by simp [RecvPc.alive] at hal
        starting := fun hst => by simp [RecvPc.starting] at hst
        up := fun hr => by simp [hdown] at hr
        first := fun pc hm => absurd hm ((h.notSpawning halive).2 pc)
        connected := fun _ => h.connected (.inl (by simp [hpc]))
        spawning := fun _ hsp => absurd (hsp.resolve_left (by simp)) ((h.notSpawning halive).2 _)
        stopping := h.stopping }

/-- Beside a loop that has not connected, nobody receives, and there is no connection. -/
theorem LinkInv.searching (h : LinkInv s) (halive : s.reconnect.alive = true)
    (hne : s.reconnect ≠ .clear) : s.recv.alive = false ∧ (∀ pc, s.main ≠ .connecting pc) ∧
      (s.reconnect ≠ .connecting .spawn → s.mDBRunning = false) := by
  have hrecv : s.recv.alive = false := by
    by_contra hal
    rcases h.apart (by simpa using hal) with hc | hc | hc
    · simp [hc, ReconnectPc.alive] at halive
    · simp [hc, ReconnectPc.alive] at halive
    · exact hne hc
  have hmain : ∀ pc, s.main ≠ .connecting pc := fun pc hm => by
    simp [(h.first pc hm).2, ReconnectPc.alive] at halive
  refine ⟨hrecv, hmain, fun hsp => ?_⟩
  by_contra hup
  rcases h.up (by simpa using hup) with hr | hr | hr | hr | hr
  · simp [hr, RecvPc.alive] at hrecv
  · simp [hr, RecvPc.alive] at hrecv
  · simp [hr, RecvPc.alive] at hrecv
  · exact hsp hr
  · exact hmain _ hr

/-- The loop moves on before it has connected. -/
theorem LinkInv.reconnectMove (h : LinkInv s) {pc : ReconnectPc} (halive : s.reconnect.alive = true)
    (hold : s.reconnect ≠ .clear ∧ s.reconnect ≠ .connecting .spawn) (hnew : pc.alive = true)
    (hsp : pc ≠ .connecting .spawn) : LinkInv { s with reconnect := pc } := by
  obtain ⟨hrecv, hmain, hdown⟩ := h.searching halive hold.1
  have hcon : s.conns ≠ [] := h.connected (.inr (.inl fun hn => by
    simp [hn, ReconnectPc.alive] at halive))
  exact {
    flag := by
      have hflag := h.flag
      rw [halive] at hflag
      simpa [hnew] using hflag
    apart := fun hal => by simp [hrecv] at hal
    starting := fun hst => by
      cases hr : s.recv <;> simp [hr, RecvPc.alive, RecvPc.starting] at hrecv hst
    up := fun hr => by simp [hdown hold.2] at hr
    first := fun m hm => absurd hm (hmain m)
    connected := fun _ => hcon
    spawning := fun _ hor => by
      rcases hor with hc | hm
      · exact absurd hc hsp
      · exact absurd hm (hmain _)
    stopping := h.stopping }

theorem LinkInv.reconnect {answer : ConnectAnswer} (h : LinkInv s)
    (hs : reconnectStep s answer = some s') : LinkInv s' := by
  cases hpc : s.reconnect with
  | none | ended => simp [reconnectStep, hpc] at hs
  | runningTest | dbRunningTest | wait | wakeTest =>
      simp only [reconnectStep, hpc, Option.some.injEq] at hs
      subst hs
      refine h.reconnectMove (by rw [hpc]; rfl) (by simp [hpc]) ?_ ?_ <;>
        first | rfl | (split <;> simp [ReconnectPc.alive]) | simp
  | clear =>
      simp only [reconnectStep, hpc, Option.some.injEq] at hs
      subst hs
      have hcon : s.conns ≠ [] := h.connected (.inr (.inl (by simp [hpc])))
      have hstart : s.recv.starting = false := by
        by_contra hst
        have := h.starting (by simpa using hst)
        simp [hpc, ReconnectPc.alive] at this
      have hjoin : s.recv ≠ .join ∧ s.recv ≠ .spawn := by
        refine ⟨fun hr => ?_, fun hr => ?_⟩ <;> simp [hr, RecvPc.starting] at hstart
      exact {
        flag := by simp [hjoin, ReconnectPc.alive]
        apart := fun _ => .inr (.inl rfl)
        starting := fun _ => rfl
        up := fun hr => by simpa [hpc] using h.up hr
        first := fun m hm => absurd (h.first m hm).2 (by simp [hpc])
        connected := fun _ => hcon
        spawning := fun hrun hor => h.spawning hrun (.inr (hor.resolve_left (by simp)))
        stopping := h.stopping }
  | connecting cpc =>
      have halive : s.reconnect.alive = true := by rw [hpc]; rfl
      have hclear : s.reconnect ≠ .clear := by simp [hpc]
      obtain ⟨hrecv, hmain, hdown⟩ := h.searching halive hclear
      have hcon : s.conns ≠ [] := h.connected (.inr (.inl (by simp [hpc])))
      have hflag : s.mDBReconnectRunning = true := by
        rw [h.flag, halive]
        simp
      have hstop : s.main.stopping = true → s.mIsRunning = false := h.stopping
      cases cpc with
      | test =>
          have hoff : ¬ s.mDBRunning = true := by simp [hdown (by simp [hpc])]
          simp only [reconnectStep, hpc, connectStep, if_neg hoff, Option.map_some,
            Option.some.injEq] at hs
          subst hs
          exact h.reconnectMove halive (by simp [hpc]) rfl (by simp)
      | join =>
          simp only [reconnectStep, hpc, connectStep] at hs
          split at hs
          · simp only [Option.map_some, Option.some.injEq] at hs
            subst hs
            have hoff := hdown (by simp [hpc])
            exact {
              flag := by simp [hflag, ReconnectPc.alive]
              apart := fun hal => by simp [RecvPc.alive] at hal
              starting := fun hst => by simp [RecvPc.starting] at hst
              up := fun hr => by simp [hoff] at hr
              first := fun m hm => absurd hm (hmain m)
              connected := fun _ => hcon
              spawning := fun _ hor => by
                rcases hor with hc | hm
                · simp at hc
                · exact absurd hm (hmain _)
              stopping := hstop }
          · cases hs
      | openSocket =>
          have hkeep : ∀ e, LinkInv { s with mLastDBConnectError := e } := fun e => { h with }
          cases answer with
          | ok =>
              simp only [reconnectStep, hpc, connectStep, Option.map_some, Option.some.injEq] at hs
              subst hs
              exact (hkeep 0).reconnectMove halive (by simp [hpc]) rfl (by simp)
          | invalidAddress =>
              simp only [reconnectStep, hpc, connectStep, Option.map_some, Option.some.injEq] at hs
              subst hs
              have hmove : LinkInv { s with reconnect := .runningTest } :=
                h.reconnectMove halive (by simp [hpc]) rfl (by simp)
              exact { hmove with }
          | failed error =>
              simp only [reconnectStep, hpc, connectStep, Option.map_some, Option.some.injEq] at hs
              subst hs
              have hmove : LinkInv { s with mLastDBConnectError := error, reconnect := .runningTest } :=
                (hkeep error).reconnectMove halive (by simp [hpc]) rfl (by simp)
              exact { hmove with }
      | store =>
          simp only [reconnectStep, hpc, connectStep, Option.map_some, Option.some.injEq] at hs
          subst hs
          exact {
            flag := by simp [hflag, ReconnectPc.alive]
            apart := fun hal => by simp [hrecv] at hal
            starting := fun hst => by
              cases hr : s.recv <;> simp [hr, RecvPc.alive, RecvPc.starting] at hrecv hst
            up := fun _ => by simp
            first := fun m hm => absurd hm (hmain m)
            connected := fun _ => by simp
            spawning := fun _ _ => rfl
            stopping := hstop }
      | spawn =>
          simp only [reconnectStep, hpc, connectStep, Option.map_some, Option.some.injEq] at hs
          subst hs
          exact {
            flag := by simp [hflag, ReconnectPc.alive]
            apart := fun _ => .inr (.inr rfl)
            starting := fun hst => by simp [RecvPc.starting] at hst
            up := fun _ => .inl rfl
            first := fun m hm => absurd hm (hmain m)
            connected := fun _ => hcon
            spawning := fun _ hor => by
              rcases hor with hc | hm
              · simp at hc
              · exact absurd hm (hmain _)
            stopping := hstop }

theorem LinkInv.main {answer : ConnectAnswer} (h : LinkInv s) (hs : mainStep s answer = some s') :
    LinkInv s' := by
  cases hpc : s.main with
  | connecting cpc =>
      obtain ⟨hrecv, hrec⟩ := h.first cpc hpc
      have hflag : s.mDBReconnectRunning = false := by
        rw [h.flag, hrecv, hrec]
        rfl
      have hup : cpc ≠ .spawn → s.mDBRunning = false := fun hne => by
        by_contra hr
        have hcases := h.up (by simpa using hr)
        simp [hrecv, hrec, hpc, hne] at hcases
      -- As long as there is no connection, only the place of `main` changes.
      have hmove : ∀ (m : MainPc) (e : Nat), s.mDBRunning = false → m ≠ .connecting .spawn →
          m.stopping = false → LinkInv { s with main := m, mLastDBConnectError := e } :=
        fun m e hdown hsp hst => {
          flag := h.flag
          apart := h.apart
          starting := h.starting
          up := fun hr => by simp [hdown] at hr
          first := fun _ _ => ⟨hrecv, hrec⟩
          connected := fun hor => by simp [hrecv, hrec, hsp] at hor
          spawning := fun _ hor => by simp [hrec, hsp] at hor
          stopping := fun hst' => by simp [hst] at hst' }
      cases cpc with
      | test =>
          have hoff : ¬ s.mDBRunning = true := by simp [hup (by simp)]
          simp only [mainStep, hpc, connectStep, if_neg hoff, Option.map_some,
            Option.some.injEq] at hs
          subst hs
          exact hmove _ s.mLastDBConnectError (hup (by simp)) (by simp) rfl
      | join =>
          simp only [mainStep, hpc, connectStep] at hs
          split at hs
          · simp only [Option.map_some, Option.some.injEq] at hs
            subst hs
            have hm := hmove (.connecting .openSocket) s.mLastDBConnectError (hup (by simp)) (by simp)
              rfl
            have hsame : { s with main := .connecting .openSocket } =
                { s with main := .connecting .openSocket, recv := .none } := by
              simp [hrecv]
            rw [← hsame]
            exact hm
          · cases hs
      | openSocket =>
          cases answer with
          | ok =>
              simp only [mainStep, hpc, connectStep, Option.map_some, Option.some.injEq] at hs
              subst hs
              exact hmove _ 0 (hup (by simp)) (by simp) rfl
          | invalidAddress =>
              simp only [mainStep, hpc, connectStep, Option.map_some, Option.some.injEq] at hs
              subst hs
              exact hmove _ s.mLastDBConnectError (hup (by simp)) (by simp) rfl
          | failed error =>
              simp only [mainStep, hpc, connectStep, Option.map_some, Option.some.injEq] at hs
              subst hs
              exact hmove _ error (hup (by simp)) (by simp) rfl
      | store =>
          simp only [mainStep, hpc, connectStep, Option.map_some, Option.some.injEq] at hs
          subst hs
          exact {
            flag := h.flag
            apart := h.apart
            starting := h.starting
            up := fun _ => by simp
            first := fun _ _ => ⟨hrecv, hrec⟩
            connected := fun _ => by simp
            spawning := fun _ _ => rfl
            stopping := fun hst => by cases hst }
      | spawn =>
          simp only [mainStep, hpc, connectStep, Option.map_some, Option.some.injEq] at hs
          subst hs
          exact {
            flag := by simp [hflag, hrec, ReconnectPc.alive]
            apart := fun _ => .inl hrec
            starting := fun hst => by cases hst
            up := fun _ => .inl rfl
            first := fun _ hm => by cases hm
            connected := fun _ => h.connected (.inr (.inr hpc))
            spawning := fun _ hor => by simp [hrec] at hor
            stopping := fun hst => by cases hst }
  | up =>
      simp only [mainStep, hpc, Option.some.injEq] at hs
      subst hs
      exact { h with
        up := fun hr => by simpa [hpc] using h.up hr
        first := fun _ hm => by cases hm
        connected := fun hor => h.connected (hor.imp_right (.imp_right fun hm => by cases hm))
        spawning := fun hr hor => h.spawning hr (hor.imp_right fun hm => by cases hm)
        stopping := fun hst => by cases hst }
  | store =>
      simp only [mainStep, hpc, Option.some.injEq] at hs
      subst hs
      exact { h with
        up := fun hr => by simpa [hpc] using h.up hr
        first := fun _ hm => by cases hm
        connected := fun hor => h.connected (hor.imp_right (.imp_right fun hm => by cases hm))
        spawning := fun hr _ => by cases hr
        stopping := fun _ => rfl }
  | joinReconnect =>
      simp only [mainStep, hpc] at hs
      split at hs
      next hend =>
        cases hs
        have hoff := h.stopping (by rw [hpc]; rfl)
        have hdead : s.reconnect.alive = false := by
          rcases hend with he | he <;> rw [he] <;> rfl
        exact {
          flag := by rw [h.flag, hdead]; rfl
          apart := fun _ => .inl rfl
          starting := fun _ => rfl
          up := fun hr => by
            rcases hend with he | he <;> simpa [hpc, he] using h.up hr
          first := fun _ hm => by cases hm
          connected := fun hor => h.connected (.inl (hor.resolve_right (by simp)))
          spawning := fun hr _ => by simp [hoff] at hr
          stopping := fun _ => hoff }
      · cases hs
  | dbTest =>
      simp only [mainStep, hpc, Option.some.injEq] at hs
      subst hs
      have hoff := h.stopping (by rw [hpc]; rfl)
      have hne : ∀ cpc, (if s.mDBRunning = true then MainPc.dbStore else .stopped) ≠
          .connecting cpc := fun cpc => by split <;> simp
      exact { h with
        up := fun hr => by simpa [hpc, hne] using h.up hr
        first := fun cpc hm => absurd hm (hne cpc)
        connected := fun hor => h.connected (hor.imp_right (.imp_right fun hm => absurd hm (hne _)))
        spawning := fun hr _ => by simp [hoff] at hr
        stopping := fun _ => hoff }
  | dbStore =>
      simp only [mainStep, hpc, Option.some.injEq] at hs
      subst hs
      have hoff := h.stopping (by rw [hpc]; rfl)
      exact { h with
        up := fun hr => by cases hr
        first := fun _ hm => by cases hm
        connected := fun hor => h.connected (hor.imp_right (.imp_right fun hm => by cases hm))
        spawning := fun hr _ => by simp [hoff] at hr
        stopping := fun _ => hoff }
  | joinRecv =>
      simp only [mainStep, hpc] at hs
      split at hs
      next hend =>
        cases hs
        have hoff := h.stopping (by rw [hpc]; rfl)
        exact {
          flag := by
            rcases hend with he | he <;> simpa [he] using h.flag
          apart := fun hal => by cases hal
          starting := fun hst => by cases hst
          up := fun hr => by
            rcases hend with he | he <;> simpa [hpc, he] using h.up hr
          first := fun _ hm => by cases hm
          connected := fun hor => h.connected (.inr (.inl ((hor.resolve_left (by simp)).resolve_right
            (by simp))))
          spawning := fun hr _ => by simp [hoff] at hr
          stopping := fun _ => hoff }
      · cases hs
  | reset =>
      simp only [mainStep, hpc, Option.some.injEq] at hs
      subst hs
      have hoff := h.stopping (by rw [hpc]; rfl)
      exact { h with
        up := fun hr => by simpa [hpc] using h.up hr
        first := fun _ hm => by cases hm
        connected := fun hor => h.connected (hor.imp_right (.imp_right fun hm => by cases hm))
        spawning := fun hr _ => by simp [hoff] at hr
        stopping := fun _ => hoff }
  | stopped => simp [mainStep, hpc] at hs

/-- Every step keeps the invariant. -/
theorem LinkInv.step {a : Act} (h : LinkInv s) (hs : DBLink.step s a = some s') : LinkInv s' := by
  cases a with
  | main answer => exact h.main hs
  | recv answer => exact h.recv hs
  | reconnect answer => exact h.reconnect hs

/-! ## Supervision -/

theorem supervised_recv {answer : RecvAnswer} (hok : flagClear s (.recv answer) = true)
    (hs : recvStep s answer = some s') : Supervised s' := by
  cases hpc : s.recv with
  | none | ended => simp [recvStep, hpc] at hs
  | head =>
      simp only [recvStep, hpc, Option.some.injEq] at hs
      subst hs
      exact fun _ _ _ => .inl (by simp only; split <;> rfl)
  | recv =>
      cases answer with
      | data chunk =>
          simp only [recvStep, hpc] at hs
          split at hs
          · cases hs
            exact fun _ _ _ => .inl rfl
          · cases hs
      | lost | interrupted =>
          simp only [recvStep, hpc, Option.some.injEq] at hs
          subst hs
          exact fun _ _ _ => .inl rfl
  | store =>
      simp only [recvStep, hpc, Option.some.injEq] at hs
      subst hs
      exact fun _ _ _ => .inl rfl
  | runningTest =>
      simp only [recvStep, hpc, Option.some.injEq] at hs
      subst hs
      intro hrun _ _
      have hrun' : s.mIsRunning = true := hrun
      exact .inl (by simp only [if_pos hrun']; rfl)
  | reconnectTest =>
      simp only [recvStep, hpc, Option.some.injEq] at hs
      subst hs
      intro hrun _ _
      have hrun' : s.mIsRunning = true := hrun
      have hflag : ¬ s.mDBReconnectRunning = true := by
        intro hf
        simp [flagClear, hpc, hf, hrun'] at hok
      exact .inr (.inl (by simp only [if_neg hflag]; rfl))
  | set =>
      simp only [recvStep, hpc, Option.some.injEq] at hs
      subst hs
      exact fun _ _ _ => .inr (.inl rfl)
  | join =>
      simp only [recvStep, hpc] at hs
      split at hs
      · cases hs
        exact fun _ _ _ => .inr (.inl rfl)
      · cases hs
  | spawn =>
      simp only [recvStep, hpc, Option.some.injEq] at hs
      subst hs
      exact fun _ _ _ => .inr (.inr rfl)

theorem Supervised.reconnect {answer : ConnectAnswer} (h : Supervised s)
    (hs : reconnectStep s answer = some s') : Supervised s' := by
  cases hpc : s.reconnect with
  | none | ended => simp [reconnectStep, hpc] at hs
  | runningTest =>
      simp only [reconnectStep, hpc, Option.some.injEq] at hs
      subst hs
      intro hrun _ _
      have hrun' : s.mIsRunning = true := hrun
      exact .inr (.inr (by simp only [if_pos hrun']; rfl))
  | dbRunningTest =>
      simp only [reconnectStep, hpc, Option.some.injEq] at hs
      subst hs
      intro _ _ hdown
      have hdown' : ¬ s.mDBRunning = true := by
        simpa using hdown
      exact .inr (.inr (by simp only [if_neg hdown']; rfl))
  | wait =>
      simp only [reconnectStep, hpc, Option.some.injEq] at hs
      subst hs
      exact fun _ _ _ => .inr (.inr rfl)
  | wakeTest =>
      simp only [reconnectStep, hpc, Option.some.injEq] at hs
      subst hs
      intro hrun _ _
      have hrun' : s.mIsRunning = true := hrun
      exact .inr (.inr (by simp only [if_pos hrun']; rfl))
  | clear =>
      -- The loop has done its work already.
      simp only [reconnectStep, hpc, Option.some.injEq] at hs
      subst hs
      intro hrun hcon hdown
      rcases h hrun hcon hdown with hb | hst | hact
      · exact .inl hb
      · exact .inr (.inl hst)
      · simp [hpc, ReconnectPc.active] at hact
  | connecting cpc =>
      cases cpc with
      | test =>
          simp only [reconnectStep, hpc, connectStep, Option.map_some, Option.some.injEq] at hs
          subst hs
          intro _ _ hdown
          by_cases hr : s.mDBRunning = true
          · simp only [if_pos hr] at hdown
            simp [hr] at hdown
          · exact .inr (.inr (by simp only [if_neg hr]; rfl))
      | join =>
          simp only [reconnectStep, hpc, connectStep] at hs
          split at hs
          · simp only [Option.map_some, Option.some.injEq] at hs
            subst hs
            exact fun _ _ _ => .inr (.inr rfl)
          · cases hs
      | openSocket =>
          cases answer with
          | ok | invalidAddress | failed =>
              simp only [reconnectStep, hpc, connectStep, Option.map_some, Option.some.injEq] at hs
              subst hs
              exact fun _ _ _ => .inr (.inr rfl)
      | store =>
          simp only [reconnectStep, hpc, connectStep, Option.map_some, Option.some.injEq] at hs
          subst hs
          exact fun _ _ hdown => by cases hdown
      | spawn =>
          simp only [reconnectStep, hpc, connectStep, Option.map_some, Option.some.injEq] at hs
          subst hs
          exact fun _ _ _ => .inl rfl

theorem Supervised.main {answer : ConnectAnswer} (hI : LinkInv s) (h : Supervised s)
    (hs : mainStep s answer = some s') : Supervised s' := by
  have hstop : s.main.stopping = true → s.mIsRunning = false := hI.stopping
  cases hpc : s.main with
  | connecting cpc =>
      obtain ⟨hrecv, -⟩ := hI.first cpc hpc
      cases cpc with
      | test =>
          simp only [mainStep, hpc, connectStep, Option.map_some, Option.some.injEq] at hs
          subst hs
          by_cases hr : s.mDBRunning = true
          · simp only [if_pos hr]
            exact h
          · simp only [if_neg hr]
            exact h
      | join =>
          simp only [mainStep, hpc, connectStep] at hs
          split at hs
          · simp only [Option.map_some, Option.some.injEq] at hs
            subst hs
            simpa [Supervised, hrecv] using h
          · cases hs
      | openSocket =>
          cases answer with
          | ok | invalidAddress | failed =>
              simp only [mainStep, hpc, connectStep, Option.map_some, Option.some.injEq] at hs
              subst hs
              exact h
      | store =>
          simp only [mainStep, hpc, connectStep, Option.map_some, Option.some.injEq] at hs
          subst hs
          exact fun _ _ hdown => by cases hdown
      | spawn =>
          simp only [mainStep, hpc, connectStep, Option.map_some, Option.some.injEq] at hs
          subst hs
          exact fun _ _ _ => .inl rfl
  | up =>
      simp only [mainStep, hpc, Option.some.injEq] at hs
      subst hs
      exact h
  | store =>
      simp only [mainStep, hpc, Option.some.injEq] at hs
      subst hs
      exact fun hrun => by cases hrun
  | stopped => simp [mainStep, hpc] at hs
  | _ =>
      -- `Stop` has cleared `mIsRunning` before.
      have hoff : s.mIsRunning = false := hstop (by rw [hpc]; rfl)
      have hoff' : s'.mIsRunning = false := by
        simp only [mainStep, hpc] at hs
        first
          | (cases hs; exact hoff)
          | (split at hs <;> cases hs; exact hoff)
      exact fun hrun => by simp [hoff'] at hrun

theorem Supervised.step {a : Act} (hI : LinkInv s) (h : Supervised s)
    (hok : flagClear s a = true) (hs : DBLink.step s a = some s') : Supervised s' := by
  cases a with
  | main answer => exact h.main hI hs
  | recv answer => exact supervised_recv hok hs
  | reconnect answer => exact h.reconnect hs

/-- A check of a running server that finds the flag set leaves nobody to reconnect. -/
theorem not_supervised_of_flag {a : Act} (hI : LinkInv s) (hok : flagClear s a = false)
    (hs : DBLink.step s a = some s') : ¬ Supervised s' := by
  cases a with
  | main answer => simp [flagClear] at hok
  | reconnect answer => simp [flagClear] at hok
  | recv answer =>
      simp only [flagClear, ne_eq, decide_not, Bool.or_eq_false_iff, Bool.not_eq_false',
        decide_eq_true_eq] at hok
      obtain ⟨⟨hpc, hflag⟩, hrun⟩ := hok
      have halive : s.recv.alive = true := by rw [hpc]; rfl
      have hdown := hI.down halive (by simp [hpc])
      have hcon : s.conns ≠ [] := hI.connected (.inl (by simp [hpc]))
      have hloop : s.reconnect.alive = true := by
        have := hI.flag
        simpa [hflag, hpc] using this
      have hclear : s.reconnect = .clear := by
        rcases hI.apart halive with hc | hc | hc
        · simp [hc, ReconnectPc.alive] at hloop
        · simp [hc, ReconnectPc.alive] at hloop
        · exact hc
      simp only [DBLink.step, recvStep, hpc, hflag, Option.some.injEq] at hs
      subst hs
      intro hsup
      rcases hsup hrun hcon hdown with hb | hst | hact
      · cases hb
      · cases hst
      · simp [hclear, ReconnectPc.active] at hact

/-- In every state of a run somebody reconnects exactly when no check finds the flag of a
loop that has connected already. -/
theorem supervised_iff_flagClear {as : List Act} (hrun : Machine.run DBLink.step {} as = some s) :
    Machine.Always DBLink.step Supervised {} as ↔
      Machine.Meets DBLink.step (fun s a => flagClear s a) {} as := by
  refine Machine.always_iff_meets (I := LinkInv) (fun _ _ _ h hs => h.step hs)
    (fun _ _ _ hI h hok hs => h.step hI hok hs) ?_ linkInv_init (fun _ hcon => absurd rfl hcon) hrun
  exact fun _ _ _ hI hno hs => not_supervised_of_flag hI (by simpa using hno) hs

end

/-- A connection is lost, the loop makes a new one and clears its flag, and only then is
the new one lost as well.  Another loop starts. -/
def relayTrace : List Act :=
  List.flatten
    [List.replicate 5 (.main .ok), [.recv .lost, .recv .lost], List.replicate 6 (.recv .lost),
      List.replicate 10 (.reconnect .ok), [.recv .lost, .recv .lost], List.replicate 6 (.recv .lost)]

theorem supervised_relayTrace :
    ∃ s, Machine.run step {} relayTrace = some s ∧ s.conns.length = 2 ∧
      s.reconnect = .runningTest ∧ Machine.Always step Supervised {} relayTrace :=
  ⟨_, rfl, rfl, rfl, (supervised_iff_flagClear (s := _) rfl).mpr (by decide)⟩

/-- The new connection is lost before the loop has cleared its flag. -/
def droppedTrace : List Act :=
  List.flatten
    [List.replicate 5 (.main .ok), [.recv .lost, .recv .lost], List.replicate 6 (.recv .lost),
      List.replicate 9 (.reconnect .ok), [.recv .lost, .recv .lost], List.replicate 3 (.recv .lost),
      [.reconnect .ok]]

/-- Both threads have ended, and the server runs without a connection. -/
theorem not_supervised_droppedTrace :
    ∃ s, Machine.run step {} droppedTrace = some s ∧ s.mIsRunning = true ∧ s.conns.length = 2 ∧
      s.mDBRunning = false ∧ s.recv = .ended ∧ s.reconnect = .ended ∧ ¬ Supervised s := by
  refine ⟨_, rfl, rfl, rfl, rfl, rfl, rfl, fun h => ?_⟩
  rcases h rfl (by decide) rfl with hb | hst | hact
  · cases hb
  · cases hst
  · cases hact

end NetworkModule.TestServer.DBLink
