import NetworkModule.Network.LinuxEngine
import Mathlib

/-!
# Closed sessions leave the manager

A session that is closed should leave `SessionManager`, so that its slot in the pool
can be used again.  `RemoveSession` closes and erases.  `ProcessRawRecv`, when the
stream is malformed, and `PostSend`, when `SendAsync` fails, only close.  A later
completion or sweep skips a session that is not connected, so nobody erases it then.

`registered_connected` says that these two are the only way to a closed session that
stays registered: if each of them only ever closes a session that some other thread
is about to erase, or that is closed or erased already, then at rest every registered
session is connected.
-/

namespace NetworkModule.LinuxEngine

/-! ## Threads that erase a session -/

/-- A thread at this place goes on to erase its session. -/
def ThreadPc.removes : ThreadPc → Bool
  | .cancelledTest .teardown _ | .dispatch .teardown _ | .removeTest _ | .close _ (some _)
  | .erase _ => true
  | _ => false

/-- Some thread goes on to erase session `i`. -/
def Engine.removing (s : Engine) (i : Nat) : Bool :=
  s.threads.any (fun th => th.sess == i && th.pc.removes) ||
    s.accepting == some (i, .disconnected)

/-- Session `i` may be closed without being erased: it is not registered any more, or
it is closed already, or some thread goes on to erase it. -/
def Engine.closable (s : Engine) (i : Nat) : Bool :=
  s.removing i || s.sessions[i]?.all fun x => !x.registered || x.mState == .disconnected

/-- `ProcessRawRecv` is about to close the session. -/
def RunPc.closes : RunPc → Bool
  | .close .exchange _ => true
  | _ => false

/-- `ProcessRawRecv` and `PostSend` close a session only where it may be closed
without being erased. -/
def closesErased (s : Engine) : EngineAct → Bool
  | .thread k _ => s.threads[k]?.all fun th => th.pc != .close .exchange none || s.closable th.sess
  | .logic i => s.sessions[i]?.all fun x => !x.running.any RunPc.closes || s.closable i
  | _ => true

/-- A session that is registered and not connected is about to be erased. -/
def ErasedSoon (s : Engine) : Prop :=
  ∀ i x, s.sessions[i]? = some x → x.registered = true → x.mState = .connected ∨
    s.removing i = true

section
variable {s s' : Engine} {x x' : Sess} {ok : Bool}

/-! ## Single steps -/

theorem closeStep_mState {pc : ClosePc} (h : pc ≠ .exchange) : (pc.step x).1.mState = x.mState := by
  cases pc with
  | exchange => exact absurd rfl h
  | cleanup => rfl
  | cancel => rfl

theorem closeStep_registered (pc : ClosePc) : (pc.step x).1.registered = x.registered := by
  cases pc with
  | exchange =>
      simp only [ClosePc.step]
      split <;> rfl
  | cleanup => rfl
  | cancel => rfl

/-- A thread that goes on to erase its session does so or still goes on. -/
theorem removes_step {pc pc' : ThreadPc} (h : pc.step x ok = some (x', pc'))
    (hremoves : pc.removes = true) : pc'.removes = true ∨ x'.registered = false := by
  cases pc with
  | cancelledTest task after =>
      cases task with
      | teardown =>
          cases h
          left
          split <;> rfl
      | connected | disconnected | data chunk => cases hremoves
  | dispatch task after =>
      cases task with
      | teardown =>
          cases h
          exact Or.inl rfl
      | connected | disconnected | data chunk => cases hremoves
  | removeTest after =>
      cases h
      left
      split <;> rfl
  | close pc remove =>
      cases remove with
      | none => cases hremoves
      | some after =>
          cases h
          left
          cases (pc.step x).2 <;> rfl
  | erase after =>
      cases h
      exact Or.inr rfl
  | getSession call | connectedTest chunk after | requeueTest | queueRecv | dataSent | sendTest
  | postSend | returned => cases hremoves

/-- What a thread's step does to the manager and to `mState`. -/
theorem step_mState {pc pc' : ThreadPc} (h : pc.step x ok = some (x', pc')) :
    (x'.registered = true → x.registered = true) ∧
      (x'.mState = x.mState ∨ pc = .close .exchange none ∨ pc'.removes = true) := by
  cases pc with
  | close pc remove =>
      cases h
      refine ⟨fun hreg => by rwa [closeStep_registered] at hreg, ?_⟩
      by_cases hpc : pc = .exchange
      · subst hpc
        cases remove with
        | none => exact Or.inr (Or.inl rfl)
        | some after =>
            right
            right
            cases (ClosePc.step x .exchange).2 <;> rfl
      · exact Or.inl (closeStep_mState hpc)
  | erase after =>
      cases h
      exact ⟨(fun hreg => by cases hreg), Or.inl rfl⟩
  | dispatch task after =>
      cases h
      cases ok <;> exact ⟨id, Or.inl rfl⟩
  | getSession call | connectedTest chunk after | cancelledTest task after | removeTest after
  | requeueTest | queueRecv | dataSent | sendTest | postSend =>
      cases h
      exact ⟨id, Or.inl rfl⟩
  | returned => cases h

/-- The same for a step of the logic worker. -/
theorem logic_mState (h : x.logic = some x') :
    x'.registered = x.registered ∧
      (x'.mState = x.mState ∨ x.running.any RunPc.closes = true) := by
  unfold Sess.logic at h
  split at h
  · split at h
    · cases h
    · cases h
      exact ⟨rfl, Or.inl rfl⟩
  · cases h
    exact ⟨rfl, Or.inl rfl⟩
  · cases h
    exact ⟨rfl, Or.inl rfl⟩
  · cases h
    exact ⟨rfl, Or.inl rfl⟩
  · cases h
    exact ⟨rfl, Or.inl rfl⟩
  · cases h
    exact ⟨rfl, Or.inl rfl⟩
  next pc chunk hrun =>
    cases h
    refine ⟨closeStep_registered pc, ?_⟩
    by_cases hpc : pc = .exchange
    · subst hpc
      exact Or.inr (by rw [hrun]; rfl)
    · exact Or.inl (closeStep_mState hpc)
  · cases h
    exact ⟨rfl, Or.inl rfl⟩

theorem acceptPc_step_frame (x : Sess) (ok : Bool) (pc : AcceptPc) :
    (pc.step x ok).1.registered = x.registered ∧ (pc.step x ok).1.mState = x.mState := by
  cases pc with
  | associate | queueRecv => exact ⟨rfl, rfl⟩
  | connected | disconnected => cases ok <;> exact ⟨rfl, rfl⟩

/-! ## Who erases -/

theorem removing_iff {i : Nat} : s.removing i = true ↔
    (∃ th ∈ s.threads, th.sess = i ∧ th.pc.removes = true) ∨
      s.accepting = some (i, .disconnected) := by
  simp [Engine.removing]

/-- A thread that is listed later on was listed before, or it is the one that moved. -/
theorem removing_of_set {k i j : Nat} {pc pc' : ThreadPc} {sessions : List Sess}
    (hk : s.threads[k]? = some ⟨i, pc⟩) (hpc : j = i → pc.removes = true → pc'.removes = true)
    (h : s.removing j = true) :
    Engine.removing ⟨sessions, s.accepting, s.threads.set k ⟨i, pc'⟩⟩ j = true := by
  rw [removing_iff] at h ⊢
  rcases h with ⟨th, hmem, hsess, hremoves⟩ | h
  · left
    obtain ⟨n, hn⟩ := List.getElem?_of_mem hmem
    by_cases hnk : n = k
    · subst hnk
      cases hk.symm.trans hn
      refine ⟨⟨i, pc'⟩, ?_, hsess, hpc hsess.symm hremoves⟩
      exact List.mem_of_getElem? (i := n) (by rw [List.getElem?_set_self' , hk]; rfl)
    · refine ⟨th, ?_, hsess, hremoves⟩
      exact List.mem_of_getElem? (i := n) (by rw [List.getElem?_set_ne (Ne.symm hnk)]; exact hn)
  · exact Or.inr h

theorem removing_append {j : Nat} {sessions : List Sess} {more : List Thread}
    (h : s.removing j = true) :
    Engine.removing ⟨sessions, s.accepting, s.threads ++ more⟩ j = true := by
  rw [removing_iff] at h ⊢
  rcases h with ⟨th, hmem, hth⟩ | h
  · exact Or.inl ⟨th, List.mem_append_left more hmem, hth⟩
  · exact Or.inr h

/-! ## Runs -/

theorem ErasedSoon.thread {k : Nat} (h : ErasedSoon s) (hok : closesErased s (.thread k ok) = true)
    (hs : engineStep s (.thread k ok) = some s') : ErasedSoon s' := by
  obtain ⟨i, pc, x, x', pc', hk, hx, hstep, rfl⟩ := threadStep_cases hs
  obtain ⟨hregistered, hmState⟩ := step_mState hstep
  intro j y hy hreg
  rcases getElem?_set_cases hy with ⟨rfl, rfl⟩ | ⟨hj, hy⟩
  · -- The thread itself goes on to erase the session, or another one did so before.
    have hkeep : s.removing j = true → Engine.removing
        { s with sessions := s.sessions.set j y, threads := s.threads.set k ⟨j, pc'⟩ } j = true := by
      refine removing_of_set hk fun _ hremoves => ?_
      rcases removes_step hstep hremoves with hremoves' | hno
      · exact hremoves'
      · rw [hno] at hreg
        cases hreg
    rcases hmState with hsame | rfl | hremoves
    · rw [hsame]
      exact (h j x hx (hregistered hreg)).imp_right hkeep
    · simp only [closesErased, hk, Option.all_some, bne_self_eq_false, Bool.false_or,
        Engine.closable, hx, Bool.or_eq_true, Bool.not_eq_true', beq_iff_eq] at hok
      rcases hok with hremoving | hno | hdown
      · exact Or.inr (hkeep hremoving)
      · rw [hregistered hreg] at hno
        cases hno
      · rcases h j x hx (hregistered hreg) with hup | hremoving
        · rw [hup] at hdown
          cases hdown
        · exact Or.inr (hkeep hremoving)
    · right
      refine removing_iff.mpr (Or.inl ⟨⟨j, pc'⟩, ?_, rfl, hremoves⟩)
      exact List.mem_of_getElem? (i := k) (by rw [List.getElem?_set_self', hk]; rfl)
  · refine (h j y hy hreg).imp_right (removing_of_set hk fun hji => absurd hji hj)

theorem ErasedSoon.logic {i : Nat} (h : ErasedSoon s) (hok : closesErased s (.logic i) = true)
    (hs : engineStep s (.logic i) = some s') : ErasedSoon s' := by
  obtain ⟨x, x', hx, hstep, rfl⟩ := logicStep_cases hs
  obtain ⟨hregistered, hmState⟩ := logic_mState hstep
  intro j y hy hreg
  rcases getElem?_set_cases hy with ⟨rfl, rfl⟩ | ⟨hj, hy⟩
  · rw [hregistered] at hreg
    rcases hmState with hsame | hrun
    · rw [hsame]
      exact h j x hx hreg
    · simp only [closesErased, hx, Option.all_some, hrun, Bool.not_true, Bool.false_or,
        Engine.closable, Bool.or_eq_true, Bool.not_eq_true', beq_iff_eq] at hok
      rcases hok with hremoving | hno | hdown
      · exact Or.inr hremoving
      · rw [hreg] at hno
        cases hno
      · rcases h j x hx hreg with hup | hremoving
        · rw [hup] at hdown
          cases hdown
        · exact Or.inr hremoving
  · exact h j y hy hreg

theorem ErasedSoon.acceptStep (h : ErasedSoon s) (hs : engineStep s (.acceptStep ok) = some s') :
    ErasedSoon s' := by
  obtain ⟨i, pc, x, hacc, hx, hsessions, haccepting, hthreads⟩ := acceptStep_cases hs
  obtain ⟨hregistered, hmState⟩ := acceptPc_step_frame x ok pc
  -- A thread that erases is still there, and the accept thread hands its duty over.
  have hkeep : ∀ j, s.removing j = true → s'.removing j = true := by
    intro j hremoving
    rw [removing_iff] at hremoving ⊢
    rcases hremoving with ⟨th, hmem, hth⟩ | hdis
    · refine Or.inl ⟨th, ?_, hth⟩
      rw [hthreads]
      split
      · exact List.mem_append_left _ hmem
      · exact hmem
    · rw [hacc] at hdis
      cases hdis
      refine Or.inl ⟨⟨i, .removeTest .done⟩, ?_, rfl, rfl⟩
      rw [hthreads]
      exact List.mem_append_right _ (List.mem_singleton.mpr rfl)
  intro j y hy hreg
  rw [hsessions] at hy
  rcases getElem?_set_cases hy with ⟨rfl, rfl⟩ | ⟨hj, hy⟩
  · rw [hregistered] at hreg
    rw [hmState]
    exact (h j x hx hreg).imp_right (hkeep j)
  · exact (h j y hy hreg).imp_right (hkeep j)

theorem ErasedSoon.step {a : EngineAct} (h : ErasedSoon s) (hok : closesErased s a = true)
    (hs : engineStep s a = some s') : ErasedSoon s' := by
  cases a with
  | accept =>
      simp only [engineStep] at hs
      split at hs
      next hfree =>
        cases hs
        intro j y hy hreg
        rcases getElem?_concat_cases hy with hy | ⟨-, rfl⟩
        · refine (h j y hy hreg).imp_right fun hremoving => ?_
          rw [removing_iff] at hremoving ⊢
          rcases hremoving with hth | hacc
          · exact Or.inl hth
          · rw [hfree] at hacc
            cases hacc
        · exact Or.inl rfl
      · cases hs
  | acceptStep ok => exact h.acceptStep hs
  | call i call =>
      simp only [engineStep] at hs
      split at hs
      · cases hs
        intro j y hy hreg
        exact (h j y hy hreg).imp_right removing_append
      · cases hs
  | thread k ok => exact h.thread hok hs
  | logic i => exact h.logic hok hs

/-- If `ProcessRawRecv` and `PostSend` close no session that stays registered, then at
rest every registered session is connected. -/
theorem registered_connected {acts : List EngineAct}
    (hok : Machine.Meets engineStep (fun s a => closesErased s a = true) {} acts)
    (hrun : Machine.run engineStep {} acts = some s) (hrest : s.Quiescent) :
    ∀ x ∈ s.sessions, x.registered = true → x.mState = .connected := by
  have h : ErasedSoon s :=
    Machine.run_invariant_of_meets (fun _ _ _ h hok hs => h.step hok hs)
      (fun i x hx => by simp at hx) hok hrun
  intro x hmem hreg
  obtain ⟨i, hi⟩ := List.getElem?_of_mem hmem
  rcases h i x hi hreg with hup | hremoving
  · exact hup
  · rcases removing_iff.mp hremoving with ⟨th, hth, -, hremoves⟩ | hacc
    · rw [hrest.2.1 th hth] at hremoves
      cases hremoves
    · rw [hrest.1] at hacc
      cases hacc

end

/-- A session is connected and its first receive queued. -/
def connectActs : List EngineAct :=
  List.flatten [[.accept], List.replicate 3 (.acceptStep true), List.replicate 2 (.logic 0)]

/-- A completion brings in a malformed header, and `ProcessRawRecv` closes the session
while `CloseConnection` is under way. -/
def erasedTrace : List EngineAct :=
  List.flatten [connectActs, [.call 0 (.recvCompletion [0, 0, 0, 0])],
    List.replicate 6 (.thread 0 true), [.call 0 .closeConnection], List.replicate 2 (.thread 1 true),
    List.replicate 7 (.logic 0), List.replicate 3 (.thread 1 true), List.replicate 2 (.logic 0)]

theorem registered_connected_erasedTrace :
    ∃ s, Machine.run engineStep {} erasedTrace = some s ∧
      s.sessions.map Sess.mState = [.disconnected] ∧
      ∀ x ∈ s.sessions, x.registered = true → x.mState = .connected := by
  have hrun : (Machine.run engineStep {} erasedTrace).any (fun s =>
      decide (s.Quiescent ∧ s.sessions.map Sess.mState = [.disconnected])) = true := by
    decide +kernel
  obtain ⟨s, hs, hp⟩ := (Option.any_eq_true _ _).mp hrun
  obtain ⟨hrest, hstate⟩ := of_decide_eq_true hp
  exact ⟨s, hs, hstate, @registered_connected s erasedTrace (by decide +kernel) hs hrest⟩

/-- A completion brings in a malformed header, and `ProcessRawRecv` closes the
session.  The completion of a failed operation that comes later is ignored. -/
def zombieTrace : List EngineAct :=
  List.flatten [connectActs, [.call 0 (.recvCompletion [0, 0, 0, 0])],
    List.replicate 6 (.thread 0 true), List.replicate 7 (.logic 0), [.call 0 .errorCompletion],
    List.replicate 2 (.thread 1 true)]

theorem not_connected_zombieTrace :
    ∃ s, Machine.run engineStep {} zombieTrace = some s ∧ s.Quiescent ∧
      ∃ x ∈ s.sessions, x.registered = true ∧ x.mState = .disconnected := by
  have hrun : (Machine.run engineStep {} zombieTrace).any (fun s =>
      decide (s.Quiescent ∧ ∃ x ∈ s.sessions, x.registered = true ∧ x.mState = .disconnected)) =
        true := by
    decide +kernel
  obtain ⟨s, hs, hp⟩ := (Option.any_eq_true _ _).mp hrun
  exact ⟨s, hs, of_decide_eq_true hp⟩

end NetworkModule.LinuxEngine
