import NetworkModule.Concurrency.AsyncScope

/-!
# What mInFlight counts

`mInFlight` should be the number of `Submit` calls that have begun and neither
been rejected nor handed their task over, plus the number of accepted tasks
that are queued or running (`Accounts`).  The invariant says what it really is:
the same plus the number of tasks whose body threw (`ScopeInv.balance`), since
the exception passes the call of `EndTask`.  Hence `accounts_iff_noThrow`.
-/

namespace NetworkModule.Concurrency

open Tally (tally)

/-! ## The accounting -/

/-- The task has returned or thrown. -/
def WrappedPc.isFinished : WrappedPc → Bool
  | .finished _ => true
  | .queued | .body | .endTask => false

section
variable (s : ScopedDispatcher) (c : Nat)

/-- The task of the call is in the hands of the dispatcher. -/
def ScopedDispatcher.accepted : Bool := (s.dispatcher.calls c).accepted

/-- The call has begun and has neither been rejected nor handed its task over. -/
def ScopedDispatcher.inSubmit : Bool :=
  match (s.submits c).pc with
  | .cancelledTest | .dispatch | .endTask => true
  | .dispatching => !s.accepted c
  | .idle | .beginTask | .returned _ => false

/-- The task of the call is accepted, and it is queued or running. -/
def ScopedDispatcher.live : Bool := s.accepted c && !(s.submits c).wrapped.isFinished

/-- The body of the task threw. -/
def ScopedDispatcher.threw : Bool := (s.submits c).wrapped = .finished true

end

/-- What `mInFlight` is for. -/
structure Accounts (s : ScopedDispatcher) : Prop where
  /-- It counts the calls in `Submit` and the tasks queued or running. -/
  balance : s.scope.mInFlight = s.begun.countP s.inSubmit + s.begun.countP s.live
  /-- It is zero once no call is in `Submit` and every accepted task has run. -/
  drained : (∀ c ∈ s.begun, s.inSubmit c = false) →
    (∀ c ∈ s.begun, s.accepted c = true → c ∈ s.dispatcher.finished) → s.scope.mInFlight = 0

/-- The step does not end a body with an exception. -/
def noThrow (s : ScopedDispatcher) : ScopeAct → Bool
  | .run i throws =>
      match (s.dispatcher.workers i).pc with
      | .executing c => (s.submits c).wrapped ≠ .body || !throws
      | _ => true
  | _ => true

/-! ## The invariant -/

/-- The call has called `BeginTask`. -/
def SubmitPc.hasBegun : SubmitPc → Bool
  | .idle | .beginTask => false
  | .cancelledTest | .dispatch | .dispatching | .endTask | .returned _ => true

/-- The call has called `BeginTask`, and no `EndTask` has been called for it. -/
def Submission.counts (x : Submission) : Bool :=
  match x.pc with
  | .idle | .beginTask | .returned false => false
  | .cancelledTest | .dispatch | .dispatching | .endTask | .returned true =>
      x.wrapped ≠ .finished false

/-- The places of a `Submit` call and of the `Dispatch` call of the same number
agree. -/
def SubmitPc.agrees : SubmitPc → CallPc → Bool
  | .idle, _ | .dispatching, _ => true
  | .beginTask, p | .cancelledTest, p | .dispatch, p => p = .idle
  | .endTask, p | .returned false, p => p = .idle ∨ p = .returned false
  | .returned true, p => p = .returned true

/-- What holds of a `Submit` call over a dispatcher, given the calls that have
begun. -/
structure Submission.Ok (d : KeyedDispatcher) (begun : List Nat) (c : Nat) (x : Submission) :
    Prop where
  begun : c ∈ begun ↔ x.pc.hasBegun = true
  agrees : x.pc.agrees (d.calls c) = true
  idle : x.pc = .idle → x.wrapped = .queued
  /-- A wrapped task that has started was accepted. -/
  started : x.wrapped ≠ .queued → (d.calls c).accepted = true
  /-- A wrapped task the dispatcher is done with is over. -/
  finished : x.pc ≠ .idle → d.Ran c → x.wrapped.isFinished = true

/-- What holds in every state of a scope. -/
structure ScopeInv (cfg : DispatcherConfig) (s : ScopedDispatcher) : Prop where
  dispatcher : DispatcherInv cfg s.dispatcher
  submits : ∀ c, (s.submits c).Ok s.dispatcher s.begun c
  begun_nodup : s.begun.Nodup
  balance : s.scope.mInFlight = tally Submission.counts s.submits s.begun

theorem scopeInv_init (cfg : DispatcherConfig) : ScopeInv cfg {} where
  dispatcher := dispatcherInv_init cfg
  submits := fun _ =>
    ⟨by simp [SubmitPc.hasBegun], rfl, fun _ => rfl, fun h => absurd rfl h,
      fun h => absurd rfl h⟩
  begun_nodup := List.nodup_nil
  balance := rfl

/-- A `Submit` call whose task was accepted is inside `Dispatch` or has returned
`true`. -/
theorem SubmitPc.cases_of_accepted {pc : SubmitPc} {p : CallPc} (h : pc.agrees p = true)
    (ha : p.accepted = true) (hne : pc ≠ .idle) : pc = .dispatching ∨ pc = .returned true := by
  cases pc with
  | idle => exact absurd rfl hne
  | dispatching => exact Or.inl rfl
  | beginTask | cancelledTest | dispatch =>
      simp only [SubmitPc.agrees, decide_eq_true_eq] at h
      rw [h] at ha
      cases ha
  | endTask =>
      simp only [SubmitPc.agrees, decide_eq_true_eq] at h
      rcases h with h | h <;> rw [h] at ha <;> cases ha
  | returned r =>
      cases r with
      | true => exact Or.inr rfl
      | false =>
          simp only [SubmitPc.agrees, decide_eq_true_eq] at h
          rcases h with h | h <;> rw [h] at ha <;> cases ha

/-! ## Every step keeps the invariant -/

section
variable {cfg : DispatcherConfig} {s s' : ScopedDispatcher} {c : Nat} {x : Submission}

/-- A call whose task was not accepted has not started its task. -/
theorem Submission.Ok.queued {d : KeyedDispatcher} {l : List Nat} (h : x.Ok d l c)
    (ha : (d.calls c).accepted = false) : x.wrapped = .queued := by
  by_contra hne
  rw [h.started hne] at ha
  cases ha

/-- One call is replaced, its `BeginTask` and `EndTask` stay as they are. -/
theorem ScopeInv.move (hI : ScopeInv cfg s) (hx : x.Ok s.dispatcher s.begun c)
    (hc : x.counts = (s.submits c).counts) : ScopeInv cfg (s.setSubmit c x) where
  dispatcher := hI.dispatcher
  submits := (Function.forall_update_iff s.submits
    (p := Submission.Ok s.dispatcher s.begun)).mpr ⟨hx, fun d _ => hI.submits d⟩
  begun_nodup := hI.begun_nodup
  balance := hI.balance.trans (Tally.tally_update_of_eq _ _ _ hc).symm

/-- One call is replaced, and `BeginTask` is called for it. -/
theorem ScopeInv.beginTask (hI : ScopeInv cfg s)
    (hx : x.Ok s.dispatcher (s.begun ++ [c]) c) (hb : (s.submits c).pc.hasBegun = false)
    (hc : x.counts = true) :
    ScopeInv cfg
      ({ s with scope := s.scope.beginTask, begun := s.begun ++ [c] }.setSubmit c x) := by
  have hnot : c ∉ s.begun := by simp [(hI.submits c).begun, hb]
  refine ⟨hI.dispatcher, ?_, ?_, ?_⟩
  · refine (Function.forall_update_iff s.submits
      (p := Submission.Ok s.dispatcher (s.begun ++ [c]))).mpr ⟨hx, fun d hd => ?_⟩
    have h := hI.submits d
    exact ⟨by simp [hd, h.begun], h.agrees, h.idle, h.started, h.finished⟩
  · refine List.nodup_append.mpr ⟨hI.begun_nodup, by simp, fun d hd e he => ?_⟩
    rw [List.mem_singleton.mp he]
    exact fun hdc => hnot (hdc ▸ hd)
  · show s.scope.mInFlight + 1 = _
    rw [hI.balance]
    show _ = tally _ (Function.update s.submits c x) (s.begun ++ [c])
    rw [Tally.tally_append, Tally.tally_singleton, Tally.tally_update_of_notMem _ _ _ hnot,
      Function.update_self, hc]
    rfl

/-- One call is replaced, and `EndTask` is called for it. -/
theorem ScopeInv.endTask (hI : ScopeInv cfg s) (hx : x.Ok s.dispatcher s.begun c)
    (hb : x.pc.hasBegun = true) (hc : x.counts = false) (hcc : (s.submits c).counts = true) :
    ScopeInv cfg ({ s with scope := s.scope.endTask }.setSubmit c x) := by
  have htally := Tally.tally_update Submission.counts s.submits x hI.begun_nodup (hx.begun.mpr hb)
  simp only [hc, hcc, Bool.toNat_false, Bool.toNat_true] at htally
  refine ⟨hI.dispatcher, (Function.forall_update_iff s.submits
    (p := Submission.Ok s.dispatcher s.begun)).mpr ⟨hx, fun d _ => hI.submits d⟩,
    hI.begun_nodup, ?_⟩
  have hbal := hI.balance
  show s.scope.mInFlight - 1 = tally Submission.counts (Function.update s.submits c x) s.begun
  omega

/-- A dispatcher step that the scope allows, or that a `Submit` call makes for
itself, keeps what holds of every other call. -/
theorem Submission.Ok.dispatcherStep {d d' : KeyedDispatcher} {a : DispatcherAct} {l : List Nat}
    (hd : DispatcherInv cfg d) (hs : Concurrency.dispatcherStep cfg d a = some d')
    (h : x.Ok d l c) (hcall : a = .call c → x.pc.agrees (d'.calls c) = true)
    (hwork : ∀ i e t, a = .work i e t → (d.workers i).pc = .executing c → x.pc ≠ .idle →
      x.wrapped = .finished t) : x.Ok d' l c where
  begun := h.begun
  agrees := by
    rcases (step_effect hs).calls_cases c with heq | rfl | ⟨-, hne, hret⟩
    · rw [heq]
      exact h.agrees
    · exact hcall rfl
    · -- The call is inside `Dispatch`, so `Submit` waits for it.
      have hag := h.agrees
      cases hpc : x.pc with
      | idle => rfl
      | dispatching => rfl
      | beginTask | cancelledTest | dispatch =>
          rw [hpc] at hag
          exact absurd (by simpa [SubmitPc.agrees] using hag) hne
      | endTask =>
          rw [hpc] at hag
          rcases (by simpa [SubmitPc.agrees] using hag) with hag | hag
          · exact absurd hag hne
          · exact absurd hag (hret false)
      | returned r =>
          rw [hpc] at hag
          cases r with
          | true => exact absurd (by simpa [SubmitPc.agrees] using hag) (hret true)
          | false =>
              rcases (by simpa [SubmitPc.agrees] using hag) with hag | hag
              · exact absurd hag hne
              · exact absurd hag (hret false)
  idle := h.idle
  started := fun hw => hd.accepted_step hs (h.started hw)
  finished := by
    intro hne hran
    rcases (step_effect hs).ran_cases hran with hran | ⟨i, e, t, ha, hex⟩
    · exact h.finished hne hran
    · rw [hwork i e t ha hex hne]
      rfl

/-- What a worker runs for the scope is an accepted task that still counts. -/
theorem ScopeInv.executing (hI : ScopeInv cfg s) {i : Nat}
    (hw : (s.dispatcher.workers i).pc = .executing c) (hne : (s.submits c).pc ≠ .idle) :
    (s.dispatcher.calls c).accepted = true ∧
      ((s.submits c).pc = .dispatching ∨ (s.submits c).pc = .returned true) := by
  have ha := hI.dispatcher.accepted_of_executing hw
  exact ⟨ha, SubmitPc.cases_of_accepted (hI.submits c).agrees ha hne⟩

/-- A step of a wrapped task keeps what holds of its call. -/
theorem ScopeInv.ok_wrapped (hI : ScopeInv cfg s) {i : Nat} (w : WrappedPc)
    (hw : (s.dispatcher.workers i).pc = .executing c) (hne : (s.submits c).pc ≠ .idle)
    (hnot : (s.submits c).wrapped.isFinished = false) :
    Submission.Ok s.dispatcher s.begun c { s.submits c with wrapped := w } where
  begun := (hI.submits c).begun
  agrees := (hI.submits c).agrees
  idle := fun hidle => absurd hidle hne
  started := fun _ => (hI.executing hw hne).1
  finished := fun _ hran => by
    have := (hI.submits c).finished hne hran
    rw [hnot] at this
    cases this

/-- Every step keeps the invariant. -/
theorem ScopeInv.step {a : ScopeAct} (hI : ScopeInv cfg s) (hs : scopeStep cfg s a = some s') :
    ScopeInv cfg s' := by
  cases scopeStep_effect hs with
  | call c hpc hcall =>
      have h := hI.submits c
      have hbegun : c ∉ s.begun := by simp [h.begun, hpc, SubmitPc.hasBegun]
      refine hI.move ⟨?_, ?_, fun _ => rfl, fun hq => absurd rfl hq, fun _ hran => ?_⟩ ?_
      · simp [hbegun, SubmitPc.hasBegun]
      · simp [SubmitPc.agrees, hcall]
      · have := hI.dispatcher.accepted_of_ran hran
        rw [hcall] at this
        cases this
      · simp [Submission.counts, hpc]
  | beginTask c hpc =>
      have h := hI.submits c
      have hag := h.agrees
      rw [hpc] at hag
      have hcall : s.dispatcher.calls c = .idle := by simpa [SubmitPc.agrees] using hag
      have hq := h.queued (by rw [hcall]; rfl)
      refine hI.beginTask ⟨by simp [SubmitPc.hasBegun], ?_, by simp, h.started, ?_⟩ ?_ ?_
      · simp [SubmitPc.agrees, hcall]
      · exact fun _ hran => h.finished (by simp [hpc]) hran
      · simp [hpc, SubmitPc.hasBegun]
      · simp [Submission.counts, hq]
  | cancelled c hpc hcan =>
      have h := hI.submits c
      have hag := h.agrees
      rw [hpc] at hag
      refine hI.move ⟨?_, ?_, by simp, h.started, fun _ => h.finished (by simp [hpc])⟩ ?_
      · simpa [hpc, SubmitPc.hasBegun] using h.begun
      · simp only [SubmitPc.agrees, decide_eq_true_eq] at hag ⊢
        exact Or.inl hag
      · simp [Submission.counts, hpc]
  | admitted c hpc hcan =>
      have h := hI.submits c
      have hag := h.agrees
      rw [hpc] at hag
      refine hI.move ⟨?_, hag, by simp, h.started, fun _ => h.finished (by simp [hpc])⟩ ?_
      · simpa [hpc, SubmitPc.hasBegun] using h.begun
      · simp [Submission.counts, hpc]
  | dispatch c d hpc hd =>
      -- `Submit` itself makes the call, and the other calls are as they were.
      have h := hI.submits c
      have hother : ∀ k, k ≠ c → (s.submits k).Ok d s.begun k := fun k hk =>
        Submission.Ok.dispatcherStep hI.dispatcher hd (hI.submits k)
          (fun he => absurd (DispatcherAct.call.inj he).symm hk) (fun _ _ _ he => by cases he)
      have hself : Submission.Ok d s.begun c { s.submits c with pc := .dispatching } := by
        refine ⟨?_, rfl, by simp, fun hw => hI.dispatcher.accepted_step hd (h.started hw), ?_⟩
        · simpa [hpc, SubmitPc.hasBegun] using h.begun
        · intro _ hran
          rcases (step_effect hd).ran_cases hran with hran | ⟨_, _, _, he, _⟩
          · exact h.finished (by simp [hpc]) hran
          · cases he
      exact {
        dispatcher := hI.dispatcher.step hd
        submits := (Function.forall_update_iff s.submits
          (p := Submission.Ok d s.begun)).mpr ⟨hself, hother⟩
        begun_nodup := hI.begun_nodup
        balance := hI.balance.trans
          (Tally.tally_update_of_eq _ _ _ (by simp [Submission.counts, hpc])).symm }
  | accepted c hpc hret =>
      have h := hI.submits c
      refine hI.move ⟨?_, ?_, by simp, h.started, fun _ => h.finished (by simp [hpc])⟩ ?_
      · simpa [hpc, SubmitPc.hasBegun] using h.begun
      · simp [SubmitPc.agrees, hret]
      · simp [Submission.counts, hpc]
  | refused c hpc hret =>
      have h := hI.submits c
      refine hI.move ⟨?_, ?_, by simp, h.started, fun _ => h.finished (by simp [hpc])⟩ ?_
      · simpa [hpc, SubmitPc.hasBegun] using h.begun
      · simp [SubmitPc.agrees, hret]
      · simp [Submission.counts, hpc]
  | undone c hpc =>
      have h := hI.submits c
      have hag := h.agrees
      rw [hpc] at hag
      have hnot : (s.dispatcher.calls c).accepted = false := by
        rcases (by simpa [SubmitPc.agrees] using hag) with hc | hc <;> rw [hc] <;> rfl
      have hq := h.queued hnot
      refine hI.endTask ⟨?_, hag, by simp, h.started, fun _ => h.finished (by simp [hpc])⟩ rfl rfl ?_
      · simpa [hpc, SubmitPc.hasBegun] using h.begun
      · simp [Submission.counts, hpc, hq]
  | skip i c t hw hne hq hcan =>
      refine hI.move (hI.ok_wrapped .endTask hw hne (by simp [hq, WrappedPc.isFinished])) ?_
      rcases (hI.executing hw hne).2 with hpc | hpc <;> simp [Submission.counts, hpc, hq]
  | start i c t hw hne hq hcan =>
      refine hI.move (hI.ok_wrapped .body hw hne (by simp [hq, WrappedPc.isFinished])) ?_
      rcases (hI.executing hw hne).2 with hpc | hpc <;> simp [Submission.counts, hpc, hq]
  | body i c t hw hne hq =>
      refine hI.move (hI.ok_wrapped _ hw hne (by simp [hq, WrappedPc.isFinished])) ?_
      rcases (hI.executing hw hne).2 with hpc | hpc <;> cases t <;>
        simp [Submission.counts, hpc, hq]
  | ended i c t hw hne hq =>
      have hpc := (hI.executing hw hne).2
      refine hI.endTask (hI.ok_wrapped (.finished false) hw hne (by simp [hq, WrappedPc.isFinished]))
        ?_ ?_ ?_
      · rcases hpc with hpc | hpc <;> simp [hpc, SubmitPc.hasBegun]
      · rcases hpc with hpc | hpc <;> simp [Submission.counts, hpc]
      · rcases hpc with hpc | hpc <;> simp [Submission.counts, hpc, hq]
  | cancel => exact ⟨hI.dispatcher, hI.submits, hI.begun_nodup, hI.balance⟩
  | reset r => exact ⟨hI.dispatcher, hI.submits, hI.begun_nodup, hI.balance⟩
  | resetStore => exact ⟨hI.dispatcher, hI.submits, hI.begun_nodup, hI.balance⟩
  | waitCall w t pc => exact ⟨hI.dispatcher, hI.submits, hI.begun_nodup, hI.balance⟩
  | wait w e m pc => exact ⟨hI.dispatcher, hI.submits, hI.begun_nodup, hI.balance⟩
  | dispatcher a d hall hd =>
      refine ⟨hI.dispatcher.step hd, fun c => ?_, hI.begun_nodup, hI.balance⟩
      refine Submission.Ok.dispatcherStep hI.dispatcher hd (hI.submits c) ?_ ?_
      · rintro rfl
        have hidle : (s.submits c).pc = .idle := by simpa [ScopedDispatcher.allows] using hall
        rw [hidle]
        rfl
      · rintro i e t rfl hex hne
        simpa [ScopedDispatcher.allows, hex, hne] using hall

/-! ## Calls and tasks over a step -/

/-- A step of the scope leaves the dispatcher alone, makes a call, or is a step
of the dispatcher. -/
theorem ScopeEffect.dispatcher_cases {a : ScopeAct} (h : ScopeEffect cfg s a s') :
    s'.dispatcher = s.dispatcher ∨
      ∃ b, dispatcherStep cfg s.dispatcher b = some s'.dispatcher ∧
        ((∃ c, b = .call c) ∨ a = .dispatcher b) := by
  cases h with
  | dispatch c d hpc hd => exact Or.inr ⟨.call c, hd, Or.inl ⟨c, rfl⟩⟩
  | dispatcher b d hall hd => exact Or.inr ⟨b, hd, Or.inr rfl⟩
  | _ => exact Or.inl rfl

/-- An accepted task stays accepted. -/
theorem ScopeInv.accepted_step {a : ScopeAct} (hI : ScopeInv cfg s)
    (hs : scopeStep cfg s a = some s') (ha : s.accepted c = true) : s'.accepted c = true := by
  unfold ScopedDispatcher.accepted at ha ⊢
  rcases (scopeStep_effect hs).dispatcher_cases with heq | ⟨b, hb, -⟩
  · rw [heq]
    exact ha
  · exact hI.dispatcher.accepted_step hb ha

/-- A `Submit` call that has returned `true` has its task accepted. -/
theorem ScopeInv.accepted_of_returned (hI : ScopeInv cfg s)
    (hr : (s.submits c).pc = .returned true) : s.accepted c = true := by
  have hag := (hI.submits c).agrees
  rw [hr] at hag
  have hcall : s.dispatcher.calls c = .returned true := by simpa [SubmitPc.agrees] using hag
  rw [ScopedDispatcher.accepted, hcall]
  rfl

/-- A `Submit` call that has returned stays so. -/
theorem ScopeEffect.returned {a : ScopeAct} (h : ScopeEffect cfg s a s') {r : Bool}
    (hr : (s.submits c).pc = .returned r) : (s'.submits c).pc = .returned r := by
  have hmove : ∀ {t : ScopedDispatcher} {d : Nat} {x : Submission}, t.submits = s.submits →
      (d = c → x.pc = .returned r) → ((t.setSubmit d x).submits c).pc = .returned r := by
    intro t d x ht hx
    rw [ScopedDispatcher.setSubmit, ht]
    by_cases hd : d = c
    · subst hd
      simpa using hx rfl
    · simp [Ne.symm hd, hr]
  cases h with
  | call d hpc => exact hmove rfl fun hd => by simp [hd, hr] at hpc
  | beginTask d hpc => exact hmove rfl fun hd => by simp [hd, hr] at hpc
  | cancelled d hpc => exact hmove rfl fun hd => by simp [hd, hr] at hpc
  | admitted d hpc => exact hmove rfl fun hd => by simp [hd, hr] at hpc
  | dispatch d k hpc => exact hmove rfl fun hd => by simp [hd, hr] at hpc
  | accepted d hpc => exact hmove rfl fun hd => by simp [hd, hr] at hpc
  | refused d hpc => exact hmove rfl fun hd => by simp [hd, hr] at hpc
  | undone d hpc => exact hmove rfl fun hd => by simp [hd, hr] at hpc
  | skip i d => exact hmove rfl fun hd => by rw [hd]; exact hr
  | start i d => exact hmove rfl fun hd => by rw [hd]; exact hr
  | body i d => exact hmove rfl fun hd => by rw [hd]; exact hr
  | ended i d => exact hmove rfl fun hd => by rw [hd]; exact hr
  | _ => exact hr

/-- Only `Cancel` and `Reset` change `mCancelled`. -/
theorem ScopeEffect.mCancelled_eq {a : ScopeAct} (h : ScopeEffect cfg s a s') (hc : a ≠ .cancel)
    (hr : a ≠ .reset) : s'.scope.mCancelled = s.scope.mCancelled := by
  cases h with
  | cancel => exact absurd rfl hc
  | reset => exact absurd rfl hr
  | resetStore => exact absurd rfl hr
  | _ => rfl

/-- The place of a wrapped task changes only when its worker takes a step in it. -/
theorem ScopeInv.wrapped_cases {a : ScopeAct} (hI : ScopeInv cfg s)
    (hs : scopeStep cfg s a = some s') (c : Nat) :
    (s'.submits c).wrapped = (s.submits c).wrapped ∨
      ∃ i t, a = .run i t ∧ (s.dispatcher.workers i).pc = .executing c ∧
        (s.submits c).pc ≠ .idle ∧
        ((s.submits c).wrapped = .queued ∧ s.scope.mCancelled = true ∧
            (s'.submits c).wrapped = .endTask ∨
          (s.submits c).wrapped = .queued ∧ s.scope.mCancelled = false ∧
            (s'.submits c).wrapped = .body ∨
          (s.submits c).wrapped = .body ∧
            (s'.submits c).wrapped = (if t then .finished true else .endTask) ∨
          (s.submits c).wrapped = .endTask ∧ (s'.submits c).wrapped = .finished false) := by
  have hmove : ∀ {t : ScopedDispatcher} {d : Nat} {x : Submission}, t.submits = s.submits →
      x.wrapped = (s.submits d).wrapped →
      ((t.setSubmit d x).submits c).wrapped = (s.submits c).wrapped := by
    intro t d x ht hx
    rw [ScopedDispatcher.setSubmit, ht]
    by_cases hd : c = d
    · subst hd
      simpa using hx
    · simp [hd]
  have hother : ∀ {t : ScopedDispatcher} {d : Nat} {x : Submission}, t.submits = s.submits →
      c ≠ d → ((t.setSubmit d x).submits c).wrapped = (s.submits c).wrapped := by
    intro t d x ht hd
    rw [ScopedDispatcher.setSubmit, ht]
    simp [hd]
  cases scopeStep_effect hs with
  | call d hpc => exact Or.inl (hmove rfl ((hI.submits d).idle hpc).symm)
  | beginTask d => exact Or.inl (hmove rfl rfl)
  | cancelled d => exact Or.inl (hmove rfl rfl)
  | admitted d => exact Or.inl (hmove rfl rfl)
  | dispatch d => exact Or.inl (hmove rfl rfl)
  | accepted d => exact Or.inl (hmove rfl rfl)
  | refused d => exact Or.inl (hmove rfl rfl)
  | undone d => exact Or.inl (hmove rfl rfl)
  | skip i d t hw hne hq hcan =>
      by_cases hd : c = d
      · subst hd
        exact Or.inr ⟨i, t, rfl, hw, hne, Or.inl ⟨hq, hcan, by simp [ScopedDispatcher.setSubmit]⟩⟩
      · exact Or.inl (hother rfl hd)
  | start i d t hw hne hq hcan =>
      by_cases hd : c = d
      · subst hd
        exact Or.inr ⟨i, t, rfl, hw, hne, Or.inr (Or.inl ⟨hq, hcan, by
          simp [ScopedDispatcher.setSubmit]⟩)⟩
      · exact Or.inl (hother rfl hd)
  | body i d t hw hne hq =>
      by_cases hd : c = d
      · subst hd
        refine Or.inr ⟨i, t, rfl, hw, hne, Or.inr (Or.inr (Or.inl ⟨hq, ?_⟩))⟩
        simp [ScopedDispatcher.setSubmit]
      · exact Or.inl (hother rfl hd)
  | ended i d t hw hne hq =>
      by_cases hd : c = d
      · subst hd
        refine Or.inr ⟨i, t, rfl, hw, hne, Or.inr (Or.inr (Or.inr ⟨hq, ?_⟩))⟩
        simp [ScopedDispatcher.setSubmit]
      · exact Or.inl (hother rfl hd)
  | _ => exact Or.inl rfl

/-- The call is about to return `false` or has done so. -/
def SubmitPc.rejected : SubmitPc → Bool
  | .endTask | .returned false => true
  | _ => false

/-- A `Submit` call is rejected only by a cancelled scope or by `Dispatch`. -/
theorem ScopeEffect.rejected_cases {a : ScopeAct} (h : ScopeEffect cfg s a s')
    (hr : (s'.submits c).pc.rejected = true) :
    (s.submits c).pc.rejected = true ∨ s.scope.mCancelled = true ∨
      s.dispatcher.calls c = .returned false := by
  have hmove : ∀ {t : ScopedDispatcher} {d : Nat} {x : Submission}, t.submits = s.submits →
      ((t.setSubmit d x).submits c).pc.rejected = true →
      (s.submits c).pc.rejected = true ∨ c = d ∧ x.pc.rejected = true := by
    intro t d x ht hx
    rw [ScopedDispatcher.setSubmit, ht] at hx
    by_cases hd : c = d
    · subst hd
      exact Or.inr ⟨rfl, by simpa using hx⟩
    · exact Or.inl (by simpa [hd] using hx)
  cases h with
  | call d hpc => exact (hmove rfl hr).imp_right fun h => by cases h.2
  | beginTask d => exact (hmove rfl hr).imp_right fun h => by cases h.2
  | cancelled d hpc hcan => exact Or.inr (Or.inl hcan)
  | admitted d => exact (hmove rfl hr).imp_right fun h => by cases h.2
  | dispatch d => exact (hmove rfl hr).imp_right fun h => by cases h.2
  | accepted d => exact (hmove rfl hr).imp_right fun h => by cases h.2
  | refused d hpc hret =>
      exact (hmove rfl hr).imp_right fun h => Or.inr (by rw [h.1]; exact hret)
  | undone d hpc =>
      rcases hmove rfl hr with h | ⟨rfl, -⟩
      · exact Or.inl h
      · exact Or.inl (by rw [hpc]; rfl)
  | skip i d => exact (hmove rfl hr).elim Or.inl fun h => Or.inl (by rw [h.1]; exact h.2)
  | start i d => exact (hmove rfl hr).elim Or.inl fun h => Or.inl (by rw [h.1]; exact h.2)
  | body i d => exact (hmove rfl hr).elim Or.inl fun h => Or.inl (by rw [h.1]; exact h.2)
  | ended i d => exact (hmove rfl hr).elim Or.inl fun h => Or.inl (by rw [h.1]; exact h.2)
  | _ => exact Or.inl hr

/-! ## The accounting holds exactly without exceptions -/

/-- A call that counts is in `Submit`, or its task is live, or its task threw. -/
theorem ScopeInv.counts_eq (hI : ScopeInv cfg s) (hb : c ∈ s.begun) :
    (s.submits c).counts.toNat =
      (s.inSubmit c).toNat + (s.live c).toNat + (s.threw c).toNat := by
  have h := hI.submits c
  have hbegun := h.begun.mp hb
  cases ha : (s.dispatcher.calls c).accepted with
  | true =>
      have hne : (s.submits c).pc ≠ .idle := fun he => by simp [he, SubmitPc.hasBegun] at hbegun
      rcases SubmitPc.cases_of_accepted h.agrees ha hne with hpc | hpc <;>
        cases hw : (s.submits c).wrapped with
        | finished b => cases b <;> simp [Submission.counts, ScopedDispatcher.inSubmit,
            ScopedDispatcher.live, ScopedDispatcher.threw, ScopedDispatcher.accepted, hpc, hw, ha,
            WrappedPc.isFinished]
        | _ => simp [Submission.counts, ScopedDispatcher.inSubmit, ScopedDispatcher.live,
            ScopedDispatcher.threw, ScopedDispatcher.accepted, hpc, hw, ha, WrappedPc.isFinished]
  | false =>
      have hq := h.queued ha
      have hag := h.agrees
      cases hpc : (s.submits c).pc with
      | idle | beginTask => simp [hpc, SubmitPc.hasBegun] at hbegun
      | returned r =>
          cases r with
          | true =>
              rw [hpc] at hag
              have hret : s.dispatcher.calls c = .returned true := by
                simpa [SubmitPc.agrees] using hag
              rw [hret] at ha
              cases ha
          | false => simp [Submission.counts, ScopedDispatcher.inSubmit, ScopedDispatcher.live,
              ScopedDispatcher.threw, ScopedDispatcher.accepted, hpc, hq, ha]
      | _ => simp [Submission.counts, ScopedDispatcher.inSubmit, ScopedDispatcher.live,
          ScopedDispatcher.threw, ScopedDispatcher.accepted, hpc, hq, ha]

/-- What `mInFlight` really is. -/
theorem ScopeInv.mInFlight_eq (hI : ScopeInv cfg s) :
    s.scope.mInFlight =
      s.begun.countP s.inSubmit + s.begun.countP s.live + s.begun.countP s.threw :=
  hI.balance.trans (Tally.countP_eq_add fun _ hb => hI.counts_eq hb)

/-- No body has thrown. -/
def NothingThrown (s : ScopedDispatcher) : Prop := ∀ c, s.threw c = false

/-- A task that threw belongs to a call that has begun. -/
theorem ScopeInv.begun_of_threw (hI : ScopeInv cfg s) (ht : s.threw c = true) : c ∈ s.begun := by
  have h := hI.submits c
  have hw : (s.submits c).wrapped = .finished true := by simpa [ScopedDispatcher.threw] using ht
  have hne : (s.submits c).pc ≠ .idle := fun he => by simp [h.idle he] at hw
  have ha := h.started (by simp [hw])
  rcases SubmitPc.cases_of_accepted h.agrees ha hne with hpc | hpc <;>
    exact h.begun.mpr (by rw [hpc]; rfl)

/-- The accounting holds exactly when no body has thrown. -/
theorem ScopeInv.accounts_iff (hI : ScopeInv cfg s) : Accounts s ↔ NothingThrown s := by
  have heq := hI.mInFlight_eq
  constructor
  · intro hacc c
    have hbal := hacc.balance
    have hzero : s.begun.countP s.threw = 0 := by omega
    by_contra ht
    have ht' : s.threw c = true := by simpa using ht
    exact List.countP_eq_zero.mp hzero c (hI.begun_of_threw ht') ht'
  · intro hno
    have hzero : s.begun.countP s.threw = 0 :=
      List.countP_eq_zero.mpr fun c _ => by simp [hno c]
    have hbal : s.scope.mInFlight = s.begun.countP s.inSubmit + s.begun.countP s.live := by omega
    refine ⟨hbal, fun hsub hran => ?_⟩
    have h1 : s.begun.countP s.inSubmit = 0 :=
      List.countP_eq_zero.mpr fun c hc => by simp [hsub c hc]
    have h2 : s.begun.countP s.live = 0 := by
      refine List.countP_eq_zero.mpr fun c hc hlive => ?_
      obtain ⟨ha, hover⟩ := Bool.and_eq_true_iff.mp hlive
      have hb := (hI.submits c).begun.mp hc
      have hne : (s.submits c).pc ≠ .idle := fun he => by simp [he, SubmitPc.hasBegun] at hb
      have := (hI.submits c).finished hne (Or.inl (hran c hc ha))
      simp [this] at hover
    omega

/-- Whether a task has thrown changes only when its body throws. -/
theorem ScopeInv.threw_cases {a : ScopeAct} (hI : ScopeInv cfg s)
    (hs : scopeStep cfg s a = some s') (c : Nat) :
    s'.threw c = s.threw c ∨ (noThrow s a = false ∧ s'.threw c = true) := by
  have hmove : ∀ {t : ScopedDispatcher} {d : Nat} {x : Submission}, t.submits = s.submits →
      decide (x.wrapped = .finished true) = decide ((s.submits d).wrapped = .finished true) →
      (t.setSubmit d x).threw c = s.threw c := by
    intro t d x ht hx
    rw [ScopedDispatcher.threw, ScopedDispatcher.threw, ScopedDispatcher.setSubmit, ht]
    by_cases hcd : c = d
    · subst hcd
      simpa using hx
    · simp [hcd]
  cases scopeStep_effect hs with
  | call d hpc _ => exact Or.inl (hmove rfl (by simp [(hI.submits d).idle hpc]))
  | beginTask d hpc => exact Or.inl (hmove rfl rfl)
  | cancelled d hpc _ => exact Or.inl (hmove rfl rfl)
  | admitted d hpc _ => exact Or.inl (hmove rfl rfl)
  | dispatch d k hpc _ => exact Or.inl (hmove rfl rfl)
  | accepted d hpc _ => exact Or.inl (hmove rfl rfl)
  | refused d hpc _ => exact Or.inl (hmove rfl rfl)
  | undone d hpc => exact Or.inl (hmove rfl rfl)
  | skip i d t hw hne hq _ => exact Or.inl (hmove rfl (by simp [hq]))
  | start i d t hw hne hq _ => exact Or.inl (hmove rfl (by simp [hq]))
  | body i d t hw hne hq =>
      cases t with
      | false => exact Or.inl (hmove rfl (by simp [hq]))
      | true =>
          by_cases hcd : c = d
          · subst hcd
            exact Or.inr ⟨by simp [noThrow, hw, hq],
              by simp [ScopedDispatcher.threw, ScopedDispatcher.setSubmit]⟩
          · exact Or.inl (by simp [ScopedDispatcher.threw, ScopedDispatcher.setSubmit, hcd])
  | ended i d t hw hne hq => exact Or.inl (hmove rfl (by simp [hq]))
  | _ => exact Or.inl rfl

/-- A step that ends a body with an exception leaves a task that threw. -/
theorem thrown_of_not_noThrow {a : ScopeAct} (hs : scopeStep cfg s a = some s')
    (hno : noThrow s a = false) : ¬ NothingThrown s' := by
  intro hN
  cases a with
  | run i t =>
      simp only [noThrow] at hno
      split at hno
      next c hw =>
        simp only [ne_eq, decide_not, Bool.or_eq_false_iff, Bool.not_eq_false',
          decide_eq_true_eq] at hno
        obtain ⟨hbody, rfl⟩ := hno
        cases scopeStep_effect hs with
        | skip _ d _ hw' hne hq => rw [hw] at hw'; cases hw'; simp [hbody] at hq
        | start _ d _ hw' hne hq => rw [hw] at hw'; cases hw'; simp [hbody] at hq
        | ended _ d _ hw' hne hq => rw [hw] at hw'; cases hw'; simp [hbody] at hq
        | body _ d _ hw' hne hq =>
            rw [hw] at hw'
            cases hw'
            have := hN c
            simp [ScopedDispatcher.threw, ScopedDispatcher.setSubmit] at this
      · cases hno
  | _ => cases hno

/-- A run keeps the accounting exactly when no body throws in it. -/
theorem accounts_iff_noThrow (cfg : DispatcherConfig) (as : List ScopeAct) (s : ScopedDispatcher)
    (hrun : Machine.run (scopeStep cfg) {} as = some s) :
    Accounts s ↔ Machine.Meets (scopeStep cfg) (fun s a => noThrow s a) {} as := by
  have hI : ScopeInv cfg s :=
    Machine.run_invariant (fun _ _ _ hI hs => hI.step hs) (scopeInv_init cfg) hrun
  rw [hI.accounts_iff]
  constructor
  · intro hN
    refine Machine.meets_of_run (I := ScopeInv cfg) (B := fun s => ¬ NothingThrown s)
      (fun _ _ _ hI hs => hI.step hs) ?_ ?_ (scopeInv_init cfg) hrun (not_not_intro hN)
    · exact fun _ _ _ _ hno hs => thrown_of_not_noThrow hs (by simpa using hno)
    · intro t a t' ht hB hs hN'
      refine hB fun c => ?_
      rcases ht.threw_cases hs c with heq | ⟨-, htrue⟩
      · rw [← heq]
        exact hN' c
      · rw [hN' c] at htrue
        cases htrue
  · intro hok
    have := Machine.run_invariant_of_meets (I := fun s => ScopeInv cfg s ∧ NothingThrown s)
      ?_ ⟨scopeInv_init cfg, fun _ => rfl⟩ hok hrun
    · exact this.2
    · rintro t a t' ⟨ht, hN⟩ hno hs
      refine ⟨ht.step hs, fun c => ?_⟩
      rcases ht.threw_cases hs c with heq | ⟨hbad, -⟩
      · rw [heq]
        exact hN c
      · rw [hno] at hbad
        cases hbad

/-- A `Submit` call brings a task to the worker, which starts it. -/
def submitTrace : List ScopeAct :=
  List.flatten
    [[.call 0], List.replicate 3 (.submit 0), List.replicate 12 (.dispatcher (.dispatch 0 false)),
      [.submit 0], List.replicate 5 (.dispatcher (.work 0 false false)), [.run 0 false]]

/-- The body returns. -/
def returningTrace : List ScopeAct :=
  submitTrace ++ [.run 0 false, .run 0 false] ++
    List.replicate 2 (.dispatcher (.work 0 false false))

/-- Once the task has run, `mInFlight` is zero. -/
theorem accounts_returningTrace :
    ∃ s, Machine.run (scopeStep oneWorker) {} returningTrace = some s ∧
      (s.submits 0).pc = .returned true ∧ s.dispatcher.finished = [0] ∧
      s.scope.mInFlight = 0 ∧ Accounts s :=
  ⟨_, rfl, rfl, rfl, rfl, (accounts_iff_noThrow oneWorker returningTrace _ rfl).mpr (by decide)⟩

/-- The body throws. -/
def throwingTrace : List ScopeAct :=
  submitTrace ++ [.run 0 true] ++ List.replicate 2 (.dispatcher (.work 0 false true))

/-- The only task has run and been counted as failed, and `mInFlight` is 1. -/
theorem throwing_leaks_inFlight :
    ∃ s, Machine.run (scopeStep oneWorker) {} throwingTrace = some s ∧
      s.begun = [0] ∧ (s.submits 0).pc = .returned true ∧ s.dispatcher.finished = [0] ∧
      s.dispatcher.mFailed = 1 ∧ s.scope.mInFlight = 1 ∧ ¬ Accounts s := by
  refine ⟨_, rfl, rfl, rfl, rfl, rfl, rfl, fun h => ?_⟩
  have hbal := h.balance
  revert hbal
  decide

end

end NetworkModule.Concurrency
