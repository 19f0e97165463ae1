import NetworkModule.Network.LinuxEngine
import Mathlib

/-!
# The order of a session's events

For each session the application should see `Connected`, then any number of
`DataReceived`, then `Disconnected`, and nothing after it.  The events come out of the
tasks of the session, in the order in which the dispatcher accepted these, and out of
`ProcessSendCompletion`, which fires `DataSent` on the spot.

The accept thread does not look at the dispatcher's answer for the `Connected` task.
And between the acceptance of a `Disconnected` task and the cancellation of the scope,
other threads may get further tasks of the session accepted.  `events_ordered` says
that nothing else goes wrong: if the `Connected` task is accepted and is the first, no
task follows a `Disconnected` task unless the scope is cancelled by then, and no
`DataSent` is fired once `Disconnected` has been, then the events are in order.
-/

namespace NetworkModule.LinuxEngine

/-! ## Order -/

/-- The events are a beginning of `Connected`, some `DataReceived`, `Disconnected`, with
`DataSent` in between, and nothing follows `Disconnected`. -/
def Ordered (events : List NetworkEvent) : Prop :=
  (∃ n, events.filter (· != .dataSent) <+:
      .connected :: (List.replicate n .dataReceived ++ [.disconnected])) ∧
    ∀ before after, events = before ++ .disconnected :: after → after = []

/-- The `Connected` task of session `me` is accepted, and no other task of it before
that.  Then a task is accepted only if no `Disconnected` task was, or if it will be
skipped because the scope is cancelled.  `DataSent` is fired only before
`Disconnected`. -/
def inOrder (me : Nat) (s : Engine) : EngineAct → Bool
  | .acceptStep ok =>
      s.sessions[me]?.all fun x =>
        (s.accepting != some (me, .connected) || (ok && x.dispatched.isEmpty)) &&
          (s.accepting != some (me, .disconnected) || !ok ||
            (!x.dispatched.isEmpty && !x.dispatched.any Task.disconnects))
  | .thread k ok =>
      s.threads[k]?.all fun th => th.sess != me || s.sessions[me]?.all fun x =>
        match th.pc with
        | .dispatch _ _ =>
            !ok || (!x.dispatched.isEmpty && (x.mCancelled || !x.dispatched.any Task.disconnects))
        | .dataSent => !x.events.contains .disconnected
        | _ => true
  | _ => true

/-! ## The tasks that are due -/

/-- The tasks whose events may still come, with the running one first. -/
def Sess.due (x : Sess) : List Task :=
  match x.running with
  | none => x.tasks
  | some (.cancelledTest task) | some (.body task) => task :: x.tasks
  | some (.close _ chunk) | some (.fire chunk) => .data chunk :: x.tasks

/-- These tasks will be skipped. -/
def Dead (cancelled : Bool) (tasks : List Task) : Prop :=
  ∀ task ∈ tasks, task.scoped = true ∧ cancelled = true

/-- Received data, and then at most one task that fires `Disconnected` and is not
skipped. -/
def InTail (cancelled : Bool) : List Task → Prop
  | [] => True
  | .connected :: _ => False
  | .data _ :: tasks => InTail cancelled tasks
  | .disconnected :: tasks | .teardown :: tasks => Dead cancelled tasks

/-- The events so far, and what may follow them. -/
inductive Stage (x : Sess) : Prop where
  /-- Nothing has been dispatched. -/
  | unborn (events : x.events.filter (· != .dataSent) = []) (dispatched : x.dispatched = [])
      (due : x.due = [])
  /-- `Connected` is the first task. -/
  | new (events : x.events.filter (· != .dataSent) = []) (rest : List Task)
      (due : x.due = .connected :: rest) (tail : InTail x.mCancelled rest)
  /-- `Connected` has been fired. -/
  | up (n : Nat)
      (events : x.events.filter (· != .dataSent) = .connected :: List.replicate n .dataReceived)
      (tail : InTail x.mCancelled x.due)
  /-- `Disconnected` has been fired. -/
  | down (n : Nat) (before : List NetworkEvent) (events : x.events = before ++ [.disconnected])
      (ordered : before.filter (· != .dataSent) = .connected :: List.replicate n .dataReceived)
      (dead : Dead x.mCancelled x.due) (idle : ∀ pc, x.running = some pc → ∃ t, pc = .cancelledTest t)

/-- The events of a session are in order and will be. -/
structure OrderInv (x : Sess) : Prop where
  stage : Stage x
  /-- Without a task there is no event of one. -/
  none_dispatched : x.dispatched = [] → x.events.filter (· != .dataSent) = [] ∧ x.due = []
  /-- Without a `Disconnected` task none is due and no event was fired. -/
  none_seen : x.dispatched.any Task.disconnects = false →
    (∀ task ∈ x.due, task.disconnects = false) ∧ NetworkEvent.disconnected ∉ x.events
  /-- Only the wrapper of a scoped task tests the scope. -/
  wrapped : ∀ task, x.running = some (.cancelledTest task) → task.scoped = true

section
variable {x x' : Sess} {cancelled : Bool} {tasks : List Task} {task : Task}

theorem inTail_of_dead (h : Dead cancelled tasks) : InTail cancelled tasks := by
  induction tasks with
  | nil => exact trivial
  | cons task tasks ih =>
      have htail : Dead cancelled tasks := fun t ht => h t (List.mem_cons_of_mem task ht)
      cases task with
      | connected => exact absurd (h .connected (List.mem_cons_self ..)).1 Bool.false_ne_true
      | data chunk => exact ih htail
      | disconnected | teardown => exact htail

theorem Dead.cancel (h : Dead cancelled tasks) : Dead true tasks := fun t ht => ⟨(h t ht).1, rfl⟩

theorem InTail.cancel (h : InTail cancelled tasks) : InTail true tasks := by
  induction tasks with
  | nil => exact trivial
  | cons task tasks ih =>
      cases task with
      | connected => exact h
      | data chunk => exact ih h
      | disconnected | teardown => exact Dead.cancel h

theorem Dead.concat (h : Dead cancelled tasks) (hscoped : task.scoped = true)
    (hcancelled : cancelled = true) : Dead cancelled (tasks ++ [task]) := by
  intro t ht
  rcases List.mem_append.mp ht with ht | ht
  · exact h t ht
  · rw [List.mem_singleton.mp ht]
    exact ⟨hscoped, hcancelled⟩

/-- A task is accepted while no `Disconnected` task is due, or it will be skipped. -/
theorem InTail.concat (h : InTail cancelled tasks) (htask : task ≠ .connected)
    (hok : (∀ t ∈ tasks, t.disconnects = false) ∨ (task.scoped = true ∧ cancelled = true)) :
    InTail cancelled (tasks ++ [task]) := by
  induction tasks with
  | nil =>
      cases task with
      | connected => exact absurd rfl htask
      | data chunk => exact trivial
      | disconnected | teardown => exact fun t ht => by cases ht
  | cons first tasks ih =>
      cases first with
      | connected => exact h
      | data chunk =>
          refine ih h (hok.imp_left fun hno t ht => hno t (List.mem_cons_of_mem _ ht))
      | disconnected | teardown =>
          rcases hok with hno | ⟨hscoped, hcancelled⟩
          · exact absurd (hno _ (List.mem_cons_self ..)) (by simp [Task.disconnects])
          · exact Dead.concat h hscoped hcancelled

/-- Dropping the first task. -/
theorem InTail.rest (h : InTail cancelled (task :: tasks)) : InTail cancelled tasks := by
  cases task with
  | connected => exact absurd h id
  | data chunk => exact h
  | disconnected | teardown => exact inTail_of_dead h

/-! ## Each step keeps the order -/

theorem orderInv_init : OrderInv {} where
  stage := .unborn rfl rfl rfl
  none_dispatched _ := ⟨rfl, rfl⟩
  none_seen _ := ⟨(fun _ h => by cases h), by simp⟩
  wrapped _ h := by cases h

/-- A step that leaves the tasks, the scope and the events alone. -/
theorem OrderInv.congr (h : OrderInv x) (hcancelled : x'.mCancelled = x.mCancelled)
    (htasks : x'.tasks = x.tasks) (hrunning : x'.running = x.running)
    (hevents : x'.events = x.events) (hdispatched : x'.dispatched = x.dispatched) : OrderInv x' := by
  have hdue : x'.due = x.due := by rw [Sess.due, hrunning, htasks, Sess.due]
  obtain ⟨hstage, hnone, hseen, hwrapped⟩ := h
  refine ⟨?_, by rw [hdispatched, hevents, hdue]; exact hnone,
    by rw [hdispatched, hevents, hdue]; exact hseen, by rw [hrunning]; exact hwrapped⟩
  cases hstage with
  | unborn events dispatched due =>
      exact .unborn (hevents ▸ events) (hdispatched ▸ dispatched) (hdue ▸ due)
  | new events rest due tail => exact .new (hevents ▸ events) rest (hdue ▸ due) (hcancelled ▸ tail)
  | up n events tail => exact .up n (hevents ▸ events) (by rw [hcancelled, hdue]; exact tail)
  | down n before events ordered dead idle =>
      exact .down n before (hevents ▸ events) ordered (by rw [hcancelled, hdue]; exact dead)
        (hrunning ▸ idle)

theorem due_push (x : Sess) (task : Task) : (x.push task).due = x.due ++ [task] := by
  simp only [Sess.due, Sess.push]
  split <;> rfl

/-- The `Connected` task is accepted. -/
theorem OrderInv.push_connected (h : OrderInv x) (hfirst : x.dispatched = []) :
    OrderInv (x.push .connected) := by
  obtain ⟨hevents, hdue⟩ := h.none_dispatched hfirst
  have hdue' : (x.push .connected).due = [.connected] := by rw [due_push, hdue, List.nil_append]
  refine ⟨.new hevents [] hdue' trivial, fun hno => ?_, fun _ => ⟨fun t ht => ?_, fun hmem => ?_⟩,
    h.wrapped⟩
  · simp [Sess.push] at hno
  · rw [hdue'] at ht
    rw [List.mem_singleton.mp ht]
    rfl
  · have hmem' : NetworkEvent.disconnected ∈ x.events.filter (· != .dataSent) :=
      List.mem_filter.mpr ⟨hmem, rfl⟩
    rw [hevents] at hmem'
    cases hmem'

/-- Another task is accepted. -/
theorem OrderInv.push (h : OrderInv x) (htask : task ≠ .connected) (hfirst : x.dispatched ≠ [])
    (hok : x.dispatched.any Task.disconnects = false ∨ (task.scoped = true ∧ x.mCancelled = true)) :
    OrderInv (x.push task) := by
  have hdue := due_push x task
  have hok' : (∀ t ∈ x.due, t.disconnects = false) ∨ (task.scoped = true ∧ x.mCancelled = true) :=
    hok.imp_left fun hno => (h.none_seen hno).1
  refine ⟨?_, fun hno => ?_, fun hno => ?_, h.wrapped⟩
  · cases h.stage with
    | unborn events dispatched due => exact absurd dispatched hfirst
    | new events rest due tail =>
        refine .new events (rest ++ [task]) (by rw [hdue, due, List.cons_append]) ?_
        refine tail.concat htask (hok'.imp_left fun hno t ht => hno t ?_)
        rw [due]
        exact List.mem_cons_of_mem _ ht
    | up n events tail =>
        refine .up n events ?_
        rw [hdue]
        exact tail.concat htask hok'
    | down n before events ordered dead idle =>
        have hskip : task.scoped = true ∧ x.mCancelled = true := by
          rcases hok with hno | hskip
          · refine absurd ?_ (h.none_seen hno).2
            rw [events]
            exact List.mem_append_right _ (List.mem_singleton.mpr rfl)
          · exact hskip
        refine .down n before events ordered ?_ idle
        rw [hdue]
        exact dead.concat hskip.1 hskip.2
  · simp [Sess.push] at hno
  · simp only [Sess.push, List.any_append, List.any_cons, List.any_nil, Bool.or_false,
      Bool.or_eq_false_iff] at hno
    obtain ⟨hold, hnew⟩ := hno
    obtain ⟨hnone, hevents⟩ := h.none_seen hold
    refine ⟨fun t ht => ?_, hevents⟩
    rw [hdue] at ht
    rcases List.mem_append.mp ht with ht | ht
    · exact hnone t ht
    · rw [List.mem_singleton.mp ht]
      exact hnew

/-- The scope is cancelled. -/
theorem OrderInv.cancel (h : OrderInv x) : OrderInv { x with mCancelled := true } := by
  refine ⟨?_, h.none_dispatched, h.none_seen, h.wrapped⟩
  cases h.stage with
  | unborn events dispatched due => exact .unborn events dispatched due
  | new events rest due tail => exact .new events rest due tail.cancel
  | up n events tail => exact .up n events tail.cancel
  | down n before events ordered dead idle => exact .down n before events ordered dead.cancel idle

theorem filter_dataSent (events : List NetworkEvent) :
    (events ++ [NetworkEvent.dataSent]).filter (· != .dataSent) = events.filter (· != .dataSent) := by
  simp

/-- `DataSent` is fired before `Disconnected`. -/
theorem OrderInv.dataSent (h : OrderInv x) (hno : NetworkEvent.disconnected ∉ x.events) :
    OrderInv (x.fireEvent .dataSent) := by
  have hevents := filter_dataSent x.events
  refine ⟨?_, fun hd => ?_, fun hd => ⟨(h.none_seen hd).1, ?_⟩, h.wrapped⟩
  · cases h.stage with
    | unborn events dispatched due => exact .unborn (hevents.trans events) dispatched due
    | new events rest due tail => exact .new (hevents.trans events) rest due tail
    | up n events tail => exact .up n (hevents.trans events) tail
    | down n before events ordered dead idle =>
        refine absurd ?_ hno
        rw [events]
        exact List.mem_append_right _ (List.mem_singleton.mpr rfl)
  · exact ⟨hevents.trans (h.none_dispatched hd).1, (h.none_dispatched hd).2⟩
  · simpa [Sess.fireEvent] using hno

/-! ## The logic worker -/

/-- The logic worker takes the first task. -/
theorem OrderInv.start (h : OrderInv x) (hidle : x.running = none) (htasks : x.tasks = task :: tasks) :
    OrderInv { x with
      tasks := tasks
      running := some (if task.scoped then .cancelledTest task else .body task) } := by
  have hdue : x.due = task :: tasks := by rw [Sess.due, hidle, htasks]
  have hdue' : Sess.due { x with
      tasks := tasks
      running := some (if task.scoped then .cancelledTest task else .body task) } = x.due := by
    rw [hdue]
    cases hscoped : task.scoped <;> simp [Sess.due]
  refine ⟨?_, by rw [hdue']; exact h.none_dispatched, by rw [hdue']; exact h.none_seen, fun t ht => ?_⟩
  · cases h.stage with
    | unborn events dispatched due =>
        rw [hdue] at due
        cases due
    | new events rest due tail => exact .new events rest (hdue'.trans due) tail
    | up n events tail => exact .up n events (by rw [hdue']; exact tail)
    | down n before events ordered dead idle =>
        refine .down n before events ordered (by rw [hdue']; exact dead) fun pc hpc => ?_
        have hscoped : task.scoped = true := (dead task (by rw [hdue]; exact List.mem_cons_self ..)).1
        simp only [hscoped, if_true, Option.some.injEq] at hpc
        exact ⟨task, hpc.symm⟩
  · cases hscoped : task.scoped with
    | false => simp [hscoped] at ht
    | true =>
        simp only [hscoped, if_true, Option.some.injEq, RunPc.cancelledTest.injEq] at ht
        exact ht ▸ hscoped

/-- The running task is over. -/
theorem OrderInv.finish (h : OrderInv x) (hdue : x.due = task :: x.tasks) (hstage : Stage x')
    (htasks : x'.tasks = x.tasks) (hidle : x'.running = none)
    (hdispatched : x'.dispatched = x.dispatched)
    (hevents : NetworkEvent.disconnected ∈ x'.events →
      NetworkEvent.disconnected ∈ x.events ∨ task.disconnects = true) : OrderInv x' := by
  have hdue' : x'.due = x.tasks := by rw [Sess.due, hidle, htasks]
  refine ⟨hstage, fun hd => ?_, fun hd => ?_, fun t ht => ?_⟩
  · have hnil := (h.none_dispatched (hdispatched ▸ hd)).2
    rw [hdue] at hnil
    cases hnil
  · obtain ⟨hnone, hno⟩ := h.none_seen (hdispatched ▸ hd)
    rw [hdue] at hnone
    refine ⟨fun t ht => hnone t (List.mem_cons_of_mem _ (hdue' ▸ ht)), fun hmem => ?_⟩
    rcases hevents hmem with hmem | hdis
    · exact hno hmem
    · rw [hnone task (List.mem_cons_self ..)] at hdis
      cases hdis
  · rw [hidle] at ht
    cases ht

/-- A task of a cancelled scope is skipped. -/
theorem OrderInv.skip (h : OrderInv x) (hrun : x.running = some (.cancelledTest task)) :
    OrderInv { x with running := none } := by
  have hdue : x.due = task :: x.tasks := by rw [Sess.due, hrun]
  refine h.finish hdue ?_ rfl rfl rfl Or.inl
  cases h.stage with
  | unborn events dispatched due =>
      rw [hdue] at due
      cases due
  | new events rest due tail =>
      rw [hdue] at due
      obtain ⟨rfl, -⟩ := List.cons.inj due
      exact absurd (h.wrapped _ hrun) Bool.false_ne_true
  | up n events tail =>
      rw [hdue] at tail
      exact .up n events tail.rest
  | down n before events ordered dead idle =>
      rw [hdue] at dead
      exact .down n before events ordered (fun t ht => dead t (List.mem_cons_of_mem _ ht))
        fun _ hpc => by cases hpc

/-- A task that is past the test of its scope runs after `Connected` and before
`Disconnected`. -/
theorem OrderInv.is_up (h : OrderInv x) {pc : RunPc} (hrun : x.running = some pc)
    (hpc : ∀ t, pc ≠ .cancelledTest t) (hdue : x.due = task :: x.tasks) (htask : task ≠ .connected) :
    ∃ n, x.events.filter (· != .dataSent) = .connected :: List.replicate n .dataReceived ∧
      InTail x.mCancelled (task :: x.tasks) := by
  cases h.stage with
  | unborn events dispatched due =>
      rw [hdue] at due
      cases due
  | new events rest due tail =>
      rw [hdue] at due
      exact absurd (List.cons.inj due).1 htask
  | up n events tail => exact ⟨n, events, hdue ▸ tail⟩
  | down n before events ordered dead idle =>
      obtain ⟨t, ht⟩ := idle pc hrun
      exact absurd ht (hpc t)

/-- The running task goes on without an event. -/
theorem OrderInv.move (h : OrderInv x) {pc : RunPc} (hrun : x.running = some pc)
    (hscope : ∀ t, pc = .cancelledTest t → x.mCancelled = false)
    (hdue : x.due = task :: x.tasks) (hdue' : x'.due = task :: x.tasks)
    (hcancelled : x'.mCancelled = x.mCancelled) (hevents : x'.events = x.events)
    (hdispatched : x'.dispatched = x.dispatched)
    (hrunning : ∀ t, x'.running ≠ some (.cancelledTest t)) : OrderInv x' := by
  refine ⟨?_, fun hd => ?_, fun hd => ?_, fun t ht => absurd ht (hrunning t)⟩
  · cases h.stage with
    | unborn events dispatched due =>
        rw [hdue] at due
        cases due
    | new events rest due tail =>
        exact .new (hevents ▸ events) rest (hdue'.trans (hdue.symm.trans due)) (hcancelled ▸ tail)
    | up n events tail =>
        refine .up n (hevents ▸ events) ?_
        rw [hdue', hcancelled, ← hdue]
        exact tail
    | down n before events ordered dead idle =>
        obtain ⟨t, ht⟩ := idle pc hrun
        have hyes := (dead task (by rw [hdue]; exact List.mem_cons_self ..)).2
        rw [hscope t ht] at hyes
        cases hyes
  · have hnil := (h.none_dispatched (hdispatched ▸ hd)).2
    rw [hdue] at hnil
    cases hnil
  · obtain ⟨hnone, hno⟩ := h.none_seen (hdispatched ▸ hd)
    exact ⟨fun t ht => hnone t (by rw [hdue, ← hdue']; exact ht), by rw [hevents]; exact hno⟩

/-- `Connected` is fired. -/
theorem OrderInv.fire_connected (h : OrderInv x) (hrun : x.running = some (.body .connected)) :
    OrderInv { x.fireEvent .connected with running := none } := by
  have hdue : x.due = .connected :: x.tasks := by rw [Sess.due, hrun]
  refine h.finish hdue ?_ rfl rfl rfl fun hmem => ?_
  · cases h.stage with
    | unborn events dispatched due =>
        rw [hdue] at due
        cases due
    | new events rest due tail =>
        rw [hdue] at due
        obtain ⟨-, rfl⟩ := List.cons.inj due
        refine .up 0 ?_ tail
        simp [Sess.fireEvent, events]
    | up n events tail =>
        rw [hdue] at tail
        exact absurd tail id
    | down n before events ordered dead idle =>
        obtain ⟨t, ht⟩ := idle _ hrun
        cases ht
  · exact Or.inl (by simpa [Sess.fireEvent] using hmem)

/-- `Disconnected` is fired. -/
theorem OrderInv.fire_disconnected (h : OrderInv x) (hrun : x.running = some (.body task))
    (htask : task.disconnects = true) :
    OrderInv { x.fireEvent .disconnected with running := none } := by
  have hdue : x.due = task :: x.tasks := by rw [Sess.due, hrun]
  have hne : task ≠ .connected := by
    rintro rfl
    cases htask
  refine h.finish hdue ?_ rfl rfl rfl fun _ => Or.inr htask
  obtain ⟨n, hevents, htail⟩ := h.is_up hrun (fun _ h => by cases h) hdue hne
  have hdead : Dead x.mCancelled x.tasks := by
    cases task with
    | connected | data chunk => cases htask
    | disconnected | teardown => exact htail
  exact .down n x.events rfl hevents hdead fun _ hpc => by cases hpc

/-- `DataReceived` is fired. -/
theorem OrderInv.fire_dataReceived (h : OrderInv x) {chunk : List UInt8}
    (hrun : x.running = some (.fire chunk)) :
    OrderInv { x.fireEvent .dataReceived with running := none } := by
  have hdue : x.due = .data chunk :: x.tasks := by rw [Sess.due, hrun]
  refine h.finish hdue ?_ rfl rfl rfl fun hmem => Or.inl (by simpa [Sess.fireEvent] using hmem)
  obtain ⟨n, hevents, htail⟩ := h.is_up hrun (fun _ h => by cases h) hdue (fun h => by cases h)
  refine .up (n + 1) ?_ htail
  simp [Sess.fireEvent, hevents, List.replicate_succ']

/-- A step of `Close`. -/
theorem OrderInv.closeStep (h : OrderInv x) (pc : ClosePc) : OrderInv (pc.step x).1 := by
  cases pc with
  | exchange =>
      simp only [ClosePc.step]
      split
      · exact h
      · exact h.congr rfl rfl rfl rfl rfl
  | cleanup => exact h.congr rfl rfl rfl rfl rfl
  | cancel => exact h.cancel

theorem closeStep_frame (x : Sess) (pc : ClosePc) : (pc.step x).1.tasks = x.tasks ∧
    (pc.step x).1.running = x.running ∧ (pc.step x).1.events = x.events ∧
    (pc.step x).1.dispatched = x.dispatched := by
  cases pc with
  | exchange =>
      simp only [ClosePc.step]
      split <;> exact ⟨rfl, rfl, rfl, rfl⟩
  | cleanup | cancel => exact ⟨rfl, rfl, rfl, rfl⟩

theorem OrderInv.logic (h : OrderInv x) (hs : x.logic = some x') : OrderInv x' := by
  unfold Sess.logic at hs
  split at hs
  next hidle =>
    split at hs
    · cases hs
    next task rest htasks =>
      cases hs
      exact h.start hidle htasks
  next task hrun =>
    cases hs
    by_cases hc : x.mCancelled = true
    · rw [if_pos hc]
      exact h.skip hrun
    · rw [if_neg hc]
      have hdue : x.due = task :: x.tasks := by rw [Sess.due, hrun]
      exact h.move hrun (fun _ _ => by simpa using hc) hdue rfl rfl rfl rfl fun t ht => by cases ht
  next hrun =>
    cases hs
    exact h.fire_connected hrun
  next hrun =>
    cases hs
    exact h.fire_disconnected hrun rfl
  next hrun =>
    cases hs
    exact h.fire_disconnected hrun rfl
  next chunk hrun =>
    cases hs
    have hdue : x.due = .data chunk :: x.tasks := by rw [Sess.due, hrun]
    refine h.move hrun (fun _ h => by cases h) hdue ?_ rfl rfl rfl fun t ht => ?_
    · cases (x.processRawRecv chunk).2 <;> rfl
    · cases hclose : (x.processRawRecv chunk).2 <;> rw [hclose] at ht <;> cases ht
  next pc chunk hrun =>
    cases hs
    obtain ⟨htasks, hrunning, hevents, hdispatched⟩ := closeStep_frame x pc
    rw [hrun] at hrunning
    have hdue : (pc.step x).1.due = .data chunk :: (pc.step x).1.tasks := by
      rw [Sess.due, hrunning]
    refine (h.closeStep pc).move hrunning (fun _ h => by cases h) hdue ?_ rfl rfl rfl fun t ht => ?_
    · cases (pc.step x).2 <;> rfl
    · cases hnext : (pc.step x).2 <;> rw [hnext] at ht <;> cases ht
  next chunk hrun =>
    cases hs
    exact h.fire_dataReceived hrun

end

/-! ## Threads and runs -/

/-- A thread submits scoped tasks only. -/
def ThreadPc.submitsScoped : ThreadPc → Bool
  | .cancelledTest task _ | .dispatch task _ => task.scoped
  | _ => true

/-- The events of session `me` are in order and will be. -/
structure EngineOrder (me : Nat) (s : Engine) : Prop where
  order : ∀ x, s.sessions[me]? = some x → OrderInv x
  threads : ∀ th ∈ s.threads, th.pc.submitsScoped = true

section
variable {me : Nat} {s s' : Engine} {x x' : Sess} {ok : Bool} {pc pc' : ThreadPc}

theorem submitsScoped_step (h : pc.step x ok = some (x', pc')) (hpc : pc.submitsScoped = true) :
    pc'.submitsScoped = true := by
  have hresume : ∀ after : After, after.resume.submitsScoped = true := fun after => by
    cases after <;> rfl
  have hsubmit : ∀ accepted after task, (afterSubmit accepted after task).submitsScoped = true := by
    intro accepted after task
    cases task with
    | data chunk => cases accepted <;> [rfl; exact hresume after]
    | connected | disconnected | teardown => rfl
  cases pc with
  | getSession call =>
      cases h
      cases x.registered <;> cases call <;> rfl
  | connectedTest chunk after =>
      cases h
      cases x.isConnected
      · exact hresume after
      · by_cases hchunk : chunk = [] <;> simp [hchunk, ThreadPc.submitsScoped, Task.scoped]
  | cancelledTest task after =>
      cases h
      cases x.mCancelled
      · exact hpc
      · exact hsubmit false after task
  | dispatch task after =>
      cases h
      exact hsubmit ok after task
  | removeTest after =>
      cases h
      cases x.isConnected <;> rfl
  | close pc remove =>
      cases h
      cases (pc.step x).2 <;> cases remove <;> rfl
  | erase after =>
      cases h
      exact hresume after
  | requeueTest | sendTest =>
      cases h
      cases x.isConnected <;> rfl
  | queueRecv | postSend =>
      cases h
      cases ok <;> rfl
  | dataSent =>
      cases h
      rfl
  | returned => cases h

/-- A step of a thread on its session, where what it does there is in order. -/
theorem OrderInv.thread (h : OrderInv x) (hs : pc.step x ok = some (x', pc'))
    (hscoped : pc.submitsScoped = true)
    (hdispatch : ∀ task after, pc = .dispatch task after → ok = true → x.dispatched ≠ [] ∧
      (x.mCancelled = true ∨ x.dispatched.any Task.disconnects = false))
    (hsent : pc = .dataSent → NetworkEvent.disconnected ∉ x.events) : OrderInv x' := by
  cases pc with
  | dispatch task after =>
      cases hs
      cases ok with
      | false => exact h
      | true =>
          have hscoped' : task.scoped = true := hscoped
          obtain ⟨hfirst, hok⟩ := hdispatch task after rfl rfl
          refine h.push ?_ hfirst ?_
          · rintro rfl
            cases hscoped'
          · exact hok.symm.imp_right fun hc => ⟨hscoped', hc⟩
  | close pc remove =>
      cases hs
      exact h.closeStep pc
  | erase after =>
      cases hs
      exact h.congr rfl rfl rfl rfl rfl
  | dataSent =>
      cases hs
      exact h.dataSent (hsent rfl)
  | getSession call | connectedTest chunk after | cancelledTest task after | removeTest after
  | requeueTest | queueRecv | sendTest | postSend =>
      cases hs
      exact h
  | returned => cases hs

theorem EngineOrder.thread {k : Nat} (h : EngineOrder me s) (hok : inOrder me s (.thread k ok) = true)
    (hs : engineStep s (.thread k ok) = some s') : EngineOrder me s' := by
  obtain ⟨i, pc, x, x', pc', hk, hx, hstep, rfl⟩ := threadStep_cases hs
  have hscoped := h.threads _ (List.mem_of_getElem? hk)
  refine ⟨fun y hy => ?_, fun th hth => ?_⟩
  · rcases getElem?_set_cases hy with ⟨rfl, rfl⟩ | ⟨-, hy⟩
    · refine (h.order x hx).thread hstep hscoped ?_ ?_
      · rintro task after rfl rfl
        simpa [inOrder, hk, hx] using hok
      · rintro rfl
        simpa [inOrder, hk, hx] using hok
    · exact h.order y hy
  · rcases List.mem_or_eq_of_mem_set hth with hth | rfl
    · exact h.threads th hth
    · exact submitsScoped_step hstep hscoped

theorem EngineOrder.acceptStep (h : EngineOrder me s) (hok : inOrder me s (.acceptStep ok) = true)
    (hs : engineStep s (.acceptStep ok) = some s') : EngineOrder me s' := by
  obtain ⟨i, pc, x, hacc, hx, hsessions, -, hthreads⟩ := acceptStep_cases hs
  refine ⟨fun y hy => ?_, fun th hth => ?_⟩
  · rw [hsessions] at hy
    rcases getElem?_set_cases hy with ⟨rfl, rfl⟩ | ⟨-, hy⟩
    · have hold := h.order x hx
      simp only [inOrder, hx, Option.all_some, hacc] at hok
      cases pc with
      | associate | queueRecv => exact hold
      | connected =>
          have hfirst : ok = true ∧ x.dispatched = [] := by simpa using hok
          rw [AcceptPc.step, hfirst.1]
          exact hold.push_connected hfirst.2
      | disconnected =>
          cases ok with
          | false => exact hold
          | true =>
              have hnext : x.dispatched ≠ [] ∧ x.dispatched.any Task.disconnects = false := by
                simpa using hok
              exact hold.push (fun h => by cases h) hnext.1 (Or.inl hnext.2)
    · exact h.order y hy
  · rw [hthreads] at hth
    split at hth
    · rcases List.mem_append.mp hth with hth | hth
      · exact h.threads th hth
      · rw [List.mem_singleton.mp hth]
        rfl
    · exact h.threads th hth

theorem EngineOrder.step {a : EngineAct} (h : EngineOrder me s) (hok : inOrder me s a = true)
    (hs : engineStep s a = some s') : EngineOrder me s' := by
  cases a with
  | accept =>
      simp only [engineStep] at hs
      split at hs
      · cases hs
        refine ⟨fun y hy => ?_, h.threads⟩
        rcases getElem?_concat_cases hy with hy | ⟨-, rfl⟩
        · exact h.order y hy
        · exact orderInv_init
      · cases hs
  | acceptStep ok => exact h.acceptStep hok hs
  | call i call =>
      simp only [engineStep] at hs
      split at hs
      · cases hs
        refine ⟨h.order, fun th hth => ?_⟩
        rcases List.mem_append.mp hth with hth | hth
        · exact h.threads th hth
        · rw [List.mem_singleton.mp hth]
          rfl
      · cases hs
  | thread k ok => exact h.thread hok hs
  | logic i =>
      obtain ⟨x, x', hx, hstep, rfl⟩ := logicStep_cases hs
      refine ⟨fun y hy => ?_, h.threads⟩
      rcases getElem?_set_cases hy with ⟨rfl, rfl⟩ | ⟨-, hy⟩
      · exact (h.order x hx).logic hstep
      · exact h.order y hy

theorem notMem_of_filter {events : List NetworkEvent} {n : Nat}
    (h : events.filter (· != .dataSent) <+: .connected :: List.replicate n .dataReceived) :
    NetworkEvent.disconnected ∉ events := by
  intro hmem
  have hmem' : NetworkEvent.disconnected ∈ events.filter (· != .dataSent) :=
    List.mem_filter.mpr ⟨hmem, rfl⟩
  simpa using h.subset hmem'

/-- As long as `Disconnected` has not been fired. -/
theorem ordered_of_filter {events : List NetworkEvent} {n : Nat}
    (h : events.filter (· != .dataSent) <+: .connected :: List.replicate n .dataReceived) :
    Ordered events := by
  refine ⟨⟨n, h.trans ?_⟩, fun before after heq => ?_⟩
  · rw [← List.cons_append]
    exact List.prefix_append ..
  · refine absurd ?_ (notMem_of_filter h)
    rw [heq]
    exact List.mem_append_right _ (List.mem_cons_self ..)

theorem OrderInv.ordered (h : OrderInv x) : Ordered x.events := by
  cases h.stage with
  | unborn events dispatched due => exact ordered_of_filter (n := 0) (events ▸ List.nil_prefix)
  | new events rest due tail => exact ordered_of_filter (n := 0) (events ▸ List.nil_prefix)
  | up n events tail => exact ordered_of_filter (n := n) (events ▸ List.prefix_refl _)
  | down n before events ordered dead idle =>
      rw [events]
      refine ⟨⟨n, ?_⟩, fun b after heq => ?_⟩
      · rw [List.filter_append, ordered]
        exact List.prefix_refl _
      · rcases List.eq_nil_or_concat after with hnil | ⟨after', last, rfl⟩
        · exact hnil
        · -- Then the event would be in the part before it too.
          rw [List.concat_eq_append, ← List.cons_append, ← List.append_assoc] at heq
          have hbefore := (List.append_inj' heq rfl).1
          have hpre : before.filter (· != .dataSent) <+:
              .connected :: List.replicate n .dataReceived := by
            rw [ordered]
          refine absurd ?_ (notMem_of_filter hpre)
          rw [hbefore]
          exact List.mem_append_right _ (List.mem_cons_self ..)

/-- If the `Connected` task of a session is accepted and is its first, no task follows
its `Disconnected` task unless the scope is cancelled by then, and no `DataSent` is fired
after `Disconnected`, then the events of the session are in order. -/
theorem events_ordered {acts : List EngineAct}
    (hok : Machine.Meets engineStep (fun s a => inOrder me s a = true) {} acts)
    (hrun : Machine.run engineStep {} acts = some s) (hx : s.sessions[me]? = some x) :
    Ordered x.events := by
  have h : EngineOrder me s :=
    Machine.run_invariant_of_meets (fun _ _ _ h hok hs => h.step hok hs)
      ⟨fun y hy => by simp at hy, fun th hth => by cases hth⟩ hok hrun
  exact (h.order x hx).ordered

end

/-- A session is connected, receives a packet, sends, and is closed by
`CloseConnection` while another receive is being handled.  The data of that one is
refused, since the scope is cancelled. -/
def orderedTrace : List EngineAct :=
  List.flatten [[.accept], List.replicate 3 (.acceptStep true), List.replicate 2 (.logic 0),
    [.call 0 (.recvCompletion [4, 0, 1, 0])], List.replicate 6 (.thread 0 true),
    List.replicate 4 (.logic 0), [.call 0 .sendCompletion], List.replicate 3 (.thread 1 true),
    [.call 0 (.recvCompletion [4, 0, 1, 0])], List.replicate 2 (.thread 2 true),
    [.call 0 .closeConnection], List.replicate 3 (.thread 3 true), List.replicate 3 (.logic 0),
    List.replicate 5 (.thread 3 true), List.replicate 4 (.thread 2 true)]

theorem events_ordered_orderedTrace :
    ∃ s x, Machine.run engineStep {} orderedTrace = some s ∧ s.sessions[0]? = some x ∧
      x.events = [.connected, .dataReceived, .dataSent, .disconnected] ∧ Ordered x.events := by
  have hrun : (Machine.run engineStep {} orderedTrace).any (fun s =>
      s.sessions[0]?.any fun x : Sess =>
        decide (x.events = [.connected, .dataReceived, .dataSent, .disconnected])) = true := by
    decide +kernel
  obtain ⟨s, hs, hp⟩ := (Option.any_eq_true _ _).mp hrun
  obtain ⟨x, hx, hp⟩ := (Option.any_eq_true _ _).mp hp
  exact ⟨s, x, hs, hx, of_decide_eq_true hp,
    @events_ordered 0 s x orderedTrace (by decide +kernel) hs hx⟩

/-- The logic queue is full when `Connected` is dispatched, and has room again when the
first packet arrives. -/
def rejectedTrace : List EngineAct :=
  List.flatten [[.accept, .acceptStep true, .acceptStep false, .acceptStep true],
    [.call 0 (.recvCompletion [4, 0, 1, 0])], List.replicate 6 (.thread 0 true),
    List.replicate 4 (.logic 0)]

theorem not_ordered_rejectedTrace :
    ∃ s x, Machine.run engineStep {} rejectedTrace = some s ∧ s.sessions[0]? = some x ∧
      x.events = [.dataReceived] ∧ ¬ Ordered x.events := by
  have hrun : (Machine.run engineStep {} rejectedTrace).any (fun s =>
      s.sessions[0]?.any fun x : Sess => decide (x.events = [.dataReceived])) = true := by
    decide +kernel
  obtain ⟨s, hs, hp⟩ := (Option.any_eq_true _ _).mp hrun
  obtain ⟨x, hx, hp⟩ := (Option.any_eq_true _ _).mp hp
  have hevents := of_decide_eq_true hp
  refine ⟨s, x, hs, hx, hevents, fun hord => ?_⟩
  obtain ⟨⟨n, hprefix⟩, -⟩ := hord
  rw [hevents] at hprefix
  simp at hprefix

end NetworkModule.LinuxEngine
