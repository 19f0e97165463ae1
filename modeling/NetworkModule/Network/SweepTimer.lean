import NetworkModule.Lib.Machine

/-!
# The timer of the session-timeout sweep

`BaseNetworkEngine::Initialize` registers the sweep with the timer queue of the engine, to
be repeated every `pingTimeoutMs / 2`.  The callback returns false when the engine does
not run, and then `TimerQueue::WorkerLoop` does not register it again.  It is not
registered again either if the interval is 0.

`Start` does not look at the timer.  So a sweep that fires between `Initialize` and `Start`
takes the entry away for good, and the engine runs without a sweep.  `supervised_of_kept`
says that the entry stays as long as no firing loses it.

One thread calls `Initialize`, `Start` and `Stop` in any order, and the worker of the timer
queue is the other thread.  The entry fires at any time from its due time on.  Its handle is
not kept, so nobody cancels it.  What the sweep does to the sessions is left out here.
-/

namespace NetworkModule.SweepTimer

/-! ## The engine -/

/-- `TimerQueue::TimerEntry` of a sweep. -/
structure TimerEntry where
  nextFire : Nat
  intervalMs : Nat
  deriving DecidableEq, Repr

/-- The thread in `TimerQueue::WorkerLoop`. -/
inductive WorkerPc where
  /-- There is no thread. -/
  | none
  /-- At the head of the loop. -/
  | head
  /-- The callback loads `mRunning` for the first time. -/
  | firstLoad (entry : TimerEntry)
  /-- The callback goes through the sessions. -/
  | sweeping (entry : TimerEntry)
  /-- The callback loads `mRunning` for its result. -/
  | lastLoad (entry : TimerEntry)
  /-- The callback has returned. -/
  | returned (entry : TimerEntry) (reschedule : Bool)
  /-- The thread has ended and is not joined. -/
  | ended
  deriving DecidableEq, Repr

/-- The thread that calls the engine. -/
inductive MainPc where
  | idle
  /-- `Initialize`: the session pool, the dispatcher, the timer queue, the sweep, the
  platform, and `mInitialized`. -/
  | pool
  | dispatcher
  | timer
  | schedule
  | platform
  | storeInitialized
  /-- `Start`: `mRunning`, the platform I/O, and `mRunning` again if this fails. -/
  | startStore
  | startIo
  | startUndo
  /-- `Stop`: `mRunning`, the flag of the timer queue, its thread, its heap, everything
  else, and `mInitialized`. -/
  | stopStore
  | timerStop
  | timerJoin
  | timerClear
  | stopRest
  | clearInitialized
  deriving DecidableEq, Repr

/-- The engine and its timer queue. -/
structure Engine where
  mInitialized : Bool := false
  mRunning : Bool := false
  /-- `mRunning` of the timer queue. -/
  timerRunning : Bool := false
  mHeap : List TimerEntry := []
  worker : WorkerPc := .none
  main : MainPc := .idle
  /-- `steady_clock::now()`, in milliseconds. -/
  now : Nat := 0
  deriving DecidableEq, Repr

/-! ## Steps -/

/-- What happens next. -/
inductive Act where
  | callInitialize
  | callStart
  | callStop
  /-- The call goes on.  `ok` says whether the function that it calls succeeds, and
  `pingTimeoutMs` is the configured value. -/
  | main (ok : Bool) (pingTimeoutMs : UInt32)
  /-- Time passes. -/
  | tick (ms : Nat)
  /-- The worker takes the entry at this place of the heap. -/
  | fire (k : Nat)
  | worker
  deriving DecidableEq, Repr

/-- One step of the thread that calls the engine. -/
def mainStep (s : Engine) (ok : Bool) (pingTimeoutMs : UInt32) : Option Engine :=
  match s.main with
  | .idle => none
  | .pool => some { s with main := if ok then .dispatcher else .idle }
  | .dispatcher => some { s with main := if ok then .timer else .idle }
  | .timer =>
      if s.timerRunning then some { s with main := .schedule }
      else some { s with timerRunning := true, worker := .head, main := .schedule }
  | .schedule =>
      let intervalMs := (pingTimeoutMs / 2).toNat
      some { s with mHeap := ⟨s.now + intervalMs, intervalMs⟩ :: s.mHeap, main := .platform }
  | .platform => some { s with main := if ok then .storeInitialized else .idle }
  | .storeInitialized => some { s with mInitialized := true, main := .idle }
  | .startStore => some { s with mRunning := true, main := .startIo }
  | .startIo => some { s with main := if ok then .idle else .startUndo }
  | .startUndo => some { s with mRunning := false, main := .idle }
  | .stopStore => some { s with mRunning := false, main := .timerStop }
  | .timerStop =>
      if s.timerRunning then some { s with timerRunning := false, main := .timerJoin }
      else some { s with main := .stopRest }
  | .timerJoin =>
      if s.worker = .none ∨ s.worker = .ended then some { s with worker := .none, main := .timerClear }
      else none
  | .timerClear => some { s with mHeap := [], main := .stopRest }
  | .stopRest => some { s with main := .clearInitialized }
  | .clearInitialized => some { s with mInitialized := false, main := .idle }

/-- One step of the worker that takes no entry. -/
def workerStep (s : Engine) : Option Engine :=
  match s.worker with
  | .none | .ended => none
  | .head => if s.timerRunning then none else some { s with worker := .ended }
  | .firstLoad entry =>
      some { s with worker := if s.mRunning then .sweeping entry else .returned entry false }
  | .sweeping entry => some { s with worker := .lastLoad entry }
  | .lastLoad entry => some { s with worker := .returned entry s.mRunning }
  | .returned entry reschedule =>
      if reschedule ∧ 0 < entry.intervalMs then
        some { s with
          mHeap := ⟨s.now + entry.intervalMs, entry.intervalMs⟩ :: s.mHeap, worker := .head }
      else some { s with worker := .head }

/-- The worker takes an entry that is due.  It is one of the earliest, as the top of the
heap is. -/
def fireStep (s : Engine) (k : Nat) : Option Engine :=
  match s.worker, s.mHeap[k]? with
  | .head, some entry =>
      if s.timerRunning ∧ entry.nextFire ≤ s.now ∧ ∀ e ∈ s.mHeap, entry.nextFire ≤ e.nextFire then
        some { s with mHeap := s.mHeap.eraseIdx k, worker := .firstLoad entry }
      else none
  | _, _ => none

/-- One step. -/
def step (s : Engine) : Act → Option Engine
  | .callInitialize =>
      if s.main = .idle then some (if s.mInitialized then s else { s with main := .pool }) else none
  | .callStart =>
      if s.main = .idle then
        some (if ¬ s.mInitialized ∨ s.mRunning then s else { s with main := .startStore })
      else none
  | .callStop =>
      if s.main = .idle then some (if s.mRunning then { s with main := .stopStore } else s) else none
  | .main ok pingTimeoutMs => mainStep s ok pingTimeoutMs
  | .tick ms => some { s with now := s.now + ms }
  | .fire k => fireStep s k
  | .worker => workerStep s

/-! ## Supervision -/

/-- The callback is executing and its entry will be registered again, unless the engine
stops first. -/
def WorkerPc.carries : WorkerPc → Bool
  | .firstLoad entry | .sweeping entry | .lastLoad entry => 0 < entry.intervalMs
  | .returned entry reschedule => reschedule && 0 < entry.intervalMs
  | _ => false

/-- There is a sweep to come. -/
def Alive (s : Engine) : Prop := s.mHeap ≠ [] ∨ s.worker.carries = true

instance (s : Engine) : Decidable (Alive s) := inferInstanceAs (Decidable (_ ∨ _))

/-- A running engine has a sweep to come. -/
def Supervised (s : Engine) : Prop := s.mRunning = true → Alive s

/-- `Stop` has cleared `mRunning` and is not through. -/
def MainPc.stopping : MainPc → Bool
  | .timerStop | .timerJoin | .timerClear | .stopRest | .clearInitialized => true
  | _ => false

/-- The step does not lose the entry, or the engine is stopping: an entry that fires has an
interval, and its callback finds the engine running. -/
def kept (s : Engine) : Act → Bool
  | .fire k => s.main.stopping || (s.mHeap[k]?).all fun entry => 0 < entry.intervalMs
  | .worker =>
      match s.worker with
      | .firstLoad _ | .lastLoad _ => s.main.stopping || s.mRunning
      | _ => true
  | _ => true

/-! ## The invariant -/

/-- `Start` or `Stop` has found the engine initialized. -/
def MainPc.pastCheck : MainPc → Bool
  | .startStore | .startIo | .startUndo | .stopStore => true
  | _ => false

/-- The timer queue is shut down. -/
def MainPc.timerDown : MainPc → Bool
  | .timerJoin | .timerClear | .stopRest | .clearInitialized => true
  | _ => false

/-- A callback of an engine that is not stopping will come to register its entry. -/
def WorkerPc.good : WorkerPc → Bool
  | .firstLoad entry | .sweeping entry | .lastLoad entry => 0 < entry.intervalMs
  | .returned entry reschedule => reschedule && 0 < entry.intervalMs
  | _ => true

/-- What holds as long as no firing loses the entry. -/
structure SweepInv (s : Engine) : Prop where
  running : s.mRunning = true → s.mInitialized = true ∧ s.main.stopping = false
  checked : s.main.pastCheck = true → s.mInitialized = true
  alive : s.mInitialized = true ∨ s.main = .platform ∨ s.main = .storeInitialized →
    s.main.stopping = false → Alive s
  good : s.main.stopping = false → s.worker.good = true
  down : s.main.timerDown = true → s.timerRunning = false
  gone : s.timerRunning = false → s.main ≠ .timerJoin → s.worker = .none ∨ s.worker = .ended

theorem sweepInv_init : SweepInv {} where
  running := by simp
  checked := by simp [MainPc.pastCheck]
  alive := by simp
  good := by simp [WorkerPc.good]
  down := by simp [MainPc.timerDown]
  gone := by simp

section
variable {s s' : Engine}

theorem SweepInv.supervised (h : SweepInv s) : Supervised s := by
  intro hrun
  obtain ⟨hinit, hstop⟩ := h.running hrun
  exact h.alive (.inl hinit) hstop

theorem SweepInv.notRunning (h : SweepInv s) (hstop : s.main.stopping = true) :
    s.mRunning = false := by
  by_contra hrun
  have := (h.running (by simpa using hrun)).2
  simp [hstop] at this

/-- The thread that calls the engine moves, and nothing else changes. -/
theorem SweepInv.goto (h : SweepInv s) {pc : MainPc} (hold : s.main.stopping = false)
    (hnew : pc.stopping = false) (hcheck : pc.pastCheck = true → s.mInitialized = true)
    (hmid : pc = .platform ∨ pc = .storeInitialized → Alive s) : SweepInv { s with main := pc } where
  running := fun hrun => ⟨(h.running hrun).1, hnew⟩
  checked := hcheck
  alive := fun hor _ => by
    rcases hor with hi | hp
    · exact h.alive (.inl hi) hold
    · exact hmid hp
  good := fun _ => h.good hold
  down := fun hd => by cases pc <;> simp [MainPc.timerDown, MainPc.stopping] at hd hnew
  gone := fun hr _ => h.gone hr fun hj => by simp [hj, MainPc.stopping] at hold

/-- A step of `Stop`: only the timer queue matters. -/
theorem SweepInv.stopMove (h : SweepInv s) (hold : s.main.stopping = true) {pc : MainPc}
    (hnew : pc.stopping = true) {timer : Bool} {heap : List TimerEntry} {worker : WorkerPc}
    (hdown : pc.timerDown = true → timer = false)
    (hgone : timer = false → pc ≠ .timerJoin → worker = .none ∨ worker = .ended) :
    SweepInv { s with timerRunning := timer, mHeap := heap, worker := worker, main := pc } where
  running := fun hrun => by simp [h.notRunning hold] at hrun
  checked := fun hc => by cases pc <;> simp [MainPc.pastCheck, MainPc.stopping] at hc hnew
  alive := fun _ hstop => by simp [hnew] at hstop
  good := fun hstop => by simp [hnew] at hstop
  down := hdown
  gone := hgone

/-- A step of the worker, or the clock. -/
theorem SweepInv.workerMove (h : SweepInv s) {heap : List TimerEntry} {pc : WorkerPc} {now : Nat}
    (halive : s.main.stopping = false → Alive s →
      Alive { s with mHeap := heap, worker := pc, now := now })
    (hgood : s.main.stopping = false → pc.good = true)
    (hgone : s.timerRunning = false → s.main ≠ .timerJoin → pc = .none ∨ pc = .ended) :
    SweepInv { s with mHeap := heap, worker := pc, now := now } where
  running := h.running
  checked := h.checked
  alive := fun hor hstop => halive hstop (h.alive hor hstop)
  good := hgood
  down := h.down
  gone := hgone

theorem SweepInv.main {ok : Bool} {pingTimeoutMs : UInt32} (h : SweepInv s)
    (hs : mainStep s ok pingTimeoutMs = some s') : SweepInv s' := by
  cases hpc : s.main with
  | idle => simp [mainStep, hpc] at hs
  | pool | dispatcher =>
      simp only [mainStep, hpc, Option.some.injEq] at hs
      subst hs
      split
      · exact h.goto (by rw [hpc]; rfl) rfl (by simp [MainPc.pastCheck]) (by simp)
      · exact h.goto (by rw [hpc]; rfl) rfl (by simp [MainPc.pastCheck]) (by simp)
  | timer =>
      simp only [mainStep, hpc] at hs
      split at hs
      · cases hs
        exact h.goto (by rw [hpc]; rfl) rfl (by simp [MainPc.pastCheck]) (by simp)
      next hdown =>
        cases hs
        simp only [Bool.not_eq_true] at hdown
        exact {
          running := fun hrun => ⟨(h.running hrun).1, rfl⟩
          checked := by simp [MainPc.pastCheck]
          alive := fun hor _ => by
            have hinit : s.mInitialized = true := by simpa using hor
            rcases h.alive (.inl hinit) (by rw [hpc]; rfl) with hheap | hw
            · exact .inl hheap
            · rcases h.gone hdown (by simp [hpc]) with hn | hn <;> simp [hn, WorkerPc.carries] at hw
          good := fun _ => rfl
          down := by simp [MainPc.timerDown]
          gone := by simp }
  | schedule =>
      simp only [mainStep, hpc, Option.some.injEq] at hs
      subst hs
      exact {
        running := fun hrun => ⟨(h.running hrun).1, rfl⟩
        checked := by simp [MainPc.pastCheck]
        alive := fun _ _ => .inl (by simp)
        good := fun _ => h.good (by rw [hpc]; rfl)
        down := by simp [MainPc.timerDown]
        gone := fun hr _ => h.gone hr (by simp [hpc]) }
  | platform =>
      simp only [mainStep, hpc, Option.some.injEq] at hs
      subst hs
      have halive := h.alive (.inr (.inl hpc)) (by rw [hpc]; rfl)
      split
      · exact h.goto (by rw [hpc]; rfl) rfl (by simp [MainPc.pastCheck]) fun _ => halive
      · exact h.goto (by rw [hpc]; rfl) rfl (by simp [MainPc.pastCheck]) fun _ => halive
  | storeInitialized =>
      simp only [mainStep, hpc, Option.some.injEq] at hs
      subst hs
      exact {
        running := fun _ => ⟨rfl, rfl⟩
        checked := fun _ => rfl
        alive := fun _ _ => h.alive (.inr (.inr hpc)) (by rw [hpc]; rfl)
        good := fun _ => h.good (by rw [hpc]; rfl)
        down := by simp [MainPc.timerDown]
        gone := fun hr _ => h.gone hr (by simp [hpc]) }
  | startStore =>
      simp only [mainStep, hpc, Option.some.injEq] at hs
      subst hs
      have hinit := h.checked (by rw [hpc]; rfl)
      exact {
        running := fun _ => ⟨hinit, rfl⟩
        checked := fun _ => hinit
        alive := fun _ _ => h.alive (.inl hinit) (by rw [hpc]; rfl)
        good := fun _ => h.good (by rw [hpc]; rfl)
        down := by simp [MainPc.timerDown]
        gone := fun hr _ => h.gone hr (by simp [hpc]) }
  | startIo =>
      simp only [mainStep, hpc, Option.some.injEq] at hs
      subst hs
      have hinit := h.checked (by rw [hpc]; rfl)
      split
      · exact h.goto (by rw [hpc]; rfl) rfl (fun _ => hinit) (by simp)
      · exact h.goto (by rw [hpc]; rfl) rfl (fun _ => hinit) (by simp)
  | startUndo =>
      simp only [mainStep, hpc, Option.some.injEq] at hs
      subst hs
      exact {
        running := by simp
        checked := by simp [MainPc.pastCheck]
        alive := fun hor _ => h.alive (.inl (by simpa using hor)) (by rw [hpc]; rfl)
        good := fun _ => h.good (by rw [hpc]; rfl)
        down := by simp [MainPc.timerDown]
        gone := fun hr _ => h.gone hr (by simp [hpc]) }
  | stopStore =>
      simp only [mainStep, hpc, Option.some.injEq] at hs
      subst hs
      exact {
        running := by simp
        checked := by simp [MainPc.pastCheck]
        alive := fun _ hstop => by simp [MainPc.stopping] at hstop
        good := fun hstop => by simp [MainPc.stopping] at hstop
        down := by simp [MainPc.timerDown]
        gone := fun hr _ => h.gone hr (by simp [hpc]) }
  | timerStop =>
      simp only [mainStep, hpc] at hs
      split at hs
      · cases hs
        exact h.stopMove (by rw [hpc]; rfl) rfl (fun _ => rfl) (by simp)
      next hdown =>
        cases hs
        simp only [Bool.not_eq_true] at hdown
        exact h.stopMove (by rw [hpc]; rfl) rfl (fun _ => hdown)
          fun hr _ => h.gone hr (by simp [hpc])
  | timerJoin =>
      simp only [mainStep, hpc] at hs
      split at hs
      · cases hs
        exact h.stopMove (by rw [hpc]; rfl) rfl (fun _ => h.down (by rw [hpc]; rfl))
          fun _ _ => .inl rfl
      · cases hs
  | timerClear | stopRest =>
      simp only [mainStep, hpc, Option.some.injEq] at hs
      subst hs
      exact h.stopMove (by rw [hpc]; rfl) rfl (fun _ => h.down (by rw [hpc]; rfl))
        fun hr _ => h.gone hr (by simp [hpc])
  | clearInitialized =>
      simp only [mainStep, hpc, Option.some.injEq] at hs
      subst hs
      have hoff : s.mRunning = false := h.notRunning (by rw [hpc]; rfl)
      have hgone := h.gone (h.down (by rw [hpc]; rfl)) (by simp [hpc])
      exact {
        running := by simp [hoff]
        checked := by simp [MainPc.pastCheck]
        alive := by simp
        good := fun _ => by rcases hgone with hn | hn <;> simp [hn, WorkerPc.good]
        down := by simp [MainPc.timerDown]
        gone := fun _ _ => hgone }

theorem SweepInv.worker (h : SweepInv s) (hok : kept s .worker = true)
    (hs : workerStep s = some s') : SweepInv s' := by
  have hthread : s.worker ≠ .none ∧ s.worker ≠ .ended → s.timerRunning = false →
      s.main = .timerJoin := by
    intro hw hr
    by_contra hj
    rcases h.gone hr hj with hn | hn
    · exact hw.1 hn
    · exact hw.2 hn
  cases hpc : s.worker with
  | none | ended => simp [workerStep, hpc] at hs
  | head =>
      simp only [workerStep, hpc] at hs
      split at hs
      · cases hs
      · cases hs
        refine h.workerMove (fun _ ha => ?_) (fun _ => rfl) fun _ _ => .inr rfl
        exact .inl (ha.resolve_right (by simp [hpc, WorkerPc.carries]))
  | firstLoad entry =>
      simp only [workerStep, hpc, Option.some.injEq] at hs
      subst hs
      have hgood := fun hstop => h.good hstop
      simp only [hpc, WorkerPc.good, decide_eq_true_eq] at hgood
      have hload : s.main.stopping = false → s.mRunning = true := fun hstop => by
        simpa [kept, hpc, hstop] using hok
      refine h.workerMove (fun hstop _ => .inr ?_) (fun hstop => ?_) fun hr hj =>
        absurd (hthread (by simp [hpc]) hr) hj
      · simpa [hload hstop, WorkerPc.carries] using hgood hstop
      · simpa [hload hstop, WorkerPc.good] using hgood hstop
  | sweeping entry =>
      simp only [workerStep, hpc, Option.some.injEq] at hs
      subst hs
      have hgood := fun hstop => h.good hstop
      simp only [hpc, WorkerPc.good, decide_eq_true_eq] at hgood
      refine h.workerMove (fun hstop _ => .inr ?_) (fun hstop => ?_) fun hr hj =>
        absurd (hthread (by simp [hpc]) hr) hj
      · simpa [WorkerPc.carries] using hgood hstop
      · simpa [WorkerPc.good] using hgood hstop
  | lastLoad entry =>
      simp only [workerStep, hpc, Option.some.injEq] at hs
      subst hs
      have hgood := fun hstop => h.good hstop
      simp only [hpc, WorkerPc.good, decide_eq_true_eq] at hgood
      have hload : s.main.stopping = false → s.mRunning = true := fun hstop => by
        simpa [kept, hpc, hstop] using hok
      refine h.workerMove (fun hstop _ => .inr ?_) (fun hstop => ?_) fun hr hj =>
        absurd (hthread (by simp [hpc]) hr) hj
      · simpa [hload hstop, WorkerPc.carries] using hgood hstop
      · simpa [hload hstop, WorkerPc.good] using hgood hstop
  | returned entry reschedule =>
      simp only [workerStep, hpc] at hs
      have hgood := fun hstop => h.good hstop
      simp only [hpc, WorkerPc.good, Bool.and_eq_true, decide_eq_true_eq] at hgood
      have hgone : s.timerRunning = false → s.main ≠ .timerJoin →
          WorkerPc.head = .none ∨ WorkerPc.head = .ended := fun hr hj =>
        absurd (hthread (by simp [hpc]) hr) hj
      split at hs
      · cases hs
        exact h.workerMove (fun _ _ => .inl (by simp)) (fun _ => rfl) hgone
      next hlost =>
        cases hs
        exact h.workerMove (fun hstop _ => absurd (hgood hstop) hlost) (fun _ => rfl) hgone

theorem SweepInv.fire {k : Nat} (h : SweepInv s) (hok : kept s (.fire k) = true)
    (hs : fireStep s k = some s') : SweepInv s' := by
  simp only [fireStep] at hs
  split at hs
  next entry hpc hk =>
    split at hs
    next hdue =>
      cases hs
      have hpos : s.main.stopping = false → 0 < entry.intervalMs := fun hstop => by
        simpa [kept, hk, hstop] using hok
      refine h.workerMove (fun hstop _ => .inr ?_) (fun hstop => ?_) fun hr => by
        simp [hdue.1] at hr
      · simpa [WorkerPc.carries] using hpos hstop
      · simpa [WorkerPc.good] using hpos hstop
    · cases hs
  · cases hs

theorem SweepInv.step {a : Act} (h : SweepInv s) (hok : kept s a = true)
    (hs : SweepTimer.step s a = some s') : SweepInv s' := by
  cases a with
  | callInitialize =>
      simp only [SweepTimer.step] at hs
      split at hs
      next hidle =>
        simp only [Option.some.injEq] at hs
        subst hs
        split
        · exact h
        · exact h.goto (by rw [hidle]; rfl) rfl (by simp [MainPc.pastCheck]) (by simp)
      · cases hs
  | callStart =>
      simp only [SweepTimer.step] at hs
      split at hs
      next hidle =>
        simp only [Option.some.injEq] at hs
        subst hs
        split
        · exact h
        next hok =>
          simp only [not_or, not_not] at hok
          exact h.goto (by rw [hidle]; rfl) rfl (fun _ => hok.1) (by simp)
      · cases hs
  | callStop =>
      simp only [SweepTimer.step] at hs
      split at hs
      next hidle =>
        simp only [Option.some.injEq] at hs
        subst hs
        split
        next hrun =>
          exact h.goto (by rw [hidle]; rfl) rfl (fun _ => (h.running hrun).1) (by simp)
        · exact h
      · cases hs
  | main ok pingTimeoutMs => exact h.main hs
  | tick ms =>
      simp only [SweepTimer.step, Option.some.injEq] at hs
      subst hs
      exact h.workerMove (fun _ ha => ha) h.good h.gone
  | fire k => exact h.fire hok hs
  | worker => exact h.worker hok hs

/-- In every state of a run in which no firing loses the entry, a running engine has a
sweep to come. -/
theorem supervised_of_kept {as : List Act} (hrun : Machine.run SweepTimer.step {} as = some s)
    (hok : Machine.Meets SweepTimer.step (fun s a => kept s a) {} as) : Supervised s := by
  have h : SweepInv s :=
    Machine.run_invariant_of_meets (fun _ _ _ h hok hs => h.step hok hs) sweepInv_init hok hrun
  exact h.supervised

end

/-- `Initialize` with a timeout of 30 seconds. -/
def initTrace : List Act := .callInitialize :: List.replicate 6 (.main true 30000)

/-- `Start`. -/
def startTrace : List Act := [.callStart, .main true 30000, .main true 30000]

/-- The sweep fires while the engine runs, and again after the interval. -/
def sweepTrace : List Act :=
  List.flatten
    [initTrace, startTrace, [.tick 15000, .fire 0], List.replicate 4 .worker,
      [.tick 15000, .fire 0, .worker]]

theorem supervised_sweepTrace :
    ∃ s, Machine.run step {} sweepTrace = some s ∧ s.mRunning = true ∧ s.mHeap = [] ∧
      s.worker = .sweeping ⟨30000, 15000⟩ ∧ Supervised s :=
  ⟨_, rfl, rfl, rfl, rfl, @supervised_of_kept _ sweepTrace rfl (by decide)⟩

/-- `Start` comes fifteen seconds after `Initialize`, when the sweep has fired. -/
def lateStartTrace : List Act :=
  List.flatten [initTrace, [.tick 15000, .fire 0, .worker, .worker], startTrace]

/-- The engine runs, and no sweep will ever come. -/
theorem not_supervised_lateStartTrace :
    ∃ s, Machine.run step {} lateStartTrace = some s ∧ s.mRunning = true ∧ s.main = .idle ∧
      s.mHeap = [] ∧ s.worker = .head ∧ ¬ Supervised s :=
  ⟨_, rfl, rfl, rfl, rfl, rfl, fun h => absurd (h rfl) (by decide)⟩

end NetworkModule.SweepTimer
