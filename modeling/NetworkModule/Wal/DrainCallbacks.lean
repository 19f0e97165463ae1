import NetworkModule.Wal.Queue

/-!
# Exceptions in the drain of DBTaskQueue

After `Shutdown` has joined the workers it runs the tasks that are left in their queues.
`ProcessTask` catches what a handler throws, if it is a `std::exception`, and then calls the
callback outside that `try` block.  The drain has a `catch` of its own, which calls the
callback once more.  So a callback that throws a `std::exception` is called twice, and a
callback that throws anything else ends `Shutdown`.  In both cases the `D` line of the task is
not written, although the handler may have succeeded.

`orderly_iff` says exactly when the drain does what is expected of it: no callback of a task
that it reaches throws, except that the callback of the last task may throw something that
is no `std::exception` if there is no `D` line to write.

What the handlers and the callbacks do is part of the input.  A callback is called at most
twice, so an input has two answers of it.
-/

namespace NetworkModule.Wal.DrainCallbacks

/-! ## Tasks and events -/

/-- An exception: a `std::exception` with its text, or something else. -/
inductive Thrown where
  | std (what : String)
  | other
  deriving DecidableEq, Repr

/-- A task in a queue, and what its handler and its callback do. -/
structure Queued where
  task : DBTask
  /-- What the handler returns or throws. -/
  handler : Except Thrown (Bool × String)
  /-- What the callback throws when `ProcessTask` calls it. -/
  first : Option Thrown := none
  /-- What it throws when it is called again. -/
  second : Option Thrown := none

/-- What the drain does.  `i` is the number of the task among those that are drained. -/
inductive Event where
  /-- The handler has run, and its success is known. -/
  | handled (i : Nat) (success : Bool)
  | callback (i : Nat) (success : Bool) (result : String) (thrown : Option Thrown)
  | walWriteDone (i : Nat) (seq : Nat)
  deriving DecidableEq, Repr

/-- The task that the event is about. -/
def Event.task : Event → Nat
  | .handled i _ => i
  | .callback i _ _ _ => i
  | .walWriteDone i _ => i

/-- The event is a call of the callback of the task `i`. -/
def Event.isCallback (i : Nat) : Event → Bool
  | .callback j _ _ _ => decide (j = i)
  | .handled _ _ | .walWriteDone _ _ => false

/-! ## The drain -/

/-- The `switch` of `ProcessTask`. -/
def Queued.handle (q : Queued) : Except Thrown (Bool × String) :=
  match q.task.type with
  | .other value _ =>
      .ok (false, "Unknown DB task type: " ++ String.ofList (CppText.decimal value))
  | .recordConnectTime | .recordDisconnectTime | .updatePlayerData => q.handler

/-- The success and the result after the `try` block, unless an exception leaves
`ProcessTask`. -/
def Queued.outcome (q : Queued) : Option (Bool × String) :=
  match q.handle with
  | .ok r => some r
  | .error (.std what) => some (false, "Exception: " ++ what)
  | .error .other => none

/-- `ProcessTask` for the task `i`. -/
def processTask (i : Nat) (q : Queued) : List Event × Except Thrown Bool :=
  match q.outcome with
  | none => ([.handled i false], .error .other)
  | some (success, result) =>
      if q.task.hasCallback then
        ([.handled i success, .callback i success result q.first],
          match q.first with
          | none => .ok success
          | some e => .error e)
      else ([.handled i success], .ok success)

/-- The body of the loop over `drainTasks`. -/
def drainTask (i : Nat) (q : Queued) : List Event × Except Thrown Unit :=
  match processTask i q with
  | (es, .ok success) =>
      (es ++ if success && q.task.walSeq ≠ 0 then [.walWriteDone i q.task.walSeq] else [], .ok ())
  | (es, .error .other) => (es, .error .other)
  | (es, .error (.std what)) =>
      if q.task.hasCallback then
        (es ++ [.callback i false ("Drain exception: " ++ what) q.second],
          match q.second with
          | none => .ok ()
          | some e => .error e)
      else (es, .ok ())

/-- The loop over `drainTasks`, which begins with the task `i`. -/
def drainTasks (i : Nat) : List Queued → List Event × Except Thrown Unit
  | [] => ([], .ok ())
  | q :: qs =>
      match drainTask i q with
      | (es, .error e) => (es, .error e)
      | (es, .ok ()) => (es ++ (drainTasks (i + 1) qs).1, (drainTasks (i + 1) qs).2)

/-- The loop over the workers, with their queues. -/
def drain (i : Nat) : List (List Queued) → List Event × Except Thrown Unit
  | [] => ([], .ok ())
  | qs :: ws =>
      match drainTasks i qs with
      | (es, .error e) => (es, .error e)
      | (es, .ok ()) => (es ++ (drain (i + qs.length) ws).1, (drain (i + qs.length) ws).2)

/-! ## What is expected -/

/-- The callback of the task `i` has thrown. -/
def Threw (es : List Event) (i : Nat) : Prop :=
  ∃ success result e, .callback i success result (some e) ∈ es

/-- What is expected of the drain of the tasks `qs`, the first of which has the number `i`. -/
structure Orderly (i : Nat) (qs : List Queued) (es : List Event) : Prop where
  /-- No callback is called twice. -/
  once : ∀ k, es.countP (Event.isCallback k) ≤ 1
  /-- After a callback has thrown, the next task is processed. -/
  goesOn : ∀ k, k + 1 < qs.length → Threw es (i + k) →
    ∃ success, .handled (i + k + 1) success ∈ es
  /-- A task whose handler has succeeded gets its `D` line, although its callback throws. -/
  done : ∀ k q, qs[k]? = some q → q.task.walSeq ≠ 0 → .handled (i + k) true ∈ es →
    Threw es (i + k) → .walWriteDone (i + k) q.task.walSeq ∈ es

/-- The callback of the task does not throw, if there is one. -/
def Queued.Quiet (q : Queued) : Prop := q.task.hasCallback = true → q.first = none

/-- The callback of the task throws something that is no `std::exception`, and there is no `D`
line to write. -/
def Queued.EndsUnwritten (q : Queued) : Prop :=
  q.task.hasCallback = true ∧ q.first = some .other ∧
    (q.task.walSeq = 0 ∨ q.outcome.map Prod.fst = some false)

/-- No callback of a task that the drain reaches throws, but the last may end it. -/
def Settles : List Queued → Prop
  | [] => True
  | q :: qs => q.outcome = none ∨ (q.Quiet ∧ Settles qs) ∨ (qs = [] ∧ q.EndsUnwritten)

/-! ## The tasks of all workers -/

theorem drainTasks_append (i : Nat) (qs rs : List Queued) :
    drainTasks i (qs ++ rs) =
      match drainTasks i qs with
      | (es, .error e) => (es, .error e)
      | (es, .ok ()) =>
          (es ++ (drainTasks (i + qs.length) rs).1, (drainTasks (i + qs.length) rs).2) := by
  induction qs generalizing i with
  | nil => rfl
  | cons q qs ih =>
      rw [List.cons_append, drainTasks, drainTasks]
      have hlen : i + (q :: qs).length = i + 1 + qs.length := by
        rw [List.length_cons]
        omega
      rw [hlen, ih]
      rcases drainTask i q with ⟨es, r⟩
      cases r with
      | error e => rfl
      | ok u =>
          rcases drainTasks (i + 1) qs with ⟨fs, r⟩
          cases r with
          | error e => rfl
          | ok u => simp only [List.append_assoc]

/-- The workers are drained as one queue. -/
theorem drain_eq (i : Nat) (ws : List (List Queued)) : drain i ws = drainTasks i ws.flatten := by
  induction ws generalizing i with
  | nil => rfl
  | cons qs ws ih =>
      rw [drain, List.flatten_cons, drainTasks_append, ih]

/-! ## One task -/

/-- A handler throws something that is no `std::exception`. -/
theorem drainTask_of_escape {q : Queued} (i : Nat) (h : q.outcome = none) :
    drainTask i q = ([.handled i false], .error .other) := by
  simp only [drainTask, processTask, h]

/-- The callback does not throw. -/
theorem drainTask_of_quiet {q : Queued} (i : Nat) {success : Bool} {result : String}
    (h : q.outcome = some (success, result)) (hquiet : q.Quiet) :
    drainTask i q = (.handled i success ::
      ((if q.task.hasCallback then [.callback i success result none] else []) ++
        if success && q.task.walSeq ≠ 0 then [.walWriteDone i q.task.walSeq] else []), .ok ()) := by
  cases hcallback : q.task.hasCallback with
  | false => simp [drainTask, processTask, h, hcallback]
  | true => simp [drainTask, processTask, h, hcallback, hquiet hcallback]

/-- The callback throws something that is no `std::exception`. -/
theorem drainTask_of_other {q : Queued} (i : Nat) {success : Bool} {result : String}
    (h : q.outcome = some (success, result)) (hcallback : q.task.hasCallback = true)
    (hfirst : q.first = some .other) :
    drainTask i q =
      ([.handled i success, .callback i success result (some .other)], .error .other) := by
  simp [drainTask, processTask, h, hcallback, hfirst]

/-- The callback throws a `std::exception`, and is called again. -/
theorem drainTask_of_std {q : Queued} (i : Nat) {success : Bool} {result what : String}
    (h : q.outcome = some (success, result)) (hcallback : q.task.hasCallback = true)
    (hfirst : q.first = some (.std what)) :
    drainTask i q =
      ([.handled i success, .callback i success result (some (.std what)),
        .callback i false ("Drain exception: " ++ what) q.second],
        match q.second with
        | none => .ok ()
        | some e => .error e) := by
  simp only [drainTask, processTask, h, hcallback, hfirst, if_true]
  rfl

/-- The four ways in which a task of the drain can go. -/
theorem drainTask_ways (q : Queued) : q.outcome = none ∨
    (∃ success result, q.outcome = some (success, result) ∧ q.Quiet) ∨
    (∃ success result, q.outcome = some (success, result) ∧ q.task.hasCallback = true ∧
      q.first = some .other) ∨
    ∃ success result what, q.outcome = some (success, result) ∧ q.task.hasCallback = true ∧
      q.first = some (.std what) := by
  cases ho : q.outcome with
  | none => exact .inl rfl
  | some r =>
      obtain ⟨success, result⟩ := r
      cases hc : q.task.hasCallback with
      | false =>
          exact .inr (.inl ⟨success, result, rfl, fun h => absurd (hc.symm.trans h) (by simp)⟩)
      | true =>
          cases hf : q.first with
          | none => exact .inr (.inl ⟨success, result, rfl, fun _ => hf⟩)
          | some e =>
              cases e with
              | other => exact .inr (.inr (.inl ⟨success, result, rfl, rfl, rfl⟩))
              | std what => exact .inr (.inr (.inr ⟨success, result, what, rfl, rfl, rfl⟩))

theorem task_of_mem_drainTask {i : Nat} {q : Queued} {e : Event} (he : e ∈ (drainTask i q).1) :
    e.task = i := by
  rcases drainTask_ways q with h | ⟨success, result, h, hquiet⟩ |
    ⟨success, result, h, hcallback, hfirst⟩ | ⟨success, result, what, h, hcallback, hfirst⟩
  · rw [drainTask_of_escape i h] at he
    rw [List.mem_singleton.mp he, Event.task]
  · rw [drainTask_of_quiet i h hquiet] at he
    simp only [List.mem_cons, List.mem_append] at he
    rcases he with rfl | he | he
    · rfl
    · split at he
      · rw [List.mem_singleton.mp he, Event.task]
      · cases he
    · split at he
      · rw [List.mem_singleton.mp he, Event.task]
      · cases he
  · rw [drainTask_of_other i h hcallback hfirst] at he
    simp only [List.mem_cons, List.not_mem_nil, or_false] at he
    rcases he with rfl | rfl <;> rfl
  · rw [drainTask_of_std i h hcallback hfirst] at he
    simp only [List.mem_cons, List.not_mem_nil, or_false] at he
    rcases he with rfl | rfl | rfl <;> rfl

/-- The drain begins with the handler of its first task. -/
theorem handled_mem_drainTask (i : Nat) (q : Queued) :
    ∃ success, .handled i success ∈ (drainTask i q).1 := by
  rcases drainTask_ways q with h | ⟨success, result, h, hquiet⟩ |
    ⟨success, result, h, hcallback, hfirst⟩ | ⟨success, result, what, h, hcallback, hfirst⟩
  · exact ⟨false, by rw [drainTask_of_escape i h]; exact List.mem_cons_self⟩
  · exact ⟨success, by rw [drainTask_of_quiet i h hquiet]; exact List.mem_cons_self⟩
  · exact ⟨success, by rw [drainTask_of_other i h hcallback hfirst]; exact List.mem_cons_self⟩
  · exact ⟨success, by rw [drainTask_of_std i h hcallback hfirst]; exact List.mem_cons_self⟩

/-- The events of a drain are about its tasks. -/
theorem le_task_of_mem {i : Nat} {qs : List Queued} {e : Event} (he : e ∈ (drainTasks i qs).1) :
    i ≤ e.task := by
  induction qs generalizing i with
  | nil => cases he
  | cons q qs ih =>
      have htask : ∀ e ∈ (drainTask i q).1, e.task = i := fun e => task_of_mem_drainTask
      rw [drainTasks] at he
      rcases hd : drainTask i q with ⟨es, r⟩
      rw [hd] at he htask
      cases r with
      | error err => exact le_of_eq (htask e he).symm
      | ok u =>
          rcases List.mem_append.mp he with he | he
          · exact le_of_eq (htask e he).symm
          · exact (Nat.le_succ i).trans (ih he)

/-! ## The condition -/

/-- The first task goes as expected, and the rest is a drain of its own. -/
theorem orderly_cons {i : Nat} {q : Queued} {qs : List Queued} {es fs : List Event}
    (hes : ∀ e ∈ es, e.task = i) (honce : es.countP (Event.isCallback i) ≤ 1)
    (hquiet : ¬ Threw es i) (hfs : ∀ e ∈ fs, i + 1 ≤ e.task) :
    Orderly i (q :: qs) (es ++ fs) ↔ Orderly (i + 1) qs fs := by
  -- An event about a later task is one of the rest.
  have hlater : ∀ e : Event, i + 1 ≤ e.task → (e ∈ es ++ fs ↔ e ∈ fs) := by
    intro e hle
    refine ⟨fun he => (List.mem_append.mp he).resolve_left fun hmem => ?_,
      List.mem_append_right es⟩
    have := hes e hmem
    omega
  have hthrew : ∀ k, Threw (es ++ fs) (i + (k + 1)) ↔ Threw fs (i + 1 + k) := by
    intro k
    have hk : i + (k + 1) = i + 1 + k := by omega
    rw [hk]
    constructor
    · rintro ⟨success, result, e, he⟩
      exact ⟨success, result, e, (hlater _ (Nat.le_add_right ..)).mp he⟩
    · rintro ⟨success, result, e, he⟩
      exact ⟨success, result, e, (hlater _ (Nat.le_add_right ..)).mpr he⟩
  have hnot : ¬ Threw (es ++ fs) i := by
    rintro ⟨success, result, e, he⟩
    rcases List.mem_append.mp he with he | he
    · exact hquiet ⟨success, result, e, he⟩
    · exact absurd (hfs _ he) (Nat.not_succ_le_self i)
  constructor
  · intro h
    refine ⟨fun k => ?_, fun k hk ht => ?_, fun k q' hq hne hh ht => ?_⟩
    · have hall := h.once k
      rw [List.countP_append] at hall
      omega
    · obtain ⟨success, hmem⟩ := h.goesOn (k + 1) (by simpa using hk) ((hthrew k).mpr ht)
      have hidx : i + (k + 1) + 1 = i + 1 + k + 1 := by omega
      rw [hidx] at hmem
      exact ⟨success, (hlater _ (by simp only [Event.task]; omega)).mp hmem⟩
    · have hidx : i + (k + 1) = i + 1 + k := by omega
      have hdone := h.done (k + 1) q' (by simpa using hq) hne
        (hidx ▸ List.mem_append_right es hh) ((hthrew k).mpr ht)
      rw [hidx] at hdone
      exact (hlater _ (Nat.le_add_right ..)).mp hdone
  · intro h
    refine ⟨fun k => ?_, fun k hk ht => ?_, fun k q' hq hne hh ht => ?_⟩
    · rw [List.countP_append]
      rcases eq_or_ne k i with rfl | hki
      · have hnone : fs.countP (Event.isCallback k) = 0 := List.countP_eq_zero.mpr fun e he => by
          have hle := hfs e he
          cases e with
          | callback j success result thrown =>
              simp only [Event.task] at hle
              simp only [Event.isCallback, decide_eq_true_eq]
              omega
          | _ => simp [Event.isCallback]
        omega
      · have hnone : es.countP (Event.isCallback k) = 0 := List.countP_eq_zero.mpr fun e he => by
          have htask := hes e he
          cases e with
          | callback j success result thrown =>
              simp only [Event.task] at htask
              simp only [Event.isCallback, decide_eq_true_eq]
              omega
          | _ => simp [Event.isCallback]
        have hrest := h.once k
        omega
    · cases k with
      | zero => exact absurd ht hnot
      | succ k =>
          obtain ⟨success, hmem⟩ := h.goesOn k (by simpa using hk) ((hthrew k).mp ht)
          have hidx : i + (k + 1) + 1 = i + 1 + k + 1 := by omega
          rw [hidx]
          exact ⟨success, List.mem_append_right es hmem⟩
    · cases k with
      | zero => exact absurd ht hnot
      | succ k =>
          have hidx : i + (k + 1) = i + 1 + k := by omega
          rw [hidx] at hh ⊢
          exact List.mem_append_right es (h.done k q' (by simpa using hq) hne
            ((hlater _ (Nat.le_add_right ..)).mp hh) ((hthrew k).mp ht))

/-- A handler that ends `Shutdown` leaves no callback behind. -/
theorem orderly_of_escape (i : Nat) (qs : List Queued) : Orderly i qs [.handled i false] := by
  refine ⟨fun k => by simp [Event.isCallback], fun k _ ht => ?_, fun k _ _ _ _ ht => ?_⟩
  · obtain ⟨success, result, e, he⟩ := ht
    simp at he
  · obtain ⟨success, result, e, he⟩ := ht
    simp at he

/-- A callback that ends `Shutdown` must be the last, with no `D` line to write. -/
theorem orderly_of_other {i : Nat} {q : Queued} {qs : List Queued} {success : Bool}
    {result : String} (h : q.outcome = some (success, result)) :
    Orderly i (q :: qs) [.handled i success, .callback i success result (some .other)] ↔
      qs = [] ∧ (q.task.walSeq = 0 ∨ success = false) := by
  have hthrew : Threw [.handled i success, .callback i success result (some .other)] i :=
    ⟨success, result, .other, by simp⟩
  constructor
  · intro hO
    refine ⟨?_, ?_⟩
    · cases qs with
      | nil => rfl
      | cons q' qs =>
          obtain ⟨b, hb⟩ := hO.goesOn 0 (by simp) hthrew
          simp at hb
    · by_contra hno
      simp only [not_or, Bool.not_eq_false] at hno
      obtain ⟨hne, rfl⟩ := hno
      have hdone := hO.done 0 q rfl hne (by simp) hthrew
      simp at hdone
  · rintro ⟨rfl, hunwritten⟩
    refine ⟨fun k => ?_, fun k hk => absurd hk (by simp), fun k q' hq hne hh _ => ?_⟩
    · simp only [List.countP_cons, List.countP_nil, Event.isCallback, Bool.false_eq_true, if_false,
        Nat.zero_add, Nat.add_zero]
      rcases eq_or_ne i k with hik | hik
      · simp [hik]
      · simp [hik]
    · cases k with
      | zero =>
          cases hq
          rcases hunwritten with hz | rfl
          · exact absurd hz hne
          · simp at hh
      | succ k => simp at hq

/-- A callback that is called twice. -/
theorem not_orderly_of_std {i : Nat} {qs : List Queued} {success success' : Bool}
    {result result' : String} {thrown thrown' : Option Thrown} {fs : List Event} :
    ¬ Orderly i qs (.handled i success :: .callback i success result thrown ::
      .callback i success' result' thrown' :: fs) := by
  intro h
  have hone := h.once i
  simp only [List.countP_cons, Event.isCallback, decide_true, if_true] at hone
  omega

theorem orderly_drainTasks (i : Nat) (qs : List Queued) :
    Orderly i qs (drainTasks i qs).1 ↔ Settles qs := by
  induction qs generalizing i with
  | nil =>
      refine ⟨fun _ => trivial, fun _ => ⟨fun _ => Nat.zero_le 1, fun k hk => ?_, fun k q hq => ?_⟩⟩
      · simp at hk
      · simp at hq
  | cons q qs ih =>
      rcases drainTask_ways q with h | ⟨success, result, h, hquiet⟩ |
        ⟨success, result, h, hcallback, hfirst⟩ | ⟨success, result, what, h, hcallback, hfirst⟩
      · rw [drainTasks, drainTask_of_escape i h]
        exact ⟨fun _ => .inl h, fun _ => orderly_of_escape i _⟩
      · have htask : ∀ e ∈ (drainTask i q).1, e.task = i := fun e => task_of_mem_drainTask
        have hsettles : Settles (q :: qs) ↔ Settles qs := by
          refine ⟨fun hs => ?_, fun hs => .inr (.inl ⟨hquiet, hs⟩)⟩
          rcases hs with hnone | ⟨-, hs⟩ | ⟨-, hends⟩
          · exact absurd (h.symm.trans hnone) (by simp)
          · exact hs
          · exact absurd ((hquiet hends.1).symm.trans hends.2.1) (by simp)
        rw [hsettles, ← ih (i + 1), drainTasks]
        rw [drainTask_of_quiet i h hquiet] at htask ⊢
        refine orderly_cons htask ?_ ?_ fun e he => le_task_of_mem he
        · cases q.task.hasCallback <;> cases success <;> by_cases hz : q.task.walSeq = 0 <;>
            simp [Event.isCallback, hz]
        · rintro ⟨success', result', e, he⟩
          simp only [List.mem_cons, List.mem_append] at he
          rcases he with he | he | he
          · cases he
          · split at he <;> simp at he
          · split at he <;> simp at he
      · rw [drainTasks, drainTask_of_other i h hcallback hfirst]
        refine (orderly_of_other h).trans ⟨fun hO => ?_, fun hs => ?_⟩
        · obtain ⟨hnil, hunwritten⟩ := hO
          refine .inr (.inr ⟨hnil, hcallback, hfirst, hunwritten.imp_right fun hf => ?_⟩)
          rw [h, hf]
          rfl
        · rcases hs with hnone | ⟨hquiet, -⟩ | ⟨hnil, -, -, hunwritten⟩
          · exact absurd (h.symm.trans hnone) (by simp)
          · exact absurd ((hquiet hcallback).symm.trans hfirst) (by simp)
          · refine ⟨hnil, hunwritten.imp_right fun hf => ?_⟩
            rw [h] at hf
            exact Option.some.inj hf
      · have hno : ¬ Settles (q :: qs) := by
          rintro (hnone | ⟨hquiet, -⟩ | ⟨-, -, hother, -⟩)
          · exact absurd (h.symm.trans hnone) (by simp)
          · exact absurd ((hquiet hcallback).symm.trans hfirst) (by simp)
          · exact absurd (hfirst.symm.trans hother) (by simp)
        refine ⟨fun hO => ?_, fun hs => absurd hs hno⟩
        rw [drainTasks, drainTask_of_std i h hcallback hfirst] at hO
        cases hsecond : q.second with
        | none =>
            rw [hsecond] at hO
            exact absurd hO not_orderly_of_std
        | some e =>
            rw [hsecond] at hO
            exact absurd hO not_orderly_of_std

/-- The drain of all workers does what is expected of it exactly when no callback throws that
matters. -/
theorem orderly_iff (ws : List (List Queued)) :
    Orderly 0 ws.flatten (drain 0 ws).1 ↔ Settles ws.flatten := by
  rw [drain_eq]
  exact orderly_drainTasks 0 ws.flatten

/-! ## A callback that throws -/

/-- A task with a callback that throws when it is called with success. -/
def throwing : Queued where
  task := ⟨0, .updatePlayerData, 1, [], true, 7⟩
  handler := .ok (true, "Player data updated to DB")
  first := some (.std "connection closed")

/-- The callback is called twice, and the task gets no `D` line. -/
theorem not_orderly_throwing :
    drain 0 [[throwing]] = ([.handled 0 true,
      .callback 0 true "Player data updated to DB" (some (.std "connection closed")),
      .callback 0 false "Drain exception: connection closed" none], .ok ()) ∧
    ¬ Orderly 0 [throwing] (drain 0 [[throwing]]).1 := by
  refine ⟨by decide, fun h => ?_⟩
  have hone := h.once 0
  revert hone
  decide

end NetworkModule.Wal.DrainCallbacks
