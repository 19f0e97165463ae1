import NetworkModule.DBServer.TaskQueue
import NetworkModule.DBServer.WorkerOrder

/-!
# Where responses go

A request id carries the slot of the worker that issued it, and `OnDBResponse`
uses the slot as an index into `mWorkers`.  `Routed` states what this is for: a
response reaches the worker that issued its id or nobody, and it completes only
the task that the id was issued for.

The slot of a worker is its index in the `Initialize` call that made it.  It is
the index in `mWorkers` as well only if `mWorkers` was empty then.  `Shutdown`
does not empty it, so after a second `Initialize` the new workers issue the ids
of the old ones.  `routed_of_ownSlot` says that this is the only way to go wrong
before the 48-bit sequence numbers run out.
-/

namespace NetworkModule.DBServer

/-! ## The promise -/

/-- The slot in the keys of a worker. -/
def WorkerData.slot (w : WorkerData) : Nat := (KeyGenerator.getSlot w.keyGen.mPrefix).toNat

/-- What the queue promises for every response. -/
structure Routed (q : DBServerTaskQueue) : Prop where
  /-- A response goes to the worker that issued its id. -/
  delivered : ∀ d ∈ q.delivered, ∀ (p : Nat) (w : Worker), q.mWorkers[p]? = some w →
    ∀ x ∈ w.data.sends, x.pkt.queryId = d.1 → p = d.2
  /-- A task that a response completes was given the id of the response. -/
  issued : ∀ (p : Nat) (w : Worker), q.mWorkers[p]? = some w → ∀ c ∈ w.data.completed,
    ∃ x ∈ w.data.sends, x.pkt.queryId = c.1 ∧ x.uid = c.2
  /-- No other task was given that id, by any worker. -/
  unique : ∀ (p : Nat) (w : Worker), q.mWorkers[p]? = some w → ∀ c ∈ w.data.completed,
    ∀ (p' : Nat) (w' : Worker), q.mWorkers[p']? = some w' →
      ∀ x ∈ w'.data.sends, x.pkt.queryId = c.1 → x.uid = c.2

/-- A task is enqueued only for a session whose worker has its index as its slot,
and a thread moves only while its worker has sequence numbers left. -/
def ownSlot (q : DBServerTaskQueue) : QueueAct → Bool
  | .enqueue t =>
      (q.mWorkers[q.workerIndex t.sessionId]?).all fun w => w.data.slot = q.workerIndex t.sessionId
  | .work p _ => (q.mWorkers[p]?).all fun w => w.data.keyGen.mSeq.toNat + 1 < 2 ^ 48
  | _ => true

/-! ## The ids of a worker -/

/-- What holds of the ids that a worker with the slot `a` has issued. -/
structure Issued (a : Nat) (w : WorkerData) : Prop where
  slot : w.keyGen.mPrefix.toNat = 2 ^ 56 + a * 2 ^ 48
  slot_lt : a < 256
  count : w.keyGen.mSeq.toNat = w.sends.length
  bound : w.sends.length < 2 ^ 48
  /-- The requests are numbered from 1 on. -/
  ids : ∀ i x, w.sends[i]? = some x →
    x.pkt.queryId.toNat = w.keyGen.mPrefix.toNat + (i + 1)
  /-- A callback that a session holds belongs to the task with the session's id. -/
  waiting : ∀ sid, ∀ uid ∈ (w.session sid).callback,
    ∃ x ∈ w.sends, x.pkt.queryId = (w.session sid).requestId ∧ x.uid = uid
  completed : ∀ c ∈ w.completed, ∃ x ∈ w.sends, x.pkt.queryId = c.1 ∧ x.uid = c.2

section
variable {a : Nat} {w w' : WorkerData} {now : Nat} {sendOk : Bool}

/-- The slot is what `GetSlot` reads. -/
theorem Issued.slot_eq (h : Issued a w) : w.slot = a := by
  have hlt := h.slot_lt
  rw [WorkerData.slot, KeyGenerator.getSlot_toNat, h.slot]
  omega

/-- `GetSlot` reads the slot of the worker that issued the id. -/
theorem Issued.getSlot_eq (h : Issued a w) {x : Send} (hx : x ∈ w.sends) :
    (KeyGenerator.getSlot x.pkt.queryId).toNat = a := by
  obtain ⟨i, hi⟩ := List.mem_iff_getElem?.mp hx
  have hlen : i < w.sends.length := (List.getElem?_eq_some_iff.mp hi).1
  have hlt := h.slot_lt
  have hbound := h.bound
  rw [KeyGenerator.getSlot_toNat, h.ids i x hi, h.slot]
  omega

/-- No id is issued twice. -/
theorem Issued.inj (h : Issued a w) {x y : Send} (hx : x ∈ w.sends) (hy : y ∈ w.sends)
    (he : x.pkt.queryId = y.pkt.queryId) : x = y := by
  obtain ⟨i, hi⟩ := List.mem_iff_getElem?.mp hx
  obtain ⟨j, hj⟩ := List.mem_iff_getElem?.mp hy
  have hxi := h.ids i x hi
  have hyj := h.ids j y hj
  rw [he] at hxi
  have hij : i = j := by omega
  rw [hij, hj] at hi
  exact (Option.some.inj hi).symm

/-- A step that issues no id keeps the callbacks with their ids or drops them. -/
theorem Issued.change (h : Issued a w) (hk : w'.keyGen = w.keyGen) (hs : w'.sends = w.sends)
    (hses : ∀ k, (w'.session k).callback = none ∨
      ((w'.session k).requestId = (w.session k).requestId ∧
        (w'.session k).callback = (w.session k).callback))
    (hc : ∀ c ∈ w'.completed, ∃ x ∈ w.sends, x.pkt.queryId = c.1 ∧ x.uid = c.2) : Issued a w' where
  slot := hk ▸ h.slot
  slot_lt := h.slot_lt
  count := by rw [hk, hs]; exact h.count
  bound := hs ▸ h.bound
  ids := by rw [hk, hs]; exact h.ids
  waiting := by
    intro k uid hu
    rw [hs]
    rcases hses k with hnone | ⟨hr, hcb⟩
    · rw [hnone] at hu
      cases hu
    · rw [hr]
      rw [hcb] at hu
      exact h.waiting k uid hu
  completed := hs ▸ hc

/-- Only the session `sid` changes, and it holds no callback afterwards. -/
theorem Issued.release (h : Issued a w) (sid : ConnectionId) (hk : w'.keyGen = w.keyGen)
    (hs : w'.sends = w.sends) (hc : w'.completed = w.completed)
    (hself : (w'.session sid).callback = none)
    (hne : ∀ k, k ≠ sid → w'.session k = w.session k) : Issued a w' := by
  refine h.change hk hs (fun k => ?_) (hc ▸ h.completed)
  by_cases hsid : k = sid
  · subst hsid
    exact .inl hself
  · rw [hne k hsid]
    exact .inr ⟨rfl, rfl⟩

/-- The sessions and the ids are untouched. -/
theorem Issued.frame (h : Issued a w) (hk : w'.keyGen = w.keyGen) (hs : w'.sends = w.sends)
    (hses : w'.sessions = w.sessions) (hc : w'.completed = w.completed) : Issued a w' := by
  refine h.change hk hs (fun k => .inr ?_) (hc ▸ h.completed)
  simp only [WorkerData.session, hses, and_self]

/-- Storing a request issues the next id. -/
theorem Issued.storeRequest (h : Issued a w) (hseq : w.keyGen.mSeq.toNat + 1 < 2 ^ 48)
    (t : DBServerTask) : Issued a (w.storeRequest now t) := by
  have hpre : w.keyGen.mPrefix.toNat = (256 + a) * 2 ^ 48 := by
    rw [h.slot]
    omega
  have hid := KeyGenerator.nextId_toNat hpre hseq
  have hcount : (w.keyGen.mSeq + 1).toNat = w.keyGen.mSeq.toNat + 1 := by
    rw [UInt64.toNat_add, UInt64.toNat_one]
    omega
  have hmono : ∀ {P : Send → Prop}, (∃ x ∈ w.sends, P x) → ∃ x ∈ (w.storeRequest now t).sends, P x := by
    rintro P ⟨x, hx, hP⟩
    exact ⟨x, List.mem_append_left _ hx, hP⟩
  refine ⟨h.slot, h.slot_lt, ?_, ?_, fun i x hx => ?_, fun sid uid hu => ?_, fun c hc => ?_⟩
  · show (w.keyGen.mSeq + 1).toNat = (w.sends ++ [_]).length
    rw [hcount, h.count, List.length_append, List.length_singleton]
  · show (w.sends ++ [_]).length < 2 ^ 48
    rw [List.length_append, List.length_singleton, ← h.count]
    exact hseq
  · have hx' : (w.sends ++ [Send.mk (buildPacket w.keyGen.nextId t) t.sessionId t.uid])[i]? =
        some x := hx
    rw [List.getElem?_append] at hx'
    split at hx'
    · exact h.ids i x hx'
    · next hge =>
        have hi : i = w.sends.length := by
          have hlt := (List.getElem?_eq_some_iff.mp hx').1
          rw [List.length_singleton] at hlt
          omega
        subst hi
        rw [Nat.sub_self] at hx'
        cases hx'
        rw [← h.count]
        exact hid
  · by_cases hsid : sid = t.sessionId
    · subst hsid
      have hself : (w.storeRequest now t).session t.sessionId = _ := session_setSession_self w _ _
      rw [hself] at hu ⊢
      refine ⟨_, List.mem_append_right _ (List.mem_singleton_self _), rfl, ?_⟩
      simp only [DBServerTask.callback] at hu
      split at hu
      · exact Option.mem_some_iff.mp hu
      · cases hu
    · rw [session_storeRequest_of_ne w now t hsid] at hu ⊢
      exact hmono (h.waiting sid uid hu)
  · exact hmono (h.completed c hc)

/-- After a failed send the session holds no callback. -/
theorem Issued.sendFailed (h : Issued a w) (t : DBServerTask) : Issued a (w.sendFailed t) := by
  simp only [WorkerData.sendFailed]
  split
  · refine h.release t.sessionId rfl rfl rfl ?_ fun k hk => ?_
    · rw [session_invoke, session_eraseSession_self]
    · rw [session_invoke, session_eraseSession_of_ne _ _ hk]
  · refine h.release t.sessionId rfl rfl rfl ?_ fun k hk => ?_
    · rw [session_invoke, session_setSession_self]
    · rw [session_invoke, session_setSession_of_ne _ _ _ hk]

theorem Issued.sendTask (h : Issued a w) (hseq : w.keyGen.mSeq.toNat + 1 < 2 ^ 48)
    (t : DBServerTask) : Issued a (w.sendTask now sendOk t) := by
  have hstore : Issued a (w.storeRequest now t) := h.storeRequest hseq t
  simp only [WorkerData.sendTask]
  split
  · exact hstore.frame rfl rfl rfl rfl
  · exact hstore.sendFailed t

theorem Issued.processTask (h : Issued a w) (hseq : w.keyGen.mSeq.toNat + 1 < 2 ^ 48)
    (t : DBServerTask) : Issued a (w.processTask now sendOk t) := by
  simp only [WorkerData.processTask]
  split
  · refine h.change rfl rfl (fun k => .inr ?_) h.completed
    by_cases hk : k = t.sessionId
    · subst hk
      rw [session_setSession_self]
      exact ⟨rfl, rfl⟩
    · rw [session_setSession_of_ne _ _ _ hk]
      exact ⟨rfl, rfl⟩
  · split
    · exact h.sendTask hseq t
    · split
      · refine h.release t.sessionId rfl rfl rfl ?_ fun k hk => ?_
        · rw [session_invoke, session_eraseSession_self]
        · rw [session_invoke, session_eraseSession_of_ne _ _ hk]
      · exact h.frame rfl rfl rfl rfl

theorem Issued.resolve (h : Issued a w) (hseq : w.keyGen.mSeq.toNat + 1 < 2 ^ 48)
    (sid : ConnectionId) (ss : SessionState) (r : ResultCode) (d : String) :
    Issued a (w.resolve now sendOk sid ss r d) := by
  simp only [WorkerData.resolve]
  split
  · refine h.release sid rfl rfl rfl ?_ fun k hk => ?_
    · rw [session_eraseSession_self]
    · rw [session_eraseSession_of_ne _ _ hk, session_invoke]
  next t rest hp =>
    have hset : Issued a ((w.invoke ss.callback r d).setSession sid
        { ss with requestId := 0, callback := none, pending := rest }) := by
      refine h.release sid rfl rfl rfl ?_ fun k hk => ?_
      · rw [session_setSession_self]
      · rw [session_setSession_of_ne _ _ _ hk, session_invoke]
    exact hset.processTask hseq t

/-- A response completes the task that its id was issued for. -/
theorem Issued.handleResponse (h : Issued a w) (hseq : w.keyGen.mSeq.toNat + 1 < 2 ^ 48)
    (resp : DBResponseEvent) : Issued a (w.handleResponse now sendOk resp) := by
  simp only [WorkerData.handleResponse]
  split
  · exact h
  next sid ss hf =>
    obtain ⟨rfl, hid⟩ := session_of_find hf
    refine Issued.resolve ?_ (by exact hseq) _ _ _ _
    refine h.change rfl rfl (fun k => .inr ⟨rfl, rfl⟩) fun c hc => ?_
    rcases List.mem_append.mp hc with hc | hc
    · exact h.completed c hc
    · rw [Option.mem_toList, Option.map_eq_some_iff] at hc
      obtain ⟨uid, hu, rfl⟩ := hc
      obtain ⟨x, hx, hxid, hxu⟩ := h.waiting sid uid hu
      exact ⟨x, hx, hxid.trans hid, hxu⟩

theorem Issued.timeoutSession (h : Issued a w) (hseq : w.keyGen.mSeq.toNat + 1 < 2 ^ 48)
    (sid : ConnectionId) : Issued a (w.timeoutSession now sendOk sid) := by
  simp only [WorkerData.timeoutSession]
  split
  · exact h
  · split
    · exact h
    · refine Issued.resolve ?_ (by exact hseq) _ _ _ _
      exact h.frame rfl rfl rfl rfl

theorem Issued.workerStep {running : Bool} {pc : WorkerPc} {x : WorkerData × WorkerPc}
    (h : Issued a w) (hseq : w.keyGen.mSeq.toNat + 1 < 2 ^ 48)
    (hs : workerStep running now sendOk w pc = some x) : Issued a x.1 := by
  cases pc with
  | wait => cases hs; exact h
  | timeouts ids =>
      cases ids with
      | nil => cases hs; exact h
      | cons id ids => cases hs; exact h.timeoutSession hseq id
  | responses =>
      simp only [DBServer.workerStep] at hs
      split at hs
      · cases hs; exact h
      next resp rest _ =>
        cases hs
        have h' : Issued a { w with responseQueue := rest } := h.frame rfl rfl rfl rfl
        exact h'.handleResponse hseq resp
  | tasks =>
      simp only [DBServer.workerStep] at hs
      split at hs
      · cases hs; exact h
      · split at hs
        · cases hs; exact h
        next t rest _ =>
          cases hs
          have h' : Issued a { w with taskQueue := rest } := h.frame rfl rfl rfl rfl
          exact h'.processTask hseq t
  | stopped => cases hs

/-- `ShutdownDrain` drops every session. -/
theorem Issued.shutdownDrain (h : Issued a w) : Issued a w.shutdownDrain :=
  h.change rfl rfl (fun _ => .inl rfl) h.completed

theorem Issued.rehash (h : Issued a w) {m : Sessions} (hm : m.entries.Perm w.sessions.entries) :
    Issued a { w with sessions := m } := by
  refine h.change rfl rfl (fun k => .inr ?_) h.completed
  rw [session_rehash hm]
  exact ⟨rfl, rfl⟩

/-- A new worker has its index as its slot. -/
theorem issued_make {i : Nat} (hi : i < 256) : Issued i (.make i) where
  slot := by
    rw [WorkerData.make, KeyGenerator.make_mPrefix_toNat, UInt8.toNat_ofNat_of_lt' hi]
  slot_lt := hi
  count := rfl
  bound := Nat.two_pow_pos 48
  ids := by intro i x hx; cases hx
  waiting := by intro sid uid hu; cases hu
  completed := by intro c hc; cases hc

/-! ## Workers without tasks -/

/-- The worker has seen no task. -/
structure Unused (w : WorkerData) : Prop where
  taskQueue : w.taskQueue = []
  sessions : w.sessions = ∅
  sends : w.sends = []

theorem Unused.workerStep {running : Bool} {pc : WorkerPc} {x : WorkerData × WorkerPc}
    (h : Unused w) (hs : workerStep running now sendOk w pc = some x) : Unused x.1 := by
  cases pc with
  | wait => cases hs; exact h
  | timeouts ids =>
      cases ids with
      | nil => cases hs; exact h
      | cons id ids =>
          cases hs
          rw [WorkerData.timeoutSession, h.sessions]
          exact h
  | responses =>
      simp only [DBServer.workerStep] at hs
      split at hs
      · cases hs; exact h
      next resp rest _ =>
        cases hs
        simp only [WorkerData.handleResponse, h.sessions]
        exact ⟨h.taskQueue, rfl, h.sends⟩
  | tasks =>
      simp only [DBServer.workerStep, h.taskQueue] at hs
      split at hs <;> (cases hs; exact h)
  | stopped => cases hs

/-- A step of one worker, as far as the routing of the queue depends on it. -/
def Keeps (p : Nat) (w w' : WorkerData) : Prop :=
  ∀ a, Issued a w → Issued a w' ∧ (a ≠ p → Unused w → Unused w')

end

/-! ## The invariant of the queue -/

/-- What holds in every state that the condition allows. -/
structure RoutingInv (q : DBServerTaskQueue) : Prop where
  /-- A worker that has seen a task has its index as its slot. -/
  workers : ∀ (p : Nat) (w : Worker), q.mWorkers[p]? = some w →
    ∃ a, Issued a w.data ∧ (a ≠ p → Unused w.data)
  calls : ∀ c ∈ q.calls, ∃ w : Worker, q.mWorkers[c.2]? = some w ∧ Issued c.2 w.data
  delivered : ∀ d ∈ q.delivered, d.2 = (KeyGenerator.getSlot d.1).toNat

section
variable {q q' : DBServerTaskQueue}

theorem RoutingInv.modifyWorker (h : RoutingInv q) (p : Nat) {f : Worker → Worker}
    (hf : ∀ w, q.mWorkers[p]? = some w → Keeps p w.data (f w).data) :
    RoutingInv (q.modifyWorker p f) where
  workers := by
    intro p' w' hw'
    simp only [DBServerTaskQueue.modifyWorker, List.getElem?_modify] at hw'
    obtain ⟨w, hw, rfl⟩ := Option.map_eq_some_iff.mp hw'
    obtain ⟨a, ha, hun⟩ := h.workers p' w hw
    split
    next he =>
      subst he
      obtain ⟨ha', hun'⟩ := hf w hw a ha
      exact ⟨a, ha', fun hne => hun' hne (hun hne)⟩
    next => exact ⟨a, ha, hun⟩
  calls := by
    intro c hc
    obtain ⟨w, hw, ha⟩ := h.calls c hc
    simp only [DBServerTaskQueue.modifyWorker, List.getElem?_modify, hw]
    refine ⟨_, rfl, ?_⟩
    split
    next he =>
      subst he
      exact (hf w hw _ ha).1
    next => exact ha
  delivered := h.delivered

/-- Another history of rejected tasks, another clock and so on make no difference. -/
theorem RoutingInv.frame (h : RoutingInv q) (hw : q'.mWorkers = q.mWorkers)
    (hc : ∀ c ∈ q'.calls, c ∈ q.calls) (hd : q'.delivered = q.delivered) : RoutingInv q' where
  workers := hw ▸ h.workers
  calls := fun c hm => hw ▸ h.calls c (hc c hm)
  delivered := hd ▸ h.delivered

theorem RoutingInv.startWorkers (h : RoutingInv q) {n : Nat} (hn : n ≤ 255) :
    RoutingInv (q.startWorkers n) where
  workers := by
    intro p w hw
    simp only [DBServerTaskQueue.startWorkers, List.getElem?_map] at hw
    obtain ⟨w', hw', rfl⟩ := Option.map_eq_some_iff.mp hw
    rw [List.getElem?_append] at hw'
    split at hw'
    · exact h.workers p w' hw'
    · rw [List.getElem?_map] at hw'
      obtain ⟨i, hi, rfl⟩ := Option.map_eq_some_iff.mp hw'
      have hlt : i < n := List.mem_range.mp (List.mem_of_getElem? hi)
      exact ⟨i, issued_make (by omega), fun _ => ⟨rfl, rfl, rfl⟩⟩
  calls := by
    intro c hc
    obtain ⟨w, hw, ha⟩ := h.calls c hc
    have hlt : c.2 < q.mWorkers.length := (List.getElem?_eq_some_iff.mp hw).1
    refine ⟨{ w with pc := .wait }, ?_, ha⟩
    simp only [DBServerTaskQueue.startWorkers, List.getElem?_map, List.getElem?_append_left hlt, hw]
    rfl
  delivered := h.delivered

theorem RoutingInv.enqueueTask (h : RoutingInv q) {t : DBServerTask}
    (hok : (q.mWorkers[q.workerIndex t.sessionId]?).all
      fun w => w.data.slot = q.workerIndex t.sessionId) : RoutingInv (q.enqueueTask t) := by
  simp only [DBServerTaskQueue.enqueueTask]
  split
  · exact h.frame rfl (fun c hc => hc) rfl
  · split
    · exact h.frame rfl (fun c hc => hc) rfl
    next hne =>
      refine ⟨h.workers, fun c hc => ?_, h.delivered⟩
      rcases List.mem_append.mp hc with hc | hc
      · exact h.calls c hc
      · rw [List.mem_singleton.mp hc]
        have hlen : 0 < q.mWorkers.length :=
          List.length_pos_iff.mpr fun he => hne (List.isEmpty_iff.mpr he)
        have hlt : q.workerIndex t.sessionId < q.mWorkers.length := Nat.mod_lt _ hlen
        obtain ⟨a, ha, -⟩ := h.workers _ _ (List.getElem?_eq_getElem hlt)
        rw [List.getElem?_eq_getElem hlt] at hok
        have hslot : a = q.workerIndex t.sessionId := by
          rw [← ha.slot_eq]
          simpa using hok
        exact ⟨_, List.getElem?_eq_getElem hlt, hslot ▸ ha⟩

/-- The slot is determined by the keys. -/
theorem Issued.slot_unique {a b : Nat} {w : WorkerData} (ha : Issued a w) (hb : Issued b w) :
    a = b := ha.slot_eq.symm.trans hb.slot_eq

theorem RoutingInv.pushTask (h : RoutingInv q) {t : DBServerTask} {p : Nat}
    (hp : ∃ w : Worker, q.mWorkers[p]? = some w ∧ Issued p w.data) :
    RoutingInv (q.pushTask t p) := by
  obtain ⟨w, hw, hissued⟩ := hp
  simp only [DBServerTaskQueue.pushTask]
  split
  · refine h.modifyWorker p fun w' hw' a ha => ?_
    rw [hw] at hw'
    cases hw'
    exact ⟨ha.frame rfl rfl rfl rfl, fun hne => absurd (ha.slot_unique hissued) hne⟩
  · exact h.frame rfl (fun c hc => hc) rfl

theorem RoutingInv.onDBResponse (h : RoutingInv q) (resp : DBResponseEvent) :
    RoutingInv (q.onDBResponse resp) := by
  simp only [DBServerTaskQueue.onDBResponse]
  split
  · exact h
  · have hm := h.modifyWorker (KeyGenerator.getSlot resp.requestId).toNat
      (f := fun w => { w with data := { w.data with
        responseQueue := w.data.responseQueue ++ [resp] } })
      fun w _ a ha => ⟨ha.frame rfl rfl rfl rfl, fun _ hu => ⟨hu.taskQueue, hu.sessions, hu.sends⟩⟩
    refine ⟨hm.workers, hm.calls, fun d hd => ?_⟩
    rcases List.mem_append.mp hd with hd | hd
    · exact h.delivered d hd
    · rw [List.mem_singleton.mp hd]

theorem RoutingInv.step {a : QueueAct} (h : RoutingInv q) (hok : ownSlot q a = true)
    (hs : queueStep q a = some q') : RoutingInv q' := by
  cases a with
  | initializeQueue n f =>
      simp only [queueStep] at hs
      split at hs
      · cases hs
        simp only [DBServerTaskQueue.initializeQueue]
        split
        · exact h
        · split
          · exact h
          next hn =>
            split
            · exact h
            · exact h.startWorkers (by omega)
      · cases hs
  | shutdown =>
      simp only [queueStep] at hs
      split at hs
      · cases hs
        simp only [DBServerTaskQueue.shutdown]
        split
        · exact h.frame rfl (fun c hc => hc) rfl
        · exact h
      · cases hs
  | join =>
      simp only [queueStep] at hs
      split at hs
      · cases hs; exact h.frame rfl (fun c hc => hc) rfl
      · cases hs
  | drain =>
      simp only [queueStep] at hs
      split at hs
      next i _ =>
        split at hs
        · cases hs
          have hm := h.modifyWorker i (f := fun w => { w with data := w.data.shutdownDrain })
            fun w _ a ha => ⟨ha.shutdownDrain, fun _ hu => ⟨rfl, rfl, hu.sends⟩⟩
          exact hm.frame rfl (fun c hc => hc) rfl
        · cases hs; exact h.frame rfl (fun c hc => hc) rfl
      · cases hs
  | enqueue t =>
      cases hs
      exact (h.enqueueTask (t := { t with uid := q.nextUid }) hok).frame rfl (fun c hc => hc) rfl
  | push c =>
      simp only [queueStep] at hs
      split at hs
      · cases hs
      next t p hc =>
        cases hs
        have h' : RoutingInv { q with calls := q.calls.eraseIdx c } :=
          h.frame rfl (fun _ hm => List.mem_of_mem_eraseIdx hm) rfl
        exact h'.pushTask (h.calls (t, p) (List.mem_of_getElem? hc))
  | respond resp => cases hs; exact h.onDBResponse resp
  | tick ms => cases hs; exact h.frame rfl (fun c hc => hc) rfl
  | rehash p m =>
      simp only [queueStep] at hs
      split at hs
      · cases hs
      next w hw =>
        split at hs
        next hm =>
          cases hs
          refine h.modifyWorker p fun w' hw' a ha => ?_
          rw [hw] at hw'
          cases hw'
          refine ⟨ha.rehash hm, fun _ hu => ⟨hu.taskQueue, ?_, hu.sends⟩⟩
          rw [hu.sessions] at hm
          exact AList.ext (List.perm_nil.mp hm)
        · cases hs
  | work p sendOk =>
      simp only [queueStep] at hs
      split at hs
      · cases hs
      next w hw =>
        obtain ⟨x, hx, rfl⟩ := Option.map_eq_some_iff.mp hs
        have hseq : w.data.keyGen.mSeq.toNat + 1 < 2 ^ 48 := by
          simpa [ownSlot, hw] using hok
        refine h.modifyWorker p fun w' hw' a ha => ?_
        rw [hw] at hw'
        cases hw'
        exact ⟨ha.workerStep hseq hx, fun _ hu => hu.workerStep hx⟩

end

/-! ## Runs -/

/-- The worker that issued an id is the one at the slot in the id. -/
theorem RoutingInv.getSlot_eq {q : DBServerTaskQueue} (h : RoutingInv q) {p : Nat} {w : Worker}
    (hw : q.mWorkers[p]? = some w) {x : Send} (hx : x ∈ w.data.sends) :
    (KeyGenerator.getSlot x.pkt.queryId).toNat = p := by
  obtain ⟨a, ha, hun⟩ := h.workers p w hw
  rw [ha.getSlot_eq hx]
  by_contra hne
  rw [(hun hne).sends] at hx
  cases hx

theorem RoutingInv.routed {q : DBServerTaskQueue} (h : RoutingInv q) : Routed q where
  delivered := by
    intro d hd p w hw x hx he
    rw [h.delivered d hd, ← he]
    exact (h.getSlot_eq hw hx).symm
  issued := by
    intro p w hw c hc
    obtain ⟨a, ha, -⟩ := h.workers p w hw
    exact ha.completed c hc
  unique := by
    intro p w hw c hc p' w' hw' x hx he
    obtain ⟨a, ha, -⟩ := h.workers p w hw
    obtain ⟨y, hy, hyid, hyu⟩ := ha.completed c hc
    have hp : p' = p := by
      rw [← h.getSlot_eq hw' hx, ← h.getSlot_eq hw hy, he, hyid]
    subst hp
    rw [hw] at hw'
    cases hw'
    rw [ha.inj hx hy (he.trans hyid.symm)]
    exact hyu

/-- In every run in which tasks reach only workers whose slot is their index, a
response goes to the worker that issued its id and completes only the task of
that id. -/
theorem routed_of_ownSlot (as : List QueueAct) (q : DBServerTaskQueue)
    (hok : Machine.Meets queueStep (fun q a => ownSlot q a) {} as)
    (hrun : Machine.run queueStep {} as = some q) : Routed q := by
  have hinit : RoutingInv {} := by
    refine ⟨?_, ?_, ?_⟩
    · intro p w hw; cases hw
    · intro c hc; cases hc
    · intro d hd; cases hd
  exact (Machine.run_invariant_of_meets (fun _ _ _ hI hok hs => RoutingInv.step hI hok hs)
    hinit hok hrun).routed

/-- A task of the given session. -/
def taskOf (sessionId : ConnectionId) : DBServerTask := { uid := 0, sessionId, data := [1] }

/-- Two workers.  The request of session 1 is answered twice, and then a response
with the id 0 arrives. -/
def answeredTrace : List QueueAct :=
  List.flatten
    [[.initializeQueue 2 true, .enqueue (taskOf 1), .push 0], List.replicate 4 (.work 1 true),
      [.respond ⟨0x0101000000000001, .success, ""⟩, .respond ⟨0x0101000000000001, .success, ""⟩,
        .respond ⟨0, .success, ""⟩],
      List.replicate 5 (.work 1 true), List.replicate 4 (.work 0 true)]

/-- Worker 1 gets both responses, and the first one completes the task. -/
theorem routed_answeredTrace :
    ∃ q, Machine.run queueStep {} answeredTrace = some q ∧
      q.delivered = [(0x0101000000000001, 1), (0x0101000000000001, 1), (0, 0)] ∧
      q.mWorkers.map (fun w => w.data.completed) = [[], [(0x0101000000000001, 0)]] ∧ Routed q :=
  ⟨_, rfl, by decide +kernel, by decide +kernel,
    routed_of_ownSlot answeredTrace _ (by decide +kernel) rfl⟩

/-- A queue with one worker is shut down and started again with one worker.  Now it
has two workers, both with the slot 0.  One task goes to each of them. -/
def secondCycleTrace : List QueueAct :=
  List.flatten
    [[.initializeQueue 1 true, .shutdown, .work 0 true, .join, .drain, .drain,
        .initializeQueue 1 true, .enqueue (taskOf 0), .enqueue (taskOf 1), .push 0, .push 0],
      List.replicate 4 (.work 0 true), List.replicate 4 (.work 1 true),
      [.respond ⟨0x0100000000000001, .success, ""⟩], List.replicate 4 (.work 0 true)]

/-- Both requests have the same id.  The response goes to worker 0, whichever of
the two it answers. -/
theorem secondCycle_misroutes :
    ∃ q, Machine.run queueStep {} secondCycleTrace = some q ∧
      q.mWorkers.map (fun w => w.data.sends.map fun x => (x.pkt.queryId, x.uid)) =
        [[(0x0100000000000001, 0)], [(0x0100000000000001, 1)]] ∧
      q.mWorkers.map (fun w => w.data.completed) = [[(0x0100000000000001, 0)], []] ∧
      q.delivered = [(0x0100000000000001, 0)] ∧ ¬ Routed q := by
  refine ⟨_, rfl, by decide +kernel, by decide +kernel, by decide +kernel, fun h => ?_⟩
  have hbad := h.delivered (0x0100000000000001, 0) (List.mem_singleton_self _) 1 _ rfl _
    (List.mem_singleton_self _) rfl
  cases hbad

end NetworkModule.DBServer
