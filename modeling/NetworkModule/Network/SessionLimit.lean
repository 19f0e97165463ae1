import NetworkModule.Network.SessionRegistry

/-!
# The limit on sessions

`CreateSession` compares the number of sessions with `MAX_CONNECTIONS` in one critical
section and inserts its session in another.  In between it takes a slot of the pool and
gives the socket to the session in it.  A call that returns null has done neither, so its
caller still owns the socket.  But several threads may find room for one session each
where there is room for one in all.

The sockets are numbered here in the order of the calls of `CreateSession`, since the
operating system uses the number of a closed one again.  `limited_iff` says when a run
keeps to the limit.  `limited_of_one_creator` says that it does when one thread makes all
the sessions, like the accept loop of an engine.
-/

namespace NetworkModule.SessionLifetime

open References (Ref)

/-! ## Sockets -/

/-- The engine, and what has become of the sockets. -/
structure Admission where
  engine : Engine
  /-- The socket of the last call of `CreateSession` by a thread. -/
  socket : Nat → Nat := fun _ => 0
  /-- How many sockets there have been. -/
  sockets : Nat := 0
  /-- The sockets that `Session::Initialize` has put into a session. -/
  given : List Nat := []
  /-- The sockets whose call has returned null. -/
  refused : List Nat := []

/-- The thread has tested the limit or taken a slot, or found that it cannot. -/
def Admission.tested (s : Admission) (t : Nat) (engine : Engine) : Admission :=
  if engine.threads t = .idle then
    { s with engine := engine, refused := s.refused ++ [s.socket t] }
  else { s with engine := engine }

/-- What becomes of the sockets in a step after which the engine is `engine`. -/
def Admission.note (s : Admission) (engine : Engine) : Act → Admission
  | .create t =>
      { s with
        engine := engine
        socket := Function.update s.socket t s.sockets
        sockets := s.sockets + 1 }
  | .thread t _ =>
      match s.engine.threads t with
      | .limitTest => s.tested t engine
      | .acquire => s.tested t engine
      | .initSession _ => { s with engine := engine, given := s.given ++ [s.socket t] }
      | _ => { s with engine := engine }
  | _ => { s with engine := engine }

/-- One step. -/
def admissionStep (workerCount : Nat) (s : Admission) (a : Act) : Option Admission :=
  (step workerCount s.engine a).map fun engine => s.note engine a

/-- Nobody has called `CreateSession` yet. -/
def Admission.init (capacity : Nat) : Admission := { engine := .init capacity }

/-! ## What a step does to the manager -/

/-- In `CreateSession`, before the socket is given away. -/
def ThreadPc.pending : ThreadPc → Bool
  | .limitTest => true
  | .acquire => true
  | .initSession _ => true
  | _ => false

/-- `CreateSession` has passed the limit test and not inserted its session. -/
def ThreadPc.admitted : ThreadPc → Bool
  | .acquire => true
  | .initSession _ => true
  | .register _ _ => true
  | _ => false

/-- In `CreateSession`. -/
def ThreadPc.inCreate (pc : ThreadPc) : Bool := pc.pending || pc.admitted

/-- No call of `CreateSession` moves, and no session is added. -/
structure Quiet (s s' : Engine) : Prop where
  threads : ∀ t, s'.threads t = s.threads t ∨
    (s.threads t).inCreate = false ∧ (s'.threads t).inCreate = false
  mSessions : s'.mSessions.Sublist s.mSessions

/-- What a step does to the calls of `CreateSession` and to the map. -/
inductive Effect (s s' : Engine) : Act → Prop where
  | create (t : Nat) : s.threads t = .idle →
      s'.threads = Function.update s.threads t .limitTest → s'.mSessions = s.mSessions →
      Effect s s' (.create t)
  | limitTest (t : Nat) (accepted : Bool) : s.threads t = .limitTest →
      s'.threads = Function.update s.threads t
        (if maxConnections ≤ s.mSessions.length then .idle else .acquire) →
      s'.mSessions = s.mSessions → Effect s s' (.thread t accepted)
  | exhausted (t : Nat) (accepted : Bool) : s.threads t = .acquire →
      s'.threads = Function.update s.threads t .idle → s'.mSessions = s.mSessions →
      Effect s s' (.thread t accepted)
  | acquire (t k : Nat) (accepted : Bool) : s.threads t = .acquire →
      s'.threads = Function.update s.threads t (.initSession k) → s'.mSessions = s.mSessions →
      Effect s s' (.thread t accepted)
  | initSession (t k id : Nat) (accepted : Bool) : s.threads t = .initSession k →
      s'.threads = Function.update s.threads t (.register k id) → s'.mSessions = s.mSessions →
      Effect s s' (.thread t accepted)
  | register (t k id : Nat) (accepted : Bool) : s.threads t = .register k id →
      s'.threads = Function.update s.threads t .idle →
      s'.mSessions = (id, k) :: s.mSessions.filter (fun e => e.1 ≠ id) →
      Effect s s' (.thread t accepted)
  | quiet (a : Act) : (∀ t, a ≠ .create t) →
      (∀ t accepted, a = .thread t accepted → (s.threads t).inCreate = false) →
      Quiet s s' → Effect s s' a

section
variable {workerCount : Nat} {s s' : Engine}

/-- A thread that is in another call moves. -/
theorem Quiet.of_update (t : Nat) (pc : ThreadPc) (hold : (s.threads t).inCreate = false)
    (hnew : pc.inCreate = false) (hthreads : s'.threads = Function.update s.threads t pc)
    (hsub : s'.mSessions.Sublist s.mSessions) : Quiet s s' := by
  refine ⟨fun t' => ?_, hsub⟩
  by_cases ht : t' = t
  · subst ht
    exact Or.inr ⟨hold, by rw [hthreads, Function.update_self]; exact hnew⟩
  · exact Or.inl (by rw [hthreads, Function.update_of_ne ht])

/-- No thread moves. -/
theorem Quiet.of_same (hthreads : s'.threads = s.threads)
    (hsub : s'.mSessions.Sublist s.mSessions) : Quiet s s' :=
  ⟨fun _ => Or.inl (by rw [hthreads]), hsub⟩

/-- Fewer references are fewer sessions. -/
theorem sublist_mSessions {refs : List (Ref Holder Nat)} (h : refs.Sublist s.refs) :
    (refs.filterMap entry).Sublist s.mSessions :=
  h.filterMap entry

/-- The same references of the manager are the same sessions. -/
theorem sublist_mSessions_of_eq {refs : List (Ref Holder Nat)}
    (h : refs.filterMap entry = s.mSessions) : (refs.filterMap entry).Sublist s.mSessions := by
  rw [h]

/-- References of others are no sessions. -/
theorem filterMap_entry_thread (ks : List Nat) (t : Nat) (refs : List (Ref Holder Nat)) :
    ((ks.map fun k => Ref.mk (Holder.thread t) k) ++ refs).filterMap entry =
      refs.filterMap entry := by
  induction ks with
  | nil => rfl
  | cons k ks ih =>
      rw [List.map_cons, List.cons_append, List.filterMap_cons_none rfl]
      exact ih

/-- The map without an id. -/
theorem filterMap_entry_filter (id : Nat) (refs : List (Ref Holder Nat)) :
    (refs.filter fun r => r.holder ≠ .map id).filterMap entry =
      (refs.filterMap entry).filter fun e => e.1 ≠ id := by
  induction refs with
  | nil => rfl
  | cons r refs ih =>
      obtain ⟨holder, k⟩ := r
      cases holder with
      | map id' =>
          by_cases hid : id' = id
          · simpa [entry, hid] using ih
          · simpa [entry, hid] using ih
      | thread t =>
          rw [List.filter_cons_of_pos (by simp), List.filterMap_cons_none rfl,
            List.filterMap_cons_none rfl, ih]
      | closure n =>
          rw [List.filter_cons_of_pos (by simp), List.filterMap_cons_none rfl,
            List.filterMap_cons_none rfl, ih]

/-- A step of `Submit` is quiet. -/
theorem quiet_submitStep {t n : Nat} {accepted : Bool} (hpc : s.threads t = .submit n)
    (hs : submitStep workerCount s t n accepted = some s') : Quiet s s' := by
  have hold : (s.threads t).inCreate = false := by rw [hpc]; rfl
  have hfilter : (s.refs.filter fun r => r.holder ≠ .closure n).Sublist s.refs :=
    List.filter_sublist
  cases hstage : (s.closures n).stage with
  | beginTask | cancelledTest =>
      simp only [submitStep, hstage, Option.some.injEq] at hs
      subst hs
      exact .of_same rfl (.refl _)
  | dispatch =>
      simp only [submitStep, hstage] at hs
      split at hs <;> cases hs
      · exact .of_same rfl (.refl _)
      · exact .of_same rfl (sublist_mSessions hfilter)
  | push =>
      simp only [submitStep, hstage] at hs
      split at hs <;> cases hs
      · exact .of_update t .idle hold rfl rfl (.refl _)
      · exact .of_same rfl (sublist_mSessions hfilter)
  | cancelled =>
      simp only [submitStep, hstage, Option.some.injEq] at hs
      subst hs
      exact .of_update t .idle hold rfl rfl (sublist_mSessions hfilter)
  | rejected =>
      simp only [submitStep, hstage, Option.some.injEq] at hs
      subst hs
      split
      · exact .of_update t .idle hold rfl rfl (.refl _)
      · exact .of_update t .idle hold rfl rfl (.refl _)
  | _ => simp [submitStep, hstage] at hs

/-- A step of a worker is quiet. -/
theorem quiet_workerStep {i : Nat} {throws : Bool}
    (hs : workerStep s i throws = some s') : Quiet s s' := by
  have hdrop : (s.dropTask i).threads = s.threads ∧
      (s.dropTask i).mSessions.Sublist s.mSessions := by
    simp only [Engine.dropTask]
    split
    · exact ⟨rfl, .refl _⟩
    · exact ⟨rfl, sublist_mSessions List.filter_sublist⟩
  cases hpc : (s.workers i).pc with
  | pop =>
      simp only [workerStep, hpc] at hs
      split at hs
      · cases hs
        exact .of_same hdrop.1 hdrop.2
      · split at hs <;> cases hs
        exact .of_same hdrop.1 hdrop.2
  | run =>
      simp only [workerStep, hpc] at hs
      split at hs
      next n htask =>
        cases hstage : (s.closures n).stage with
        | popped | endTask =>
            simp only [runStep, hstage, Option.some.injEq] at hs
            subst hs
            exact .of_same rfl (.refl _)
        | body =>
            simp only [runStep, hstage, Option.some.injEq] at hs
            subst hs
            split
            · exact .of_same rfl (.refl _)
            · split
              · exact .of_same rfl (.refl _)
              · exact .of_same rfl (.refl _)
        | _ => simp [runStep, hstage] at hs
      · cases hs
  | exited => simp [workerStep, hpc] at hs

/-- A step of a thread. -/
theorem effect_of_threadStep {t : Nat} {accepted : Bool}
    (hs : threadStep workerCount s t accepted = some s') : Effect s s' (.thread t accepted) := by
  have hother : (s.threads t).inCreate = false → Quiet s s' →
      Effect s s' (.thread t accepted) := fun hold hquiet =>
    .quiet _ (fun _ h => by cases h) (fun t' accepted' h => by cases h; exact hold) hquiet
  cases hpc : s.threads t with
  | idle => simp [threadStep, hpc] at hs
  | limitTest =>
      simp only [threadStep, hpc, Option.some.injEq] at hs
      subst hs
      exact .limitTest t accepted hpc rfl rfl
  | acquire =>
      simp only [threadStep, hpc] at hs
      split at hs <;> cases hs
      · exact .exhausted t accepted hpc rfl rfl
      next k rest hfree =>
        refine .acquire t k accepted hpc rfl ?_
        simp only [Engine.mSessions, Engine.setThread, Engine.addRef, Engine.setSlot]
        exact List.filterMap_cons_none rfl
  | initSession k =>
      simp only [threadStep, hpc, Option.some.injEq] at hs
      subst hs
      exact .initSession t k _ accepted hpc rfl rfl
  | register k id =>
      simp only [threadStep, hpc, Option.some.injEq] at hs
      subst hs
      refine .register t k id accepted hpc rfl ?_
      simp only [Engine.mSessions, Engine.setThread, Engine.setRefs]
      have hentry : entry ⟨.map id, k⟩ = some (id, k) := rfl
      rw [List.filterMap_cons_some hentry, filterMap_entry_filter]
  | close k next =>
      have hold : (s.threads t).inCreate = false := by rw [hpc]; rfl
      have hnext : next.pc.inCreate = false := by cases next <;> rfl
      simp only [threadStep, hpc, Option.some.injEq] at hs
      subst hs
      refine hother hold ?_
      split
      · exact .of_update t _ hold hnext rfl (.refl _)
      · exact .of_update t (.cancel k next) hold rfl rfl (.refl _)
  | cancel k next =>
      have hold : (s.threads t).inCreate = false := by rw [hpc]; rfl
      have hnext : next.pc.inCreate = false := by cases next <;> rfl
      simp only [threadStep, hpc, Option.some.injEq] at hs
      subst hs
      exact hother hold (.of_update t _ hold hnext rfl (.refl _))
  | removeTest k id =>
      have hold : (s.threads t).inCreate = false := by rw [hpc]; rfl
      simp only [threadStep, hpc, Option.some.injEq] at hs
      subst hs
      refine hother hold (.of_update t _ hold ?_ rfl (.refl _))
      split <;> rfl
  | erase id =>
      have hold : (s.threads t).inCreate = false := by rw [hpc]; rfl
      simp only [threadStep, hpc, Option.some.injEq] at hs
      subst hs
      exact hother hold (.of_update t .idle hold rfl rfl
        (sublist_mSessions List.filter_sublist))
  | closeAll rest =>
      have hold : (s.threads t).inCreate = false := by rw [hpc]; rfl
      cases rest with
      | nil =>
          simp only [threadStep, hpc, Option.some.injEq] at hs
          subst hs
          exact hother hold (.of_update t .idle hold rfl rfl
            (sublist_mSessions List.filter_sublist))
      | cons k rest =>
          simp only [threadStep, hpc, Option.some.injEq] at hs
          subst hs
          exact hother hold (.of_update t (.close k (.closeAll rest)) hold rfl rfl
            (.refl _))
  | submit n =>
      simp only [threadStep, hpc] at hs
      exact hother (by rw [hpc]; rfl) (quiet_submitStep hpc hs)

/-- Every other step is quiet. -/
theorem quiet_of_step {a : Act} (hcreate : ∀ t, a ≠ .create t)
    (hthread : ∀ t accepted, a ≠ .thread t accepted) (hs : step workerCount s a = some s') :
    Quiet s s' := by
  simp only [step] at hs
  split at hs
  · cases hs
  have hidle : ∀ {t}, s.threads t = .idle → (s.threads t).inCreate = false := fun h => by
    rw [h]
    rfl
  have hmore : ∀ {r : Ref Holder Nat}, entry r = none →
      ((r :: s.refs).filterMap entry).Sublist s.mSessions := fun hr =>
    sublist_mSessions_of_eq (List.filterMap_cons_none hr)
  cases a with
  | create t => exact absurd rfl (hcreate t)
  | thread t accepted => exact absurd rfl (hthread t accepted)
  | get t id =>
      simp only at hs
      split at hs
      · split at hs <;> cases hs
        · exact .of_same rfl (.refl _)
        · exact .of_same rfl (hmore rfl)
      · cases hs
  | copy t k =>
      simp only at hs
      split at hs <;> cases hs
      exact .of_same rfl (hmore rfl)
  | drop t k =>
      simp only at hs
      split at hs <;> cases hs
      exact .of_same rfl (sublist_mSessions List.erase_sublist)
  | removeId t id =>
      simp only at hs
      split at hs <;> cases hs
      next hpc => exact .of_update t (.erase id) (hidle hpc) rfl rfl (.refl _)
  | remove t k =>
      simp only at hs
      split at hs <;> cases hs
      next hpc =>
        exact .of_update t (.removeTest k (s.slots k).mId) (hidle hpc.1) rfl rfl
          (.refl _)
  | close t k =>
      simp only at hs
      split at hs <;> cases hs
      next hpc =>
        exact .of_update t (.close k .nothing) (hidle hpc.1) rfl rfl (.refl _)
  | closeAll t =>
      simp only at hs
      split at hs <;> cases hs
      next hpc =>
        exact .of_update t (.closeAll (s.mSessions.map Prod.snd)) (hidle hpc) rfl rfl
          (sublist_mSessions_of_eq (filterMap_entry_thread _ t s.refs))
  | submit t k n inScope =>
      simp only at hs
      split at hs <;> cases hs
      next hpc => exact .of_update t (.submit n) (hidle hpc.1) rfl rfl (hmore rfl)
  | give i t =>
      simp only at hs
      split at hs
      · cases hs
      · split at hs <;> cases hs
        exact .of_same rfl (hmore rfl)
  | worker i throws => exact quiet_workerStep hs
  | shutdown =>
      cases hs
      exact .of_same rfl (.refl _)
  | clear i =>
      simp only at hs
      split at hs
      · split at hs <;> cases hs
        exact .of_same rfl (sublist_mSessions List.filter_sublist)
      · cases hs
  | release k =>
      simp only [releaseStep] at hs
      split at hs
      · cases hs
      · cases hs
        exact .of_same rfl (.refl _)
      · cases hs
        split
        · exact .of_same rfl (.refl _)
        · exact .of_same rfl (.refl _)
      · cases hs
        exact .of_same rfl (.refl _)

/-- Every step has one of the effects. -/
theorem effect_of_step {a : Act} (hs : step workerCount s a = some s') : Effect s s' a := by
  cases a with
  | create t =>
      simp only [step] at hs
      split at hs
      · cases hs
      · split at hs <;> cases hs
        next hpc => exact .create t hpc rfl rfl
  | thread t accepted =>
      simp only [step] at hs
      split at hs
      · cases hs
      · exact effect_of_threadStep hs
  | _ =>
      exact .quiet _ (by simp) (by simp) (quiet_of_step (by simp) (by simp) hs)

end

/-! ## What becomes of a socket -/

/-- A call that has not given its socket away has one of its own, and a socket that was
refused is nobody's. -/
structure Sockets (s : Admission) : Prop where
  pending : ∀ t, (s.engine.threads t).pending = true →
    s.socket t < s.sockets ∧ s.socket t ∉ s.given ∧ s.socket t ∉ s.refused
  distinct : ∀ t t', (s.engine.threads t).pending = true →
    (s.engine.threads t').pending = true → s.socket t = s.socket t' → t = t'
  given : ∀ c ∈ s.given, c < s.sockets
  refused : ∀ c ∈ s.refused, c < s.sockets
  untouched : ∀ c ∈ s.refused, c ∉ s.given
  once : s.refused.Nodup

theorem sockets_init (capacity : Nat) : Sockets (.init capacity) where
  pending _ h := by cases h
  distinct _ _ h := by cases h
  given _ h := absurd h List.not_mem_nil
  refused _ h := absurd h List.not_mem_nil
  untouched _ h := absurd h List.not_mem_nil
  once := List.nodup_nil

section
variable {workerCount : Nat} {s s' : Admission} {engine : Engine} {t : Nat}

/-- The calls that are pending were so before. -/
theorem Sockets.keep (h : Sockets s)
    (hpending : ∀ t, (engine.threads t).pending = true → (s.engine.threads t).pending = true) :
    Sockets { s with engine := engine } :=
  { h with
    pending := fun t ht => h.pending t (hpending t ht)
    distinct := fun t t' ht ht' => h.distinct t t' (hpending t ht) (hpending t' ht') }

/-- A call returns null. -/
theorem Sockets.refuse (h : Sockets s) (ht : (s.engine.threads t).pending = true)
    (hpending : ∀ t', (engine.threads t').pending = true →
      t' ≠ t ∧ (s.engine.threads t').pending = true) :
    Sockets { s with engine := engine, refused := s.refused ++ [s.socket t] } where
  pending t' ht' := by
    obtain ⟨hne, hold⟩ := hpending t' ht'
    obtain ⟨hlt, hgiven, hrefused⟩ := h.pending t' hold
    refine ⟨hlt, hgiven, fun hmem => ?_⟩
    rcases List.mem_append.mp hmem with hmem | hmem
    · exact hrefused hmem
    · exact hne (h.distinct t' t hold ht (List.mem_singleton.mp hmem))
  distinct t₁ t₂ h₁ h₂ := h.distinct t₁ t₂ (hpending t₁ h₁).2 (hpending t₂ h₂).2
  given := h.given
  refused c hc := by
    rcases List.mem_append.mp hc with hc | hc
    · exact h.refused c hc
    · rw [List.mem_singleton.mp hc]
      exact (h.pending t ht).1
  untouched c hc := by
    rcases List.mem_append.mp hc with hc | hc
    · exact h.untouched c hc
    · rw [List.mem_singleton.mp hc]
      exact (h.pending t ht).2.1
  once := by
    refine List.nodup_append.mpr ⟨h.once, List.nodup_singleton _, fun c hc d hd => ?_⟩
    rw [List.mem_singleton.mp hd]
    rintro rfl
    exact (h.pending t ht).2.2 hc

/-- A call gives its socket to a session. -/
theorem Sockets.give (h : Sockets s) (ht : (s.engine.threads t).pending = true)
    (hpending : ∀ t', (engine.threads t').pending = true →
      t' ≠ t ∧ (s.engine.threads t').pending = true) :
    Sockets { s with engine := engine, given := s.given ++ [s.socket t] } where
  pending t' ht' := by
    obtain ⟨hne, hold⟩ := hpending t' ht'
    obtain ⟨hlt, hgiven, hrefused⟩ := h.pending t' hold
    refine ⟨hlt, fun hmem => ?_, hrefused⟩
    rcases List.mem_append.mp hmem with hmem | hmem
    · exact hgiven hmem
    · exact hne (h.distinct t' t hold ht (List.mem_singleton.mp hmem))
  distinct t₁ t₂ h₁ h₂ := h.distinct t₁ t₂ (hpending t₁ h₁).2 (hpending t₂ h₂).2
  given c hc := by
    rcases List.mem_append.mp hc with hc | hc
    · exact h.given c hc
    · rw [List.mem_singleton.mp hc]
      exact (h.pending t ht).1
  refused := h.refused
  untouched c hc hmem := by
    rcases List.mem_append.mp hmem with hmem | hmem
    · exact h.untouched c hc hmem
    · rw [List.mem_singleton.mp hmem] at hc
      exact (h.pending t ht).2.2 hc
  once := h.once

/-- A call begins with a new socket. -/
theorem Sockets.create (h : Sockets s)
    (hthreads : engine.threads = Function.update s.engine.threads t .limitTest) :
    Sockets { s with
      engine := engine
      socket := Function.update s.socket t s.sockets
      sockets := s.sockets + 1 } where
  pending t' ht' := by
    by_cases hne : t' = t
    · subst hne
      simp only [Function.update_self]
      exact ⟨Nat.lt_succ_self _, fun hc => Nat.lt_irrefl _ (h.given _ hc),
        fun hc => Nat.lt_irrefl _ (h.refused _ hc)⟩
    · simp only [hthreads, Function.update_of_ne hne] at ht' ⊢
      obtain ⟨hlt, hrest⟩ := h.pending t' ht'
      exact ⟨Nat.lt_succ_of_lt hlt, hrest⟩
  distinct t₁ t₂ h₁ h₂ heq := by
    by_cases hne₁ : t₁ = t
    · by_cases hne₂ : t₂ = t
      · rw [hne₁, hne₂]
      · subst hne₁
        simp only [hthreads, Function.update_of_ne hne₂] at h₂
        simp only [Function.update_self, Function.update_of_ne hne₂] at heq
        exact absurd (h.pending t₂ h₂).1 (by omega)
    · simp only [hthreads, Function.update_of_ne hne₁] at h₁
      by_cases hne₂ : t₂ = t
      · subst hne₂
        simp only [Function.update_self, Function.update_of_ne hne₁] at heq
        exact absurd (h.pending t₁ h₁).1 (by omega)
      · simp only [hthreads, Function.update_of_ne hne₂] at h₂
        simp only [Function.update_of_ne hne₁, Function.update_of_ne hne₂] at heq
        exact h.distinct t₁ t₂ h₁ h₂ heq
  given c hc := Nat.lt_succ_of_lt (h.given c hc)
  refused c hc := Nat.lt_succ_of_lt (h.refused c hc)
  untouched := h.untouched
  once := h.once

/-- Only the thread that moves may have come to an end. -/
theorem pending_of_update {threads : Nat → ThreadPc} (pc : ThreadPc) (hpc : pc.pending = false)
    (hthreads : engine.threads = Function.update threads t pc) (t' : Nat)
    (ht' : (engine.threads t').pending = true) : t' ≠ t ∧ (threads t').pending = true := by
  by_cases hne : t' = t
  · subst hne
    rw [hthreads, Function.update_self, hpc] at ht'
    cases ht'
  · rw [hthreads, Function.update_of_ne hne] at ht'
    exact ⟨hne, ht'⟩

/-- Every step keeps the sockets apart. -/
theorem Sockets.step {a : Act} (h : Sockets s) (hs : admissionStep workerCount s a = some s') :
    Sockets s' := by
  obtain ⟨engine, hengine, rfl⟩ := Option.map_eq_some_iff.mp hs
  cases effect_of_step hengine with
  | create t hpc hthreads hmap => exact h.create hthreads
  | limitTest t accepted hpc hthreads hmap =>
      have ht : (s.engine.threads t).pending = true := by rw [hpc]; rfl
      simp only [Admission.note, hpc, Admission.tested]
      split
      next hidle =>
        refine h.refuse ht fun t' => pending_of_update (engine.threads t) ?_ ?_ t'
        · rw [hidle]
          rfl
        · rw [hthreads, Function.update_self]
      · refine h.keep fun t' ht' => ?_
        by_cases hne : t' = t
        · rwa [hne]
        · rwa [hthreads, Function.update_of_ne hne] at ht'
  | exhausted t accepted hpc hthreads hmap =>
      have ht : (s.engine.threads t).pending = true := by rw [hpc]; rfl
      have hidle : engine.threads t = .idle := by rw [hthreads, Function.update_self]
      simp only [Admission.note, hpc, Admission.tested, hidle, if_true]
      exact h.refuse ht (pending_of_update _ rfl hthreads)
  | acquire t k accepted hpc hthreads hmap =>
      have hinit : engine.threads t = .initSession k := by rw [hthreads, Function.update_self]
      simp only [Admission.note, hpc, Admission.tested, hinit, reduceCtorEq, if_false]
      refine h.keep fun t' ht' => ?_
      by_cases hne : t' = t
      · rw [hne, hpc]
        rfl
      · rwa [hthreads, Function.update_of_ne hne] at ht'
  | initSession t k id accepted hpc hthreads hmap =>
      have ht : (s.engine.threads t).pending = true := by rw [hpc]; rfl
      simp only [Admission.note, hpc]
      exact h.give ht (pending_of_update _ rfl hthreads)
  | register t k id accepted hpc hthreads hmap =>
      simp only [Admission.note, hpc]
      exact h.keep fun t' ht' => (pending_of_update _ rfl hthreads t' ht').2
  | quiet a hcreate hthread hquiet =>
      have hnote : s.note engine a = { s with engine := engine } := by
        cases a with
        | create t => exact absurd rfl (hcreate t)
        | thread t accepted =>
            have hold := hthread t accepted rfl
            cases hpc : s.engine.threads t with
            | limitTest | acquire | initSession k => rw [hpc] at hold; cases hold
            | _ => simp only [Admission.note, hpc]
        | _ => rfl
      rw [hnote]
      refine h.keep fun t ht => ?_
      rcases hquiet.threads t with heq | ⟨-, hnew⟩
      · rwa [← heq]
      · rw [ThreadPc.inCreate, ht] at hnew
        cases hnew

end

/-! ## The limit -/

/-- What `CreateSession` promises: there are no more sessions than the limit, and the socket
of a call that returns null, which returns once, is in no session. -/
structure Limited (s : Admission) : Prop where
  limit : s.engine.mSessions.length ≤ maxConnections
  untouched : ∀ c ∈ s.refused, c ∉ s.given
  once : s.refused.Nodup

/-- The id under which the step inserts a session. -/
def Admission.inserted (s : Admission) : Act → List Nat
  | .thread t _ =>
      match s.engine.threads t with
      | .register _ id => [id]
      | _ => []
  | _ => []

/-- When a session is inserted there is still room for it, or it replaces one. -/
def Below (s : Admission) (a : Act) : Prop :=
  ∀ id ∈ s.inserted a, s.engine.mSessions.length < maxConnections ∨
    id ∈ s.engine.mSessions.map Prod.fst

instance (s : Admission) (a : Act) : Decidable (Below s a) :=
  inferInstanceAs (Decidable (∀ id ∈ s.inserted a, _ ∨ _))

section
variable {workerCount : Nat} {s s' : Admission} {a : Act}

@[simp] theorem note_engine (s : Admission) (engine : Engine) (a : Act) :
    (s.note engine a).engine = engine := by
  cases a with
  | thread t accepted =>
      cases hpc : s.engine.threads t with
      | limitTest | acquire =>
          simp only [Admission.note, hpc, Admission.tested]
          split <;> rfl
      | _ => simp only [Admission.note, hpc]
  | _ => rfl

/-- A step that does not insert adds nothing. -/
theorem length_of_step (hs : admissionStep workerCount s a = some s') (hnone : s.inserted a = []) :
    s'.engine.mSessions.length ≤ s.engine.mSessions.length := by
  obtain ⟨engine, hengine, rfl⟩ := Option.map_eq_some_iff.mp hs
  rw [note_engine]
  cases effect_of_step hengine with
  | create t hpc hthreads hmap => rw [hmap]
  | limitTest t accepted hpc hthreads hmap => rw [hmap]
  | exhausted t accepted hpc hthreads hmap => rw [hmap]
  | acquire t k accepted hpc hthreads hmap => rw [hmap]
  | initSession t k id accepted hpc hthreads hmap => rw [hmap]
  | register t k id accepted hpc hthreads hmap =>
      simp [Admission.inserted, hpc] at hnone
  | quiet a hcreate hthread hquiet => exact hquiet.mSessions.length_le

/-- A step that inserts. -/
theorem mSessions_of_step {id : Nat} (hs : admissionStep workerCount s a = some s')
    (hid : id ∈ s.inserted a) :
    ∃ k, s'.engine.mSessions = (id, k) :: s.engine.mSessions.filter fun e => e.1 ≠ id := by
  obtain ⟨engine, hengine, rfl⟩ := Option.map_eq_some_iff.mp hs
  rw [note_engine]
  cases effect_of_step hengine with
  | register t k id' accepted hpc hthreads hmap =>
      simp only [Admission.inserted, hpc, List.mem_singleton] at hid
      subst hid
      exact ⟨k, hmap⟩
  | create t hpc hthreads hmap => cases hid
  | limitTest t accepted hpc hthreads hmap | exhausted t accepted hpc hthreads hmap
  | acquire t k accepted hpc hthreads hmap | initSession t k id' accepted hpc hthreads hmap =>
      simp [Admission.inserted, hpc] at hid
  | quiet a hcreate hthread hquiet =>
      cases a with
      | thread t accepted =>
          have hold := hthread t accepted rfl
          cases hpc : s.engine.threads t with
          | register k id' => rw [hpc] at hold; cases hold
          | _ => simp [Admission.inserted, hpc] at hid
      | _ => cases hid

/-- A step that meets the condition keeps to the limit. -/
theorem length_le_of_below (hlimit : s.engine.mSessions.length ≤ maxConnections)
    (hok : Below s a) (hs : admissionStep workerCount s a = some s') :
    s'.engine.mSessions.length ≤ maxConnections := by
  cases hinserted : s.inserted a with
  | nil => exact (length_of_step hs hinserted).trans hlimit
  | cons id ids =>
      have hid : id ∈ s.inserted a := by rw [hinserted]; exact List.mem_cons_self ..
      obtain ⟨k, hmap⟩ := mSessions_of_step hs hid
      rw [hmap, List.length_cons]
      rcases hok id hid with hroom | hmem
      · have hfilter := List.length_filter_le (fun e : Nat × Nat => decide (e.1 ≠ id))
          s.engine.mSessions
        omega
      · obtain ⟨e, he, rfl⟩ := List.mem_map.mp hmem
        have hfilter : (s.engine.mSessions.filter fun x => x.1 ≠ e.1).length <
            s.engine.mSessions.length :=
          List.length_filter_lt_length_iff_exists.mpr ⟨e, he, by simp⟩
        omega

/-- A step that does not meet it exceeds the limit. -/
theorem not_limited_of_step (hno : ¬ Below s a) (hs : admissionStep workerCount s a = some s') :
    ¬ Limited s' := by
  simp only [Below, not_forall, not_or] at hno
  obtain ⟨id, hid, hfull, hfresh⟩ := hno
  obtain ⟨k, hmap⟩ := mSessions_of_step hs hid
  intro hlimited
  have hall : (s.engine.mSessions.filter fun e => e.1 ≠ id) = s.engine.mSessions := by
    refine List.filter_eq_self.mpr fun e he => ?_
    simp only [decide_eq_true_eq]
    rintro rfl
    exact hfresh (List.mem_map_of_mem he)
  have hlimit := hlimited.limit
  rw [hmap, hall, List.length_cons] at hlimit
  omega

theorem limited_init (capacity : Nat) : Limited (.init capacity) where
  limit := Nat.zero_le _
  untouched _ h := absurd h List.not_mem_nil
  once := List.nodup_nil

end

/-- A run keeps to the limit, whatever the capacity of the pool, exactly if there is room
whenever a session is inserted. -/
theorem limited_iff (workerCount capacity : Nat) (as : List Act) (s : Admission)
    (hrun : Machine.run (admissionStep workerCount) (.init capacity) as = some s) :
    Machine.Always (admissionStep workerCount) Limited (.init capacity) as ↔
      Machine.Meets (admissionStep workerCount) Below (.init capacity) as := by
  refine Machine.always_iff_meets (fun _ _ _ h hs => Sockets.step h hs)
    (fun s a s' h hlimited hok hs => ?_) (fun _ _ _ _ hno hs => not_limited_of_step hno hs)
    (sockets_init capacity) (limited_init capacity) hrun
  have hsockets := h.step hs
  exact ⟨length_le_of_below hlimited.limit hok hs, hsockets.untouched, hsockets.once⟩

/-- The pool has one slot, and the second call finds it in use. -/
def exhaustedTrace : List Act :=
  List.flatten [createTrace 0, [.create 1], List.replicate 2 (.thread 1 false)]

theorem limited_iff_exhausted : ∃ s,
    Machine.run (admissionStep 1) (.init 1) exhaustedTrace = some s ∧
      s.given = [0] ∧ s.refused = [1] ∧
      Machine.Always (admissionStep 1) Limited (.init 1) exhaustedTrace :=
  ⟨_, rfl, rfl, rfl, (limited_iff 1 1 exhaustedTrace _ rfl).mpr (by decide)⟩

/-! ## One thread that makes the sessions -/

/-- Only the thread `t` is in `CreateSession`, and what the limit test has found still
holds. -/
structure Solo (t : Nat) (s : Engine) : Prop where
  others : ∀ t', t' ≠ t → (s.threads t').inCreate = false
  room : (s.threads t).admitted = true → s.mSessions.length < maxConnections

section
variable {workerCount : Nat} {s s' : Engine} {a : Act} {t : Nat}

/-- The thread goes on in its call. -/
theorem Solo.move (h : Solo t s) {pc : ThreadPc} (hthreads : s'.threads =
    Function.update s.threads t pc)
    (hroom : pc.admitted = true → s'.mSessions.length < maxConnections) : Solo t s' := by
  refine ⟨fun t' hne => ?_, fun hadmitted => hroom ?_⟩
  · rw [hthreads, Function.update_of_ne hne]
    exact h.others t' hne
  · rwa [hthreads, Function.update_self] at hadmitted

/-- A thread in `CreateSession` is the one. -/
theorem Solo.eq (h : Solo t s) (t' : Nat) (hin : (s.threads t').inCreate = true) : t' = t := by
  by_contra hne
  rw [h.others t' hne] at hin
  cases hin

theorem Solo.step (h : Solo t s) (hone : ∀ t', a = .create t' → t' = t)
    (hs : step workerCount s a = some s') : Solo t s' := by
  cases effect_of_step hs with
  | create t' hpc hthreads hmap =>
      obtain rfl := hone t' rfl
      exact h.move hthreads fun hadmitted => by cases hadmitted
  | limitTest t' accepted hpc hthreads hmap =>
      obtain rfl := h.eq t' (by rw [hpc]; rfl)
      refine h.move hthreads fun hadmitted => ?_
      rw [hmap]
      split at hadmitted
      · cases hadmitted
      next hroom => exact Nat.lt_of_not_le hroom
  | exhausted t' accepted hpc hthreads hmap =>
      obtain rfl := h.eq t' (by rw [hpc]; rfl)
      exact h.move hthreads fun hadmitted => by cases hadmitted
  | acquire t' k accepted hpc hthreads hmap | initSession t' k id accepted hpc hthreads hmap =>
      obtain rfl := h.eq t' (by rw [hpc]; rfl)
      refine h.move hthreads fun _ => ?_
      rw [hmap]
      exact h.room (by rw [hpc]; rfl)
  | register t' k id accepted hpc hthreads hmap =>
      obtain rfl := h.eq t' (by rw [hpc]; rfl)
      exact h.move hthreads fun hadmitted => by cases hadmitted
  | quiet a hcreate hthread hquiet =>
      have hlength := hquiet.mSessions.length_le
      refine ⟨fun t' hne => ?_, fun hadmitted => ?_⟩
      · rcases hquiet.threads t' with heq | ⟨-, hnew⟩
        · rw [heq]
          exact h.others t' hne
        · exact hnew
      · rcases hquiet.threads t with heq | ⟨-, hnew⟩
        · rw [heq] at hadmitted
          exact Nat.lt_of_le_of_lt hlength (h.room hadmitted)
        · simp [ThreadPc.inCreate, hadmitted] at hnew

/-- It inserts its session where the limit test has found room. -/
theorem Solo.below {s : Admission} (h : Solo t s.engine) : Below s a := by
  intro id hid
  cases a with
  | thread t' accepted =>
      cases hpc : s.engine.threads t' with
      | register k id' =>
          obtain rfl := h.eq t' (by rw [hpc]; rfl)
          exact Or.inl (h.room (by rw [hpc]; rfl))
      | _ => simp [Admission.inserted, hpc] at hid
  | _ => cases hid

end

/-- A run in which one thread makes all the sessions keeps to the limit. -/
theorem limited_of_one_creator {workerCount capacity : Nat} {as : List Act} {s : Admission}
    (t : Nat) (hone : ∀ a ∈ as, ∀ t', a = .create t' → t' = t)
    (hrun : Machine.run (admissionStep workerCount) (.init capacity) as = some s) :
    Limited s := by
  have hinv : Solo t s.engine ∧ Sockets s ∧ Limited s := by
    have hmeets : Machine.Meets (admissionStep workerCount)
        (fun _ a => ∀ t', a = .create t' → t' = t) (.init capacity) as :=
      Machine.Meets.of_forall_mem hone _
    refine Machine.run_invariant_of_meets (I := fun s => Solo t s.engine ∧ Sockets s ∧ Limited s)
      ?_ ⟨⟨fun t' _ => rfl, fun h => by cases h⟩, sockets_init capacity, limited_init capacity⟩
      hmeets hrun
    rintro s a s' ⟨hsolo, hsockets, hlimited⟩ hok hs
    have hsockets' := hsockets.step hs
    have hlimit := length_le_of_below hlimited.limit hsolo.below hs
    obtain ⟨engine, hengine, rfl⟩ := Option.map_eq_some_iff.mp hs
    refine ⟨?_, hsockets', hlimit, hsockets'.untouched, hsockets'.once⟩
    rw [note_engine]
    exact hsolo.step hok hengine
  exact hinv.2.2

/-! ## Two calls for the last place -/

/-- Nothing that the sockets do keeps the engine from a step. -/
theorem exists_admissionRun {workerCount : Nat} {s : Admission} {as : List Act} {engine : Engine}
    (hrun : Machine.run (step workerCount) s.engine as = some engine) :
    ∃ s', Machine.run (admissionStep workerCount) s as = some s' ∧ s'.engine = engine := by
  induction as generalizing s with
  | nil =>
      cases hrun
      exact ⟨s, rfl, rfl⟩
  | cons a as ih =>
      obtain ⟨engine', hstep, hrest⟩ := Machine.run_cons_eq_some hrun
      obtain ⟨s', hs', heq⟩ := ih (s := s.note engine' a) (by rw [note_engine]; exact hrest)
      refine ⟨s', ?_, heq⟩
      rw [Machine.run_cons, admissionStep, hstep]
      exact hs'

/-- There are `n` sessions, `seq` ids have been given out, and `free` slots are left. -/
structure Filled (n seq free : Nat) (s : Engine) : Prop where
  running : s.aborted = false
  count : s.mSessions.length = n
  seq : s.sGlobalSeq = seq
  ids : ∀ e ∈ s.mSessions, e.1 ≤ n
  free : s.mFreeList.length = free

section
variable {workerCount n seq free : Nat} {s : Engine} {t : Nat}

/-- A thread goes on. -/
theorem run_thread {s' : Engine} {t : Nat} (hrunning : s.aborted = false)
    (hs : threadStep workerCount s t false = some s') (as : List Act) :
    Machine.run (step workerCount) s (.thread t false :: as) =
      Machine.run (step workerCount) s' as := by
  simp only [Machine.run, step, hrunning, Bool.false_eq_true, if_false, hs]

variable (workerCount)

/-- A call of `CreateSession` passes the limit test. -/
theorem exists_begin (h : Filled n seq free s) (hroom : n < maxConnections)
    (hidle : s.threads t = .idle) :
    ∃ s', Machine.run (step workerCount) s [.create t, .thread t false] = some s' ∧
      Filled n seq free s' ∧ s'.threads = Function.update s.threads t .acquire := by
  have hlength : ¬ maxConnections ≤ s.mSessions.length := by
    rw [h.count]
    omega
  refine ⟨(s.setThread t .limitTest).setThread t .acquire, ?_,
    ⟨h.running, h.count, h.seq, h.ids, h.free⟩, ?_⟩
  · have hcreate : step workerCount s (.create t) = some (s.setThread t .limitTest) := by
      simp only [step, h.running, hidle, Bool.false_eq_true, if_false, if_true]
    have htest : threadStep workerCount (s.setThread t .limitTest) t false =
        some ((s.setThread t .limitTest).setThread t .acquire) := by
      have hsame : (s.setThread t .limitTest).mSessions = s.mSessions := rfl
      have hpc : (s.setThread t .limitTest).threads t = .limitTest := Function.update_self ..
      simp only [threadStep, hpc, hsame, hlength, if_false]
    have hrunning : (s.setThread t .limitTest).aborted = false := h.running
    rw [Machine.run_cons, hcreate, Option.bind_some, run_thread hrunning htest]
    rfl
  · simp only [Engine.setThread, Function.update_idem]

/-- It takes a slot. -/
theorem exists_acquire (h : Filled n seq (free + 1) s) (hpc : s.threads t = .acquire) :
    ∃ s' k, threadStep workerCount s t false = some s' ∧ Filled n seq free s' ∧
      s'.threads = Function.update s.threads t (.initSession k) := by
  obtain ⟨k, rest, hfree⟩ := List.exists_cons_of_length_eq_add_one h.free
  refine ⟨_, k, by simp only [threadStep, hpc, hfree]; rfl, ?_, rfl⟩
  have hlength := h.free
  rw [hfree] at hlength
  exact ⟨h.running, h.count, h.seq, h.ids, Nat.succ.inj hlength⟩

/-- It gives the socket to the session, and takes an id. -/
theorem exists_initSession (h : Filled n seq free s) {k : Nat}
    (hpc : s.threads t = .initSession k) :
    ∃ s', threadStep workerCount s t false = some s' ∧ Filled n (seq + 1) free s' ∧
      s'.threads = Function.update s.threads t (.register k (nextGlobalId seq)) := by
  refine ⟨_, by simp only [threadStep, hpc, h.seq]; rfl, ?_, rfl⟩
  exact ⟨h.running, h.count, rfl, h.ids, h.free⟩

/-- It inserts the session. -/
theorem exists_register (h : Filled n seq free s) {k : Nat}
    (hpc : s.threads t = .register k (n + 1)) :
    ∃ s', threadStep workerCount s t false = some s' ∧ Filled (n + 1) seq free s' ∧
      s'.threads = Function.update s.threads t .idle := by
  refine ⟨_, by simp only [threadStep, hpc]; rfl, ?_, rfl⟩
  have hnew : ((s.setRefs (⟨.map (n + 1), k⟩ ::
      s.refs.filter fun r => r.holder ≠ .map (n + 1))).setThread t .idle).mSessions =
      (n + 1, k) :: s.mSessions := by
    have hentry : entry ⟨.map (n + 1), k⟩ = some (n + 1, k) := rfl
    simp only [Engine.mSessions, Engine.setThread, Engine.setRefs]
    rw [List.filterMap_cons_some hentry, filterMap_entry_filter]
    refine congrArg _ (List.filter_eq_self.mpr fun e he => ?_)
    have hle := h.ids e he
    simp only [decide_eq_true_eq]
    omega
  refine ⟨h.running, ?_, h.seq, fun e he => ?_, h.free⟩
  · rw [hnew, List.length_cons, h.count]
  · rw [hnew] at he
    rcases List.mem_cons.mp he with rfl | he
    · exact Nat.le_refl _
    · exact Nat.le_succ_of_le (h.ids e he)

/-- The rest of a call that has passed the limit test. -/
theorem exists_finish (h : Filled n n (free + 1) s) (hsmall : n + 1 < 2 ^ 64)
    (hpc : s.threads t = .acquire) :
    ∃ s', Machine.run (step workerCount) s (List.replicate 3 (.thread t false)) = some s' ∧
      Filled (n + 1) (n + 1) free s' ∧ s'.threads = Function.update s.threads t .idle := by
  have hid : nextGlobalId n = n + 1 := Nat.mod_eq_of_lt hsmall
  obtain ⟨s₁, k, hs₁, h₁, hthreads₁⟩ := exists_acquire workerCount h hpc
  obtain ⟨s₂, hs₂, h₂, hthreads₂⟩ := exists_initSession workerCount h₁
    (by rw [hthreads₁, Function.update_self])
  obtain ⟨s₃, hs₃, h₃, hthreads₃⟩ := exists_register workerCount h₂
    (by rw [hthreads₂, Function.update_self, hid])
  refine ⟨s₃, ?_, h₃, ?_⟩
  · rw [List.replicate, run_thread h.running hs₁, List.replicate, run_thread h₁.running hs₂,
      List.replicate, run_thread h₂.running hs₃]
    rfl
  · rw [hthreads₃, hthreads₂, hthreads₁, Function.update_idem, Function.update_idem]

/-- A thread makes a session. -/
theorem exists_create (h : Filled n n (free + 1) s) (hroom : n < maxConnections)
    (hidle : s.threads t = .idle) :
    ∃ s', Machine.run (step workerCount) s (createTrace t) = some s' ∧
      Filled (n + 1) (n + 1) free s' ∧ s'.threads = s.threads := by
  obtain ⟨s₁, hs₁, h₁, hthreads₁⟩ := exists_begin workerCount h hroom hidle
  obtain ⟨s₂, hs₂, h₂, hthreads₂⟩ := exists_finish workerCount h₁
    (by rw [maxConnections] at hroom; omega) (by rw [hthreads₁, Function.update_self])
  refine ⟨s₂, ?_, h₂, ?_⟩
  · have hsplit : createTrace t =
        [.create t, .thread t false] ++ List.replicate 3 (.thread t false) := rfl
    rw [hsplit, Machine.run_append, hs₁]
    exact hs₂
  · rw [hthreads₂, hthreads₁, Function.update_idem, ← hidle, Function.update_eq_self]

/-- It makes `n` sessions one after the other. -/
theorem exists_fill (free n : Nat) (hn : n ≤ maxConnections) :
    ∃ s, Machine.run (step workerCount) (.init (n + free))
        (List.replicate n (createTrace t)).flatten = some s ∧
      Filled n n free s ∧ ∀ t, s.threads t = .idle := by
  induction n generalizing free with
  | zero =>
      refine ⟨_, rfl, ⟨rfl, rfl, rfl, fun e he => absurd he List.not_mem_nil, ?_⟩, fun t => rfl⟩
      simp [Engine.init]
  | succ n ih =>
      obtain ⟨s₁, hs₁, h₁, hthreads₁⟩ := ih (free + 1) (Nat.le_of_succ_le hn)
      obtain ⟨s₂, hs₂, h₂, hthreads₂⟩ :=
        exists_create workerCount h₁ hn (hthreads₁ t)
      refine ⟨s₂, ?_, h₂, fun t' => by rw [hthreads₂]; exact hthreads₁ t'⟩
      rw [List.replicate_succ', List.flatten_append, List.flatten_singleton, Machine.run_append,
        show n + 1 + free = n + (free + 1) by omega, hs₁]
      exact hs₂

end

/-- The pool has room for 1001 sessions.  When there are 999, two threads pass the limit test,
and then both make a session. -/
def overfullTrace : List Act :=
  List.append (List.replicate 999 (createTrace 0)).flatten
    (List.flatten
      [[.create 1, .thread 1 false], createTrace 0, List.replicate 3 (.thread 1 false)])

theorem not_limited_overfullTrace : ∃ s,
    Machine.run (admissionStep 1) (.init 1001) overfullTrace = some s ∧
      s.engine.mSessions.length = 1001 ∧ ¬ Limited s := by
  obtain ⟨s₁, hs₁, h₁, hthreads₁⟩ := exists_fill 1 (t := 0) 2 999 (by decide)
  obtain ⟨s₂, hs₂, h₂, hthreads₂⟩ := exists_begin 1 (t := 1) h₁ (by decide)
    (hthreads₁ 1)
  obtain ⟨s₃, hs₃, h₃, hthreads₃⟩ := exists_create 1 (t := 0) h₂ (by decide)
    (by rw [hthreads₂, Function.update_of_ne (by decide)]; exact hthreads₁ 0)
  obtain ⟨s₄, hs₄, h₄, -⟩ := exists_finish 1 (t := 1) h₃ (by decide)
    (by rw [hthreads₃, hthreads₂, Function.update_self])
  have hrun : Machine.run (step 1) (.init 1001) overfullTrace = some s₄ := by
    rw [overfullTrace, List.append_eq, Machine.run_append, hs₁, Option.bind_some,
      List.flatten_cons, Machine.run_append, hs₂, Option.bind_some, List.flatten_cons,
      Machine.run_append, hs₃, Option.bind_some, List.flatten_cons, List.flatten_nil,
      List.append_nil, hs₄]
  obtain ⟨s, hs, heq⟩ := exists_admissionRun (s := .init 1001) hrun
  have hcount : s.engine.mSessions.length = 1001 := by rw [heq, h₄.count]
  refine ⟨s, hs, hcount, fun h => ?_⟩
  have hlimit := h.limit
  rw [hcount, maxConnections] at hlimit
  omega

end NetworkModule.SessionLifetime
