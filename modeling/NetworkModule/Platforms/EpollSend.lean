import NetworkModule.Lib.Tally
import NetworkModule.Platforms.Epoll
import Mathlib

/-!
# Pending sends of the epoll provider

A pending send is written when an event with `EPOLLOUT` comes for its descriptor.
So it is safe as long as the descriptor is armed with `EPOLLOUT`, or a worker has
such an event and has not done its `EPOLLOUT` part, or is about to arm the
descriptor with `EPOLLOUT` again.

Two things take that away.  An event without `EPOLLOUT` disarms the descriptor,
and every `EPOLL_CTL_MOD` overwrites the interest: those of `RecvAsync`, of a
receive that would block, and after a send that is done, leave `EPOLLOUT` out
whether or not a send is pending.  `sendSafe_of_keepsEpollout` says that a run
that avoids this loses no send, provided that `send()` does not report `EAGAIN`,
which the provider takes for a failure.
-/

namespace NetworkModule.Epoll

open AsyncIO

/-! ## Safe sends -/

/-- The worker will do the `EPOLLOUT` part of an event of this descriptor, or arm
it with `EPOLLOUT`. -/
def Stage.serves (fd : Fd) : Stage → Bool
  | .takeRecv e | .recv e _ | .out e => e.fd == fd && e.epollout
  | .rearm fd' epollout _ => fd' == fd && epollout
  | .returned | .next | .putBack _ _ => false

/-- The same, or the worker has such an event still to begin. -/
def Worker.serves (fd : Fd) (w : Worker) : Bool :=
  w.stage.serves fd || w.events.any fun e => e.fd == fd && e.epollout

/-- The worker is about to write this entry for a send. -/
def Worker.reports (entry : CompletionEntry) (w : Worker) : Bool :=
  match w.stage with
  | .rearm _ _ (some entry') => entry' == entry
  | _ => false

/-- No accepted send is lost. -/
structure SendSafe (s : Provider) : Prop where
  /-- A pending send has its descriptor armed with `EPOLLOUT`, or a worker that
  will send it or arm the descriptor so. -/
  covered : ∀ fd, (s.mPendingSendOps fd).isSome = true →
    s.interest fd = .armed true ∨ ∃ w ∈ s.workers, w.serves fd = true
  /-- A send that has left the map was written completely and without error. -/
  complete : ∀ f ∈ s.finished, f.op.written = f.op.given ∧ f.entry.mType = .send ∧
    f.entry.isError = false
  /-- Each of them is reported, or about to be. -/
  reported : ∀ entry, (s.finished.map Finished.entry).count entry =
    s.reported.count entry + s.workers.countP (Worker.reports entry)

/-- There is no hard error or hangup.  `send()` may report `EAGAIN`. -/
def noHardError : ProviderAct → Bool
  | .epollWait _ events => events.all fun e => !e.epollerr && !e.epollhup
  | .recv _ (.error _) => false
  | .out _ (.error errno) => errno == eagain
  | _ => true

/-- Some worker serves the descriptor. -/
def Provider.served (s : Provider) (fd : Fd) : Bool := s.workers.any (Worker.serves fd)

/-- Some worker other than `k` serves the descriptor. -/
def Provider.servedBesides (s : Provider) (k : Nat) (fd : Fd) : Bool :=
  (s.workers.eraseIdx k).any (Worker.serves fd)

section
variable (maxEntries : Nat)

/-- The step does not take `EPOLLOUT` away from a pending send, and `send()` does
not fail. -/
def keepsEpollout (s : Provider) : ProviderAct → Bool
  | .recvAsync fd _ _ _ => (s.mPendingSendOps fd).isNone || s.served fd
  | .epollWait _ events =>
      events.all fun e => e.epollout || (s.mPendingSendOps e.fd).isNone || s.served e.fd
  | .worker k =>
      match (s.workers[k]?.map Worker.stage) with
      | some (.rearm fd false _) => (s.mPendingSendOps fd).isNone || s.servedBesides k fd
      | _ => true
  | .recv k .wouldBlock =>
      match (s.workers[k]?.map Worker.stage) with
      | some (.recv e _) =>
          !e.epollout || (s.mPendingSendOps e.fd).isNone || s.servedBesides k e.fd
      | _ => true
  | .out k (.error _) =>
      match s.workers[k]? with
      | some w =>
          match w.stage with
          | .out e => decide (maxEntries ≤ w.entries.length) || (s.mPendingSendOps e.fd).isNone
          | _ => true
      | none => true
  | _ => true

/-! ## The invariant -/

/-- What holds in every state that the condition allows. -/
structure SendInv (s : Provider) : Prop where
  safe : SendSafe s
  /-- A pending send has a part written and a part left, and the descriptor is
  registered. -/
  pending : ∀ fd op, s.mPendingSendOps fd = some op →
    op.given = op.written ++ op.mBuffer ∧ op.mBuffer ≠ [] ∧ s.interest fd ≠ .absent
  /-- A worker outside `ProcessCompletions` has no event left. -/
  idle : ∀ w ∈ s.workers, w.stage = .returned → w.events = []
  /-- The events carry no error. -/
  clean : ∀ w ∈ s.workers, ∀ e ∈ w.events, e.epollerr = false ∧ e.epollhup = false

theorem sendInv_init : SendInv {} where
  safe := ⟨(fun _ h => by cases h), fun _ h => absurd h List.not_mem_nil, fun _ => rfl⟩
  pending := fun _ _ h => by cases h
  idle := fun _ h => absurd h List.not_mem_nil
  clean := fun _ h => absurd h List.not_mem_nil

end

section
variable {s s' : Provider} {k : Nat} {w w' : Worker} {fd : Fd}

theorem served_iff : s.served fd = true ↔ ∃ w ∈ s.workers, w.serves fd = true := by
  simp [Provider.served]

/-- A worker that goes on serving keeps a descriptor served. -/
theorem served_set (hk : s.workers[k]? = some w) (h : ∃ w ∈ s.workers, w.serves fd = true)
    (hw : w.serves fd = true → w'.serves fd = true) :
    ∃ w ∈ s.workers.set k w', w.serves fd = true := by
  rw [← List.countP_pos_iff] at h ⊢
  have hcount := Tally.countP_set (Worker.serves fd) w' hk
  cases hs : w.serves fd with
  | false =>
      rw [hs, Bool.toNat_false] at hcount
      omega
  | true =>
      rw [hs, hw hs] at hcount
      omega

/-- So do the other workers, whatever this one does. -/
theorem served_of_besides (hk : s.workers[k]? = some w) (h : s.servedBesides k fd = true) :
    ∃ w ∈ s.workers.set k w', w.serves fd = true := by
  have hothers : 0 < (s.workers.eraseIdx k).countP (Worker.serves fd) := by
    rw [List.countP_pos_iff]
    simpa [Provider.servedBesides] using h
  rw [← List.countP_pos_iff]
  have hset := Tally.countP_set (Worker.serves fd) w' hk
  have herase := Tally.countP_eraseIdx (Worker.serves fd) hk
  omega

/-- A worker that serves. -/
theorem served_self (hk : s.workers[k]? = some w) (h : w'.serves fd = true) :
    ∃ w ∈ s.workers.set k w', w.serves fd = true :=
  ⟨w', List.mem_set (List.getElem?_eq_some_iff.mp hk).1 .., h⟩

/-- What every worker does, and the new worker does, they do after the step. -/
theorem forall_mem_set {P : Worker → Prop} (h : ∀ w ∈ s.workers, P w) (hw : P w') :
    ∀ w ∈ s.workers.set k w', P w := by
  intro v hv
  rcases List.mem_or_eq_of_mem_set hv with hv | rfl
  · exact h v hv
  · exact hw

/-- A step of worker `k` that leaves the pending sends and the history alone.
The receives may change, and the interest as long as every pending send stays
covered. -/
theorem SendInv.move {t : Provider} (hI : SendInv s) (hk : s.workers[k]? = some w)
    (hworkers : t.workers = s.workers.set k w') (hsend : t.mPendingSendOps = s.mPendingSendOps)
    (hfinished : t.finished = s.finished) (hreported : t.reported = s.reported)
    (habsent : ∀ fd, t.interest fd = .absent → s.interest fd = .absent)
    (hcovered : ∀ fd, (s.mPendingSendOps fd).isSome = true →
      t.interest fd = .armed true ∨ ∃ v ∈ s.workers.set k w', v.serves fd = true)
    (hreports : ∀ entry, w'.reports entry = w.reports entry)
    (hidle : w'.stage = .returned → w'.events = [])
    (hclean : ∀ e ∈ w'.events, e.epollerr = false ∧ e.epollhup = false) : SendInv t := by
  refine ⟨⟨fun fd hfd => ?_, ?_, fun entry => ?_⟩, fun fd op hop => ?_, ?_, ?_⟩
  · rw [hworkers]
    exact hcovered fd (by rw [← hsend]; exact hfd)
  · rw [hfinished]
    exact hI.safe.complete
  · have hcount := Tally.countP_set (Worker.reports entry) w' hk
    have hold := hI.safe.reported entry
    rw [hreports entry] at hcount
    rw [hfinished, hreported, hworkers]
    omega
  · obtain ⟨hgiven, hne, hreg⟩ := hI.pending fd op (by rw [← hsend]; exact hop)
    exact ⟨hgiven, hne, fun h => hreg (habsent fd h)⟩
  · rw [hworkers]
    exact forall_mem_set hI.idle hidle
  · rw [hworkers]
    exact forall_mem_set hI.clean hclean

/-- A worker that moves and goes on serving what it served. -/
theorem SendInv.advance {t : Provider} (hI : SendInv s) (hk : s.workers[k]? = some w)
    (hworkers : t.workers = s.workers.set k w') (hsend : t.mPendingSendOps = s.mPendingSendOps)
    (hfinished : t.finished = s.finished) (hreported : t.reported = s.reported)
    (hinterest : t.interest = s.interest)
    (hserves : ∀ fd, w.serves fd = true → w'.serves fd = true)
    (hreports : ∀ entry, w'.reports entry = w.reports entry)
    (hidle : w'.stage = .returned → w'.events = [])
    (hclean : ∀ e ∈ w'.events, e ∈ w.events) : SendInv t := by
  have hmem := List.mem_of_getElem? hk
  refine hI.move hk hworkers hsend hfinished hreported (fun fd h => by rw [← hinterest]; exact h)
    (fun fd hfd => ?_) hreports hidle (fun e he => hI.clean w hmem e (hclean e he))
  rw [hinterest]
  exact (hI.safe.covered fd hfd).imp_right fun h => served_set hk h (hserves fd)

/-! ## Requests -/

/-- Arming a descriptor covers its own sends, if it is with `EPOLLOUT`, and
leaves the other descriptors alone. -/
theorem SendInv.covered_update (hI : SendInv s) {fd' : Fd} {b : Bool}
    (h : (s.mPendingSendOps fd).isSome = true → b = true ∨ s.served fd = true)
    (hfd' : (s.mPendingSendOps fd').isSome = true) :
    Function.update s.interest fd (.armed b) fd' = .armed true ∨
      ∃ w ∈ s.workers, w.serves fd' = true := by
  by_cases he : fd' = fd
  · subst he
    rw [Function.update_self]
    rcases h hfd' with rfl | hserved
    · exact Or.inl rfl
    · exact Or.inr (served_iff.mp hserved)
  · rw [Function.update_of_ne he]
    exact hI.safe.covered fd' hfd'

theorem update_ne_absent {b : Bool} {fd' : Fd} (h : s.interest fd' ≠ .absent) :
    Function.update s.interest fd (.armed b) fd' ≠ .absent := by
  by_cases he : fd' = fd
  · subst he
    simp
  · rw [Function.update_of_ne he]
    exact h

theorem SendInv.associate (hI : SendInv s) : SendInv (s.associateSocket fd).1 := by
  unfold Provider.associateSocket
  split
  next hab =>
    -- A descriptor that is not registered has no pending send.
    have hnone : (s.mPendingSendOps fd).isSome = true → False := by
      intro h
      obtain ⟨op, hop⟩ := Option.isSome_iff_exists.mp h
      exact (hI.pending fd op hop).2.2 hab
    refine ⟨⟨fun fd' hfd' => ?_, hI.safe.complete, hI.safe.reported⟩, fun fd' op hop => ?_,
      hI.idle, hI.clean⟩
    · exact hI.covered_update (fun h => (hnone h).elim) hfd'
    · obtain ⟨hgiven, hne, hreg⟩ := hI.pending fd' op hop
      exact ⟨hgiven, hne, update_ne_absent hreg⟩
  · exact hI

theorem SendInv.sendAsync (hI : SendInv s) {buffer : List UInt8} {context : UInt64} :
    SendInv (s.sendAsync fd buffer context).1 := by
  rcases sendAsync_cases s fd buffer context with hsame | ⟨hne, -, hreg, heq⟩
  · rw [hsame]
    exact hI
  · rw [heq]
    refine ⟨⟨fun fd' hfd' => ?_, hI.safe.complete, hI.safe.reported⟩, fun fd' op hop => ?_,
      hI.idle, hI.clean⟩
    · by_cases he : fd' = fd
      · subst he
        exact Or.inl (Function.update_self ..)
      · simp only [Function.update_of_ne he] at hfd' ⊢
        exact hI.safe.covered fd' hfd'
    · by_cases he : fd' = fd
      · subst he
        simp only [Function.update_self, Option.some.injEq] at hop
        subst hop
        exact ⟨rfl, hne, by simp⟩
      · simp only [Function.update_of_ne he] at hop ⊢
        exact hI.pending fd' op hop

theorem SendInv.recvAsync (hI : SendInv s) {buffer context : UInt64} {size : Nat}
    (hok : (s.mPendingSendOps fd).isNone = true ∨ s.served fd = true) :
    SendInv (s.recvAsync fd buffer size context).1 := by
  rcases recvAsync_cases s fd buffer size context with heq | ⟨-, heq⟩ | ⟨-, heq⟩
  · rw [heq]
    exact hI
  · rw [heq]
    exact ⟨⟨hI.safe.covered, hI.safe.complete, hI.safe.reported⟩, hI.pending, hI.idle, hI.clean⟩
  · rw [heq]
    refine ⟨⟨fun fd' hfd' => ?_, hI.safe.complete, hI.safe.reported⟩, fun fd' op hop => ?_,
      hI.idle, hI.clean⟩
    · refine hI.covered_update (fun h => Or.inr (hok.resolve_left ?_)) hfd'
      rw [Option.isSome_iff_ne_none] at h
      simpa using h
    · obtain ⟨hgiven, hne, hreg⟩ := hI.pending fd' op hop
      exact ⟨hgiven, hne, update_ne_absent hreg⟩

theorem SendInv.spawn (hI : SendInv s) : SendInv { s with workers := s.workers ++ [{}] } := by
  refine ⟨⟨fun fd hfd => ?_, hI.safe.complete, fun entry => ?_⟩, hI.pending, fun w hw => ?_,
    fun w hw => ?_⟩
  · refine (hI.safe.covered fd hfd).imp_right fun ⟨w, hw, hs⟩ => ?_
    exact ⟨w, List.mem_append_left _ hw, hs⟩
  · simp only [Tally.countP_concat]
    exact hI.safe.reported entry
  · rcases List.mem_append.mp hw with hw | hw
    · exact hI.idle w hw
    · rw [List.mem_singleton.mp hw]
      exact fun _ => rfl
  · rcases List.mem_append.mp hw with hw | hw
    · exact hI.clean w hw
    · rw [List.mem_singleton.mp hw]
      exact fun e he => absurd he List.not_mem_nil

/-! ## Events -/

/-- A worker that gets an event with `EPOLLOUT` serves its descriptor. -/
theorem serves_events {events : List Event} {e : Event} (he : e ∈ events)
    (hout : e.epollout = true) :
    Worker.serves e.fd { w with events := events, stage := .next } = true := by
  simp only [Worker.serves, Bool.or_eq_true, List.any_eq_true]
  exact Or.inr ⟨e, he, by simp [hout]⟩

theorem SendInv.epollWait {maxEntries : Nat} {events : List Event} (hI : SendInv s)
    (hk : s.workers[k]? = some w)
    (hclean : ∀ e ∈ events, e.epollerr = false ∧ e.epollhup = false)
    (hok : ∀ e ∈ events, e.epollout = true ∨ (s.mPendingSendOps e.fd).isNone = true ∨
      s.served e.fd = true)
    (h : s.epollWait maxEntries k w events = some s') : SendInv s' := by
  unfold Provider.epollWait at h
  split at h
  next hwait =>
    obtain ⟨hstage, -, -, -, hrep⟩ := hwait
    cases h
    have hmem := List.mem_of_getElem? hk
    have hnoevents := hI.idle w hmem hstage
    have hserves : ∀ fd, w.serves fd = false := by
      intro fd
      simp [Worker.serves, hstage, Stage.serves, hnoevents]
    refine hI.move hk rfl rfl rfl rfl (fun fd habs => ?_) (fun fd hfd => ?_) (fun entry => ?_)
      (fun hret => by cases hret) hclean
    · change (if fd ∈ events.map Event.fd then Interest.disarmed else s.interest fd) = _ at habs
      split at habs
      · cases habs
      · exact habs
    · change (if fd ∈ events.map Event.fd then Interest.disarmed else s.interest fd) = _ ∨ _
      by_cases hin : fd ∈ events.map Event.fd
      · obtain ⟨e, he, rfl⟩ := List.mem_map.mp hin
        rcases hok e he with hout | hnone | hserved
        · exact Or.inr (served_self hk (serves_events he hout))
        · rw [Option.isNone_iff_eq_none] at hnone
          rw [hnone] at hfd
          cases hfd
        · refine Or.inr (served_set hk (served_iff.mp hserved) fun hw => ?_)
          rw [hserves] at hw
          cases hw
      · rw [if_neg hin]
        refine (hI.safe.covered fd hfd).imp_right fun hold => served_set hk hold fun hw => ?_
        rw [hserves] at hw
        cases hw
    · simp [Worker.reports, hstage]
  · cases h

/-! ## Steps of a worker -/

theorem serves_afterIn (e : Event) : (afterIn e).serves fd = (e.fd == fd && e.epollout) := by
  unfold afterIn
  cases h : e.epollout <;> simp [Stage.serves, h]

theorem reports_afterIn {e : Event} {entry : CompletionEntry}
    {events : List Event} {entries : List CompletionEntry} :
    Worker.reports entry ⟨events, entries, afterIn e⟩ = false := by
  unfold afterIn
  split <;> rfl

/-- Beginning an event keeps what the worker serves. -/
theorem SendInv.begin {e : Event} {rest : List Event} {stage : Stage} (hI : SendInv s)
    (hk : s.workers[k]? = some w) (hstage : w.stage = .next) (hevents : w.events = e :: rest)
    (hserves : ∀ fd, stage.serves fd = (e.fd == fd && e.epollout))
    (hreports : ∀ entry, Worker.reports entry { w with events := rest, stage := stage } = false)
    (hret : stage ≠ .returned) :
    SendInv (s.setWorker k { w with events := rest, stage := stage }) := by
  refine hI.advance hk rfl rfl rfl rfl rfl (fun fd h => ?_) (fun entry => ?_)
    (fun h => absurd h hret) (fun d hd => ?_)
  · have hnext : w.stage.serves fd = false := by rw [hstage]; rfl
    rw [Worker.serves, hnext, hevents, List.any_cons, Bool.false_or] at h
    change (stage.serves fd || rest.any _) = true
    rw [hserves]
    exact h
  · rw [hreports]
    simp [Worker.reports, hstage]
  · rw [hevents]
    exact List.mem_cons_of_mem e hd

/-- The `EPOLL_CTL_MOD` of a worker, and the entry after it. -/
theorem SendInv.rearm {b : Bool} {entry : Option CompletionEntry} (hI : SendInv s)
    (hk : s.workers[k]? = some w) (hstage : w.stage = .rearm fd b entry)
    (hok : b = false → (s.mPendingSendOps fd).isNone = true ∨ s.servedBesides k fd = true) :
    SendInv ({ (s.ctlMod fd b).getD s with
      reported := ((s.ctlMod fd b).getD s).reported ++ entry.toList }.setWorker k
        { w with entries := w.entries ++ entry.toList, stage := .next }) := by
  have hmem := List.mem_of_getElem? hk
  rw [ctlMod_getD]
  refine ⟨⟨fun fd' hfd' => ?_, hI.safe.complete, fun en => ?_⟩, fun fd' op hop => ?_,
    forall_mem_set hI.idle (fun h => by cases h), forall_mem_set hI.clean (hI.clean w hmem)⟩
  · change (s.mPendingSendOps fd').isSome = true at hfd'
    obtain ⟨op, hop⟩ := Option.isSome_iff_exists.mp hfd'
    have hreg := (hI.pending fd' op hop).2.2
    change (if s.interest fd = .absent then s.interest
      else Function.update s.interest fd (.armed b)) fd' = .armed true ∨ _
    by_cases he : fd' = fd
    · subst he
      rw [if_neg hreg, Function.update_self]
      cases b with
      | true => exact Or.inl rfl
      | false =>
          rcases hok rfl with hnone | hothers
          · rw [Option.isNone_iff_eq_none] at hnone
            rw [hnone] at hop
            cases hop
          · exact Or.inr (served_of_besides hk hothers)
    · have hsame : (if s.interest fd = .absent then s.interest
          else Function.update s.interest fd (.armed b)) fd' = s.interest fd' := by
        split
        · rfl
        · exact Function.update_of_ne he _ _
      rw [hsame]
      refine (hI.safe.covered fd' hfd').imp_right fun h => served_set hk h fun hw => ?_
      have hne : (fd == fd') = false := by simpa using fun h => he h.symm
      simpa [Worker.serves, hstage, Stage.serves, hne] using hw
  · have hcount := Tally.countP_set (Worker.reports en)
      { w with entries := w.entries ++ entry.toList, stage := .next } hk
    have hold := hI.safe.reported en
    have hnext : Worker.reports en
        { w with entries := w.entries ++ entry.toList, stage := .next } = false := rfl
    have hself : (w.reports en).toNat = entry.toList.count en := by
      rw [Worker.reports, hstage]
      cases entry with
      | none => rfl
      | some en' =>
          by_cases hen : en' = en <;> simp [hen]
    rw [hnext, Bool.toNat_false] at hcount
    change (s.finished.map Finished.entry).count en = (s.reported ++ entry.toList).count en +
      (s.workers.set k _).countP _
    rw [List.count_append]
    omega
  · change s.mPendingSendOps fd' = some op at hop
    obtain ⟨hgiven, hne, hreg⟩ := hI.pending fd' op hop
    refine ⟨hgiven, hne, ?_⟩
    change (if s.interest fd = .absent then s.interest
      else Function.update s.interest fd (.armed b)) fd' ≠ .absent
    split
    · exact hreg
    · exact update_ne_absent hreg

/-- A step of a worker without a system call that could fail. -/
theorem SendInv.workerStep {maxEntries : Nat} (hI : SendInv s) (hk : s.workers[k]? = some w)
    (hok : ∀ fd entry, w.stage = .rearm fd false entry →
      (s.mPendingSendOps fd).isNone = true ∨ s.servedBesides k fd = true)
    (h : s.workerStep maxEntries k w = some s') : SendInv s' := by
  have hmem := List.mem_of_getElem? hk
  unfold Provider.workerStep at h
  cases hstage : w.stage with
  | returned | recv e op | out e =>
      simp only [hstage] at h
      cases h
  | next =>
      simp only [hstage] at h
      split at h
      next hevents =>
        cases h
        refine hI.advance hk rfl rfl rfl rfl rfl (fun fd h => ?_) (fun entry => ?_)
          (fun _ => hevents) (fun d hd => hd)
        · simp [Worker.serves, hstage, hevents, Stage.serves] at h
        · simp [Worker.reports, hstage]
      next e rest hevents =>
        have hclean := hI.clean w hmem e (by simp [hevents])
        split at h
        · cases h
          exact hI.begin hk hstage hevents (fun _ => rfl) (fun _ => rfl) (by simp)
        · rw [hclean.1, hclean.2] at h
          simp only [Bool.or_false, Bool.false_eq_true, if_false] at h
          split at h
          · cases h
            exact hI.begin hk hstage hevents (fun _ => rfl) (fun _ => rfl) (by simp)
          · cases h
            refine hI.begin hk hstage hevents (fun _ => serves_afterIn e)
              (fun _ => reports_afterIn) ?_
            unfold afterIn
            split <;> simp
  | takeRecv e =>
      simp only [hstage] at h
      split at h
      · cases h
        refine hI.advance hk rfl rfl rfl rfl rfl (fun fd h => ?_) (fun entry => ?_)
          (fun h => by cases h) (fun d hd => hd)
        · simpa [Worker.serves, hstage, Stage.serves] using h
        · simp [Worker.reports, hstage]
      · cases h
        refine hI.advance hk rfl rfl rfl rfl rfl (fun fd h => ?_) (fun entry => ?_)
          (fun h => ?_) (fun d hd => hd)
        · rw [Worker.serves, hstage] at h
          change ((afterIn e).serves fd || _) = true
          rw [serves_afterIn]
          exact h
        · rw [reports_afterIn]
          simp [Worker.reports, hstage]
        · unfold afterIn at h
          split at h <;> cases h
  | putBack e op =>
      simp only [hstage] at h
      cases h
      refine hI.advance hk rfl rfl rfl rfl rfl (fun fd h => ?_) (fun entry => ?_)
        (fun h => by cases h) (fun d hd => hd)
      · simpa [Worker.serves, hstage, Stage.serves] using h
      · simp [Worker.reports, hstage]
  | rearm fd b entry =>
      simp only [hstage] at h
      cases h
      exact hI.rearm hk hstage fun hb => hok fd entry (by rw [hstage, hb])

/-- `recv()` without a hard error. -/
theorem SendInv.recv {r : RecvResult} (hI : SendInv s) (hk : s.workers[k]? = some w)
    (hhard : ∀ errno, r ≠ .error errno)
    (hok : ∀ e op, w.stage = .recv e op → r = .wouldBlock →
      e.epollout = false ∨ (s.mPendingSendOps e.fd).isNone = true ∨ s.servedBesides k e.fd = true)
    (h : s.recv k w r = some s') : SendInv s' := by
  unfold Provider.recv at h
  split at h
  next e op hstage =>
    cases r with
    | data bytes =>
        simp only at h
        split at h
        · cases h
          refine hI.advance hk rfl rfl rfl rfl rfl (fun fd h => ?_) (fun entry => ?_)
            (fun h => ?_) (fun d hd => hd)
          · rw [Worker.serves, hstage] at h
            change ((afterIn e).serves fd || _) = true
            rw [serves_afterIn]
            exact h
          · rw [reports_afterIn]
            simp [Worker.reports, hstage]
          · unfold afterIn at h
            split at h <;> cases h
        · cases h
    | wouldBlock =>
        cases h
        have hmem := List.mem_of_getElem? hk
        -- The `EPOLLOUT` part of this event is skipped.
        refine hI.move hk rfl rfl rfl rfl (fun _ h => h) (fun fd hfd => ?_) (fun entry => ?_)
          (fun h => by cases h) (hI.clean w hmem)
        · refine (hI.safe.covered fd hfd).imp_right fun hold => ?_
          by_cases hself : e.fd = fd ∧ e.epollout = true
          · obtain ⟨rfl, hout⟩ := hself
            rcases hok e op hstage rfl with hno | hnone | hothers
            · rw [hout] at hno
              cases hno
            · rw [Option.isNone_iff_eq_none] at hnone
              rw [hnone] at hfd
              cases hfd
            · exact served_of_besides hk hothers
          · refine served_set hk hold fun hw => ?_
            have hno : (e.fd == fd && e.epollout) = false := by simpa using hself
            rw [Worker.serves, hstage, Stage.serves, hno, Bool.false_or] at hw
            change (false || _) = true
            exact hw
        · simp [Worker.reports, hstage]
    | error errno => exact absurd rfl (hhard errno)
  · cases h

/-- A worker that begins to arm a descriptor with `EPOLLOUT`, after its
`EPOLLOUT` part. -/
theorem serves_rearm_of_out {e : Event} (hstage : w.stage = .out e) (h : w.serves fd = true) :
    Worker.serves fd { w with stage := .rearm e.fd true none } = true := by
  rw [Worker.serves, hstage] at h
  simp only [Worker.serves, Stage.serves, Bool.and_true, Bool.or_eq_true, Bool.and_eq_true] at h ⊢
  exact h.imp_left And.left

/-- A worker that is done with the `EPOLLOUT` part of a descriptor that has no
pending send any more. -/
theorem serves_rearm_of_ne {e : Event} {entry : Option CompletionEntry} (hne : e.fd ≠ fd)
    (hstage : w.stage = .out e) (h : w.serves fd = true) :
    Worker.serves fd { w with stage := .rearm e.fd false entry } = true := by
  have hno : (e.fd == fd) = false := by simpa using hne
  rw [Worker.serves, hstage, Stage.serves, hno] at h
  simp only [Worker.serves, Stage.serves, hno]
  exact h

/-- A part of the pending send is written. -/
theorem SendInv.partialSend {e : Event} {op : SendOp} {n : Nat} (hI : SendInv s)
    (hk : s.workers[k]? = some w) (hstage : w.stage = .out e)
    (hop : s.mPendingSendOps e.fd = some op) (hn : n < op.mBuffer.length) :
    SendInv ({ s with
      mPendingSendOps := Function.update s.mPendingSendOps e.fd (some { op with
        mBuffer := op.mBuffer.drop n
        written := op.written ++ op.mBuffer.take n }) }.setWorker k
          { w with stage := .rearm e.fd true none }) := by
  have hmem := List.mem_of_getElem? hk
  refine ⟨⟨fun fd hfd => ?_, hI.safe.complete, fun entry => ?_⟩, fun fd op' hop' => ?_,
    forall_mem_set hI.idle (fun h => by cases h), forall_mem_set hI.clean (hI.clean w hmem)⟩
  · change s.interest fd = .armed true ∨ ∃ v ∈ s.workers.set k _, v.serves fd = true
    have hold : (s.mPendingSendOps fd).isSome = true := by
      by_cases he : fd = e.fd
      · rw [he, hop]
        rfl
      · simpa [Provider.setWorker, Function.update_of_ne he] using hfd
    exact (hI.safe.covered fd hold).imp_right fun h =>
      served_set hk h (serves_rearm_of_out hstage)
  · have hcount := Tally.countP_set (Worker.reports entry)
      { w with stage := .rearm e.fd true none } hk
    have hold := hI.safe.reported entry
    have hself : w.reports entry = false := by simp [Worker.reports, hstage]
    have hnew : Worker.reports entry { w with stage := .rearm e.fd true none } = false := rfl
    rw [hself, hnew] at hcount
    change _ = _ + (s.workers.set k _).countP _
    rw [show (s.workers.set k _).countP _ = s.workers.countP _ from hcount]
    exact hold
  · by_cases he : fd = e.fd
    · subst he
      obtain ⟨hgiven, -, hreg⟩ := hI.pending e.fd op hop
      simp only [Provider.setWorker, Function.update_self, Option.some.injEq] at hop'
      subst hop'
      refine ⟨?_, ?_, hreg⟩
      · simp [hgiven]
      · intro hnil
        have hlen := congrArg List.length hnil
        simp only [List.length_drop, List.length_nil] at hlen
        omega
    · simp only [Provider.setWorker, Function.update_of_ne he] at hop'
      exact hI.pending fd op' hop'

/-- The rest of the pending send is written, and it leaves the map. -/
theorem SendInv.fullSend {e : Event} {op : SendOp} (hI : SendInv s)
    (hk : s.workers[k]? = some w) (hstage : w.stage = .out e)
    (hop : s.mPendingSendOps e.fd = some op) :
    SendInv ((s.finish e.fd ⟨{ op with
        mBuffer := op.mBuffer.drop op.mBuffer.length
        written := op.written ++ op.mBuffer.take op.mBuffer.length },
      ⟨op.mContext, .send, op.mBuffer.length, 0⟩⟩).setWorker k
        { w with stage := .rearm e.fd false (some ⟨op.mContext, .send, op.mBuffer.length, 0⟩) }) := by
  have hmem := List.mem_of_getElem? hk
  obtain ⟨hgiven, hne, -⟩ := hI.pending e.fd op hop
  refine ⟨⟨fun fd hfd => ?_, fun f hf => ?_, fun entry => ?_⟩, fun fd op' hop' => ?_,
    forall_mem_set hI.idle (fun h => by cases h), forall_mem_set hI.clean (hI.clean w hmem)⟩
  · change s.interest fd = .armed true ∨ ∃ v ∈ s.workers.set k _, v.serves fd = true
    by_cases he : fd = e.fd
    · simp [Provider.setWorker, Provider.finish, he] at hfd
    · have hold : (s.mPendingSendOps fd).isSome = true := by
        simpa [Provider.setWorker, Provider.finish, Function.update_of_ne he] using hfd
      exact (hI.safe.covered fd hold).imp_right fun h =>
        served_set hk h (serves_rearm_of_ne (fun h => he h.symm) hstage)
  · rcases List.mem_append.mp hf with hf | hf
    · exact hI.safe.complete f hf
    · rw [List.mem_singleton.mp hf]
      refine ⟨by simp [hgiven], rfl, ?_⟩
      have hpos := List.length_pos_of_ne_nil hne
      simp only [CompletionEntry.isError, ne_eq, not_true_eq_false, decide_false, Bool.false_or,
        decide_eq_false_iff_not]
      omega
  · have hcount := Tally.countP_set (Worker.reports entry) { w with
      stage := .rearm e.fd false (some ⟨op.mContext, .send, op.mBuffer.length, 0⟩) } hk
    have hold := hI.safe.reported entry
    have hself : w.reports entry = false := by simp [Worker.reports, hstage]
    rw [hself, Bool.toNat_false] at hcount
    change ((s.finished ++ [_]).map Finished.entry).count entry =
      s.reported.count entry + (s.workers.set k _).countP _
    rw [List.map_append, List.count_append, List.map_singleton, List.count_singleton]
    simp only [Worker.reports] at hcount
    by_cases hen : (⟨op.mContext, .send, op.mBuffer.length, 0⟩ : CompletionEntry) = entry
    · simp only [hen, beq_self_eq_true, Bool.toNat_true, if_true] at hcount ⊢
      omega
    · have hbeq : ((⟨op.mContext, .send, op.mBuffer.length, 0⟩ : CompletionEntry) == entry) = false :=
        by simpa using hen
      simp only [hbeq, Bool.toNat_false, Bool.false_eq_true, if_false] at hcount ⊢
      omega
  · by_cases he : fd = e.fd
    · simp [Provider.setWorker, Provider.finish, he] at hop'
    · simp only [Provider.setWorker, Provider.finish, Function.update_of_ne he] at hop'
      exact hI.pending fd op' hop'

/-- The `EPOLLOUT` part of an event. -/
theorem SendInv.out {maxEntries : Nat} {r : SendResult} (hI : SendInv s)
    (hk : s.workers[k]? = some w)
    (hok : ∀ e errno, w.stage = .out e → r = .error errno →
      maxEntries ≤ w.entries.length ∨ (s.mPendingSendOps e.fd).isNone = true)
    (h : s.out maxEntries k w r = some s') : SendInv s' := by
  unfold Provider.out at h
  split at h
  next e hstage =>
    split at h
    next hfull =>
      cases h
      refine hI.advance hk rfl rfl rfl rfl rfl (fun fd => serves_rearm_of_out hstage)
        (fun entry => ?_) (fun h => by cases h) (fun d hd => hd)
      simp [Worker.reports, hstage]
    next hfull =>
      split at h
      next hnone =>
        cases h
        have hmem := List.mem_of_getElem? hk
        refine hI.move hk rfl rfl rfl rfl (fun _ h => h) (fun fd hfd => ?_) (fun entry => ?_)
          (fun h => by cases h) (hI.clean w hmem)
        · by_cases he : e.fd = fd
          · rw [← he, hnone] at hfd
            cases hfd
          · exact (hI.safe.covered fd hfd).imp_right fun hold =>
              served_set hk hold (serves_rearm_of_ne he hstage)
        · simp [Worker.reports, hstage]
      next op hop =>
        cases r with
        | sent n =>
            simp only at h
            split at h
            next hn =>
              cases h
              exact hI.partialSend hk hstage hop hn
            · split at h
              next hn =>
                cases h
                subst hn
                exact hI.fullSend hk hstage hop
              · cases h
        | error errno =>
            rcases hok e errno hstage rfl with hle | hnone
            · exact absurd hle hfull
            · rw [hop] at hnone
              cases hnone
  · cases h

/-- The caller handles an entry. -/
theorem SendInv.handled {rest : List CompletionEntry} (hI : SendInv s)
    (hk : s.workers[k]? = some w) (hstage : w.stage = .returned) :
    SendInv (s.setWorker k { w with entries := rest }) := by
  refine hI.advance hk rfl rfl rfl rfl rfl (fun _ h => h) (fun entry => ?_)
    (fun _ => hI.idle w (List.mem_of_getElem? hk) hstage) (fun d hd => hd)
  simp [Worker.reports, hstage]

/-- Every step that keeps `EPOLLOUT` keeps the invariant. -/
theorem SendInv.step {maxEntries : Nat} {a : ProviderAct} (hI : SendInv s)
    (hhard : noHardError a = true) (hok : keepsEpollout maxEntries s a = true)
    (h : providerStep maxEntries s a = some s') : SendInv s' := by
  cases a with
  | associate fd =>
      cases h
      exact hI.associate
  | sendAsync fd buffer context =>
      cases h
      exact hI.sendAsync
  | recvAsync fd buffer size context =>
      cases h
      exact hI.recvAsync (by simpa [keepsEpollout] using hok)
  | spawn =>
      cases h
      exact hI.spawn
  | epollWait k events =>
      obtain ⟨w, hk, h⟩ := Option.bind_eq_some_iff.mp h
      refine hI.epollWait hk (fun e he => ?_) (fun e he => ?_) h
      · have hclean := List.all_eq_true.mp hhard e he
        simpa using hclean
      · have hkeep := List.all_eq_true.mp hok e he
        simpa [or_assoc] using hkeep
  | worker k =>
      obtain ⟨w, hk, h⟩ := Option.bind_eq_some_iff.mp h
      refine hI.workerStep hk (fun fd entry hstage => ?_) h
      simpa [keepsEpollout, hk, hstage] using hok
  | recv k r =>
      obtain ⟨w, hk, h⟩ := Option.bind_eq_some_iff.mp h
      refine hI.recv hk (fun errno hr => ?_) (fun e op hstage hr => ?_) h
      · subst hr
        cases hhard
      · subst hr
        simpa [keepsEpollout, hk, hstage, or_assoc] using hok
  | out k r =>
      obtain ⟨w, hk, h⟩ := Option.bind_eq_some_iff.mp h
      refine hI.out hk (fun e errno hstage hr => ?_) h
      subst hr
      simpa [keepsEpollout, hk, hstage] using hok
  | handled k =>
      obtain ⟨w, hk, h⟩ := Option.bind_eq_some_iff.mp h
      split at h
      next hstage _ =>
        cases h
        exact hI.handled hk hstage
      · cases h

/-- In every run without hard errors whose steps do not take `EPOLLOUT` away from
a pending send, and in which `send()` does not fail, no accepted send is lost. -/
theorem sendSafe_of_keepsEpollout (maxEntries : Nat) (as : List ProviderAct) (s : Provider)
    (hhard : ∀ a ∈ as, noHardError a = true)
    (hok : Machine.Meets (providerStep maxEntries)
      (fun s a => keepsEpollout maxEntries s a = true) {} as)
    (hrun : Machine.run (providerStep maxEntries) {} as = some s) : SendSafe s := by
  have hboth := (Machine.Meets.of_forall_mem hhard ({} : Provider)).and hok
  have hI : SendInv s := Machine.run_invariant_of_meets
    (fun _ _ _ hI hok h => SendInv.step hI hok.1 hok.2 h) sendInv_init hboth hrun
  exact hI.safe

/-- An event for descriptor 3. -/
def readyEvent (epollin epollout : Bool) : Event := ⟨3, epollin, epollout, false, false⟩

/-- A send of two bytes is written in two parts.  The first event also brings a
byte to receive. -/
def twoPartsTrace : List ProviderAct :=
  [.associate 3, .recvAsync 3 7 8192 7, .sendAsync 3 [1, 2] 7, .spawn,
    .epollWait 0 [readyEvent true true], .worker 0, .worker 0, .recv 0 (.data [9]),
    .out 0 (.sent 1), .worker 0, .worker 0, .handled 0, .epollWait 0 [readyEvent false true],
    .worker 0, .out 0 (.sent 1), .worker 0, .worker 0]

/-- The send was written and reported. -/
theorem sendSafe_twoPartsTrace :
    ∃ s, Machine.run (providerStep 64) {} twoPartsTrace = some s ∧
      s.reported = [⟨7, .send, 1, 0⟩] ∧ SendSafe s :=
  ⟨_, rfl, by decide,
    sendSafe_of_keepsEpollout 64 twoPartsTrace _ (by decide) (by decide +kernel) rfl⟩

/-- A send is accepted, and then a receive. -/
def recvAfterSendTrace : List ProviderAct :=
  [.associate 3, .sendAsync 3 [1, 2] 7, .recvAsync 3 7 8192 7]

/-- The send is pending, and the descriptor is armed without `EPOLLOUT`. -/
theorem recvAsync_strands_send :
    ∃ s, (∀ a ∈ recvAfterSendTrace, noHardError a = true) ∧
      Machine.run (providerStep 64) {} recvAfterSendTrace = some s ∧
      (s.mPendingSendOps 3).isSome = true ∧ s.interest 3 = .armed false ∧ s.workers = [] ∧
      ¬ SendSafe s := by
  refine ⟨_, by decide, rfl, by decide, by decide, rfl, fun h => ?_⟩
  rcases h.covered 3 (by decide) with harmed | ⟨w, hw, -⟩
  · exact absurd harmed (by decide)
  · exact absurd hw List.not_mem_nil

end

end NetworkModule.Epoll
