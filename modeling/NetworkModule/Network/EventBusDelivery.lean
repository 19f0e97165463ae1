import NetworkModule.Network.EventBus

/-!
# Delivery of events

A `Publish` call is done with each channel that it found once, in the order of the
subscriptions, and it found every channel that was subscribed when it took the mutex and
existed when it looked (`PubInv`).  What has entered a channel is what the calls have sent to it
(`QueueInv`).

So an event enters a channel at most once for each subscription, and exactly once for each if
the channel exists, has no bound and has not been shut down (`publish_exactlyOnce`).  The
events of one thread enter each channel in the order of its calls, and leave it in that order
(`publish_inOrder`).
-/

namespace NetworkModule.EventBus

open References (Ref Held)
open BoundedFifo (Fifo)

section
variable {Data : Type} {mCapacity : Nat → Nat} {s s' : Bus Data} {i : Nat}

/-! ## The progress of a call -/

/-- The channels that the call found. -/
def Publication.live (pub : Publication Data) : List Nat :=
  (pub.checked.filter (·.2)).map (·.1.channel)

/-- How many of the `len` subscriptions the call `n` has looked at. -/
def BusPc.position (n len : Nat) : BusPc Data → Nat
  | .collect p it _ _ => if p.number = n then it else len
  | _ => len

/-- The channels that the call `n` has still to send to, of those that it has found. -/
def BusPc.todo (n : Nat) : BusPc Data → List Nat
  | .collect p _ live _ => if p.number = n then live else []
  | .isShutdown p rest _ => if p.number = n then rest else []
  | .trySend p channel rest _ => if p.number = n then channel :: rest else []
  | _ => []

/-- The thread is not in the call `n`. -/
def BusPc.Left (pc : BusPc Data) (n : Nat) : Prop := ∀ p, pc.publishing = some p → p.number ≠ n

theorem BusPc.Left.position {pc : BusPc Data} {n : Nat} (h : pc.Left n) (len : Nat) :
    pc.position n len = len := by
  cases pc with
  | collect p it live needsPrune => exact if_neg (h p rfl)
  | _ => rfl

theorem BusPc.Left.todo {pc : BusPc Data} {n : Nat} (h : pc.Left n) : pc.todo n = [] := by
  cases pc with
  | collect p it live needsPrune => exact if_neg (h p rfl)
  | isShutdown p rest needsPrune => exact if_neg (h p rfl)
  | trySend p c rest needsPrune => exact if_neg (h p rfl)
  | _ => rfl

/-- What holds of the history of the call `n`. -/
structure PubInv (s : Bus Data) (n : Nat) (pub : Publication Data) : Prop where
  checked : pub.checked.map (·.1) =
    pub.subscribers.take ((s.calls pub.thread).position n pub.subscribers.length)
  outcomes : pub.outcomes.map (·.1) ++ (s.calls pub.thread).todo n = pub.live
  gone : ∀ sub, (sub, false) ∈ pub.checked → ¬ Held s.refs sub.channel
  /-- The list stays as it is while the call has the mutex. -/
  stable : ∀ p it live needsPrune, s.calls pub.thread = .collect p it live needsPrune →
    p.number = n → s.mSubscribers p.key = pub.subscribers

/-- The calls that are going on, and their histories. -/
structure CallInv (s : Bus Data) : Prop where
  pubs : ∀ n pub, s.published[n]? = some pub → PubInv s n pub
  call : ∀ i p, (s.calls i).publishing = some p →
    ∃ pub, s.published[p.number]? = some pub ∧ pub.thread = i ∧ pub.key = p.key ∧ pub.data = p.data
  latest : ∀ i p, (s.calls i).publishing = some p →
    ∀ m pub, s.published[m]? = some pub → pub.thread = i → m ≤ p.number

theorem callInv_init (owned : List Nat) : CallInv (Bus.init owned : Bus Data) where
  pubs := fun _ _ h => by cases h
  call := fun _ _ h => by cases h
  latest := fun _ _ h => by cases h

/-- Nobody is in the loop over a list that changes. -/
def ListsKept (s s' : Bus Data) : Prop :=
  s'.mSubscribers = s.mSubscribers ∨ ∀ j, (s'.calls j).reads = false

/-- The step of another thread or of another call. -/
theorem PubInv.frame {n : Nat} {pub : Publication Data} (h : PubInv s n pub)
    (hheld : ∀ c, Held s'.refs c → Held s.refs c) (hlists : ListsKept s s')
    (hpc : s'.calls pub.thread = s.calls pub.thread ∨
      (s.calls pub.thread).Left n ∧ (s'.calls pub.thread).Left n) : PubInv s' n pub := by
  have hgone : ∀ sub, (sub, false) ∈ pub.checked → ¬ Held s'.refs sub.channel :=
    fun sub hsub hc => h.gone sub hsub (hheld _ hc)
  rcases hpc with hpc | ⟨hleft, hleft'⟩
  · refine ⟨by rw [hpc]; exact h.checked, by rw [hpc]; exact h.outcomes, hgone, ?_⟩
    intro p it live needsPrune hcollect hp
    rcases hlists with hlists | hno
    · rw [hlists]
      exact h.stable p it live needsPrune (hpc ▸ hcollect) hp
    · have hreads := hno pub.thread
      rw [hcollect] at hreads
      cases hreads
  · refine ⟨?_, ?_, hgone, fun p it live needsPrune hcollect hp => ?_⟩
    · have hchecked := h.checked
      rw [hleft.position] at hchecked
      rw [hleft'.position, hchecked]
    · have houtcomes := h.outcomes
      rw [hleft.todo] at houtcomes
      rw [hleft'.todo, houtcomes]
    · exact absurd hp (hleft' p (by rw [hcollect]; rfl))

/-- A thread outside `Publish` takes a step. -/
theorem CallInv.frame (h : CallInv s) {pc : BusPc Data}
    (hcalls : s'.calls = Function.update s.calls i pc) (hpublished : s'.published = s.published)
    (hheld : ∀ c, Held s'.refs c → Held s.refs c) (hlists : ListsKept s s')
    (hold : (s.calls i).publishing = none) (hpc : pc.publishing = none) : CallInv s' := by
  have hsame : ∀ j p, (s'.calls j).publishing = some p → (s.calls j).publishing = some p := by
    intro j p hp
    rw [hcalls] at hp
    rcases eq_or_ne j i with rfl | hne
    · rw [Function.update_self, hpc] at hp
      cases hp
    · rwa [Function.update_of_ne hne] at hp
  refine ⟨fun n pub hn => ?_, fun j p hp => ?_, fun j p hp => ?_⟩
  · rw [hpublished] at hn
    refine (h.pubs n pub hn).frame hheld hlists ?_
    rw [hcalls]
    rcases eq_or_ne pub.thread i with heq | hne
    · right
      rw [heq, Function.update_self]
      exact ⟨fun p hp => absurd (hold.symm.trans hp) (by simp),
        fun p hp => absurd (hpc.symm.trans hp) (by simp)⟩
    · exact .inl (Function.update_of_ne hne _ _)
  · rw [hpublished]
    exact h.call j p (hsame j p hp)
  · rw [hpublished]
    exact h.latest j p (hsame j p hp)

/-- A call goes on. -/
theorem CallInv.advance (h : CallInv s) {p : Publishing Data} {pc : BusPc Data}
    {pub pub' : Publication Data} (hp : (s.calls i).publishing = some p)
    (hpub : s.published[p.number]? = some pub)
    (hcalls : s'.calls = Function.update s.calls i pc)
    (hpc : ∀ q, pc.publishing = some q → q = p)
    (hpublished : ∀ m, s'.published[m]? = if m = p.number then some pub' else s.published[m]?)
    (hsame : pub'.thread = pub.thread ∧ pub'.key = pub.key ∧ pub'.data = pub.data)
    (hheld : ∀ c, Held s'.refs c → Held s.refs c) (hlists : ListsKept s s')
    (hnew : PubInv s' p.number pub') : CallInv s' := by
  obtain ⟨pub₀, hpub₀, hthread, hkey, hdata⟩ := h.call i p hp
  rw [hpub] at hpub₀
  cases hpub₀
  have hne : ∀ {j q}, j ≠ i → (s.calls j).publishing = some q → q.number ≠ p.number := by
    intro j q hj hq heq
    obtain ⟨pub₁, hpub₁, hthread₁, -⟩ := h.call j q hq
    rw [heq, hpub] at hpub₁
    cases hpub₁
    exact hj (hthread₁.symm.trans hthread)
  refine ⟨fun n pub₁ hn => ?_, fun j q hq => ?_, fun j q hq m pub₁ hm hj => ?_⟩
  · rw [hpublished] at hn
    split at hn
    next heq =>
      cases hn
      rw [heq]
      exact hnew
    next hn' =>
      refine (h.pubs n pub₁ hn).frame hheld hlists ?_
      rw [hcalls]
      rcases eq_or_ne pub₁.thread i with heq | hj
      · right
        rw [heq, Function.update_self]
        exact ⟨fun q hq heq' => by rw [hp] at hq; cases hq; exact hn' heq'.symm,
          fun q hq heq' => hn' (by rw [← heq', hpc q hq])⟩
      · exact .inl (Function.update_of_ne hj _ _)
  · rw [hcalls] at hq
    rcases eq_or_ne j i with rfl | hj
    · rw [Function.update_self] at hq
      rw [hpc q hq]
      refine ⟨pub', by rw [hpublished, if_pos rfl], hsame.1.trans hthread, hsame.2.1.trans hkey,
        hsame.2.2.trans hdata⟩
    · rw [Function.update_of_ne hj] at hq
      rw [hpublished, if_neg (hne hj hq)]
      exact h.call j q hq
  · have hold : ∃ pub₂, s.published[m]? = some pub₂ ∧ pub₂.thread = j := by
      rw [hpublished] at hm
      split at hm
      next heq =>
        cases hm
        exact ⟨pub, heq ▸ hpub, hsame.1.symm.trans hj⟩
      · exact ⟨pub₁, hm, hj⟩
    obtain ⟨pub₂, hm₂, hj₂⟩ := hold
    rw [hcalls] at hq
    rcases eq_or_ne j i with rfl | hji
    · rw [Function.update_self] at hq
      rw [hpc q hq]
      exact h.latest j p hp m pub₂ hm₂ hj₂
    · rw [Function.update_of_ne hji] at hq
      exact h.latest j q hq m pub₂ hm₂ hj₂

/-- A call begins. -/
theorem CallInv.start (h : CallInv s) {key : UInt8} {data : Data}
    (hold : (s.calls i).publishing = none) (hsubs : s'.mSubscribers = s.mSubscribers)
    (hcalls : s'.calls =
      Function.update s.calls i (.collect ⟨s.published.length, key, data⟩ 0 [] false))
    (hpublished : s'.published =
      s.published ++ [Publication.start i key data (s.mSubscribers key)])
    (hrefs : s'.refs = s.refs) : CallInv s' := by
  have hlt : ∀ {n pub}, s.published[n]? = some pub → n < s.published.length :=
    fun hn => (List.getElem?_eq_some_iff.mp hn).1
  have hget : ∀ {n pub}, s'.published[n]? = some pub →
      s.published[n]? = some pub ∨
        n = s.published.length ∧ pub = Publication.start i key data (s.mSubscribers key) := by
    intro n pub hn
    rw [hpublished, List.getElem?_append] at hn
    split at hn
    · exact .inl hn
    next hge =>
      rw [List.getElem?_singleton] at hn
      split at hn
      · cases hn
        exact .inr ⟨by omega, rfl⟩
      · cases hn
  refine ⟨fun n pub hn => ?_, fun j p hp => ?_, fun j p hp m pub hm hj => ?_⟩
  · rcases hget hn with hn | ⟨rfl, rfl⟩
    · refine (h.pubs n pub hn).frame (fun c hc => hrefs ▸ hc) (.inl hsubs) ?_
      rw [hcalls]
      rcases eq_or_ne pub.thread i with heq | hne
      · right
        rw [heq, Function.update_self]
        refine ⟨fun p hp => absurd (hold.symm.trans hp) (by simp), fun p hp hpn => ?_⟩
        cases hp
        exact absurd hpn (hlt hn).ne'
      · exact .inl (Function.update_of_ne hne _ _)
    · have hpc : s'.calls i = .collect ⟨s.published.length, key, data⟩ 0 [] false := by
        rw [hcalls, Function.update_self]
      refine ⟨?_, ?_, fun sub hsub => (by cases hsub), fun p it live needsPrune hcollect hp => ?_⟩
      · simp only [Publication.start, hpc, BusPc.position, if_pos]
        rfl
      · simp only [Publication.start, hpc, BusPc.todo, if_pos]
        rfl
      · have heq := hpc.symm.trans hcollect
        cases heq
        rw [hsubs]
        rfl
  · rw [hcalls] at hp
    rcases eq_or_ne j i with rfl | hne
    · rw [Function.update_self] at hp
      cases hp
      exact ⟨_, by rw [hpublished, List.getElem?_concat_length], rfl, rfl, rfl⟩
    · rw [Function.update_of_ne hne] at hp
      obtain ⟨pub, hpub, hrest⟩ := h.call j p hp
      exact ⟨pub, by rw [hpublished, List.getElem?_append_left (hlt hpub)]; exact hpub, hrest⟩
  · rw [hcalls] at hp
    rcases eq_or_ne j i with rfl | hne
    · rw [Function.update_self] at hp
      cases hp
      rcases hget hm with hm | ⟨rfl, -⟩
      · exact (hlt hm).le
      · exact le_rfl
    · rw [Function.update_of_ne hne] at hp
      rcases hget hm with hm | ⟨-, rfl⟩
      · exact h.latest j p hp m pub hm hj
      · exact absurd hj.symm hne

/-- The call has looked at a subscription. -/
theorem PubInv.check {p : Publishing Data} {pub : Publication Data} {it : Nat}
    {live live' : List Nat}
    {needsPrune needsPrune' alive : Bool} {sub : Subscription} (h : PubInv s p.number pub)
    (hpc : s.calls pub.thread = .collect p it live needsPrune)
    (hsub : (s.mSubscribers p.key)[it]? = some sub)
    (hlive : live' = if alive then live ++ [sub.channel] else live)
    (hgone : alive = false → ¬ Held s.refs sub.channel)
    (hcalls : s'.calls pub.thread = .collect p (it + 1) live' needsPrune')
    (hsubs : s'.mSubscribers = s.mSubscribers) (hheld : ∀ c, Held s'.refs c → Held s.refs c) :
    PubInv s' p.number (pub.check sub alive) := by
  have hstable := h.stable p it live needsPrune hpc rfl
  have hchecked := h.checked
  have houtcomes := h.outcomes
  simp only [hpc, BusPc.position, BusPc.todo, if_pos] at hchecked houtcomes
  refine ⟨?_, ?_, fun x hx hc => ?_, fun q it' live₁ np hcollect hq => ?_⟩
  · simp only [Publication.check, hcalls, BusPc.position, if_pos, List.map_append, List.map_cons,
      List.map_nil, hchecked]
    rw [List.take_add_one, ← hstable, hsub]
    rfl
  · simp only [Publication.check, hcalls, BusPc.todo, if_pos, Publication.live, hlive]
    rw [List.filter_append, List.map_append]
    cases alive with
    | false => simpa [Publication.live] using houtcomes
    | true =>
        simp only [if_pos]
        rw [← List.append_assoc, houtcomes]
        rfl
  · rcases List.mem_append.mp hx with hx | hx
    · exact h.gone x hx (hheld _ hc)
    · obtain ⟨rfl, hfalse⟩ := Prod.mk.inj (List.mem_singleton.mp hx)
      exact hgone hfalse.symm (hheld _ hc)
  · have heq := hcalls.symm.trans hcollect
    cases heq
    rw [hsubs]
    exact hstable

/-- The call is where its history says, after a step that is not one of the loop over the
subscriptions. -/
theorem PubInv.deliver {n : Nat} {pub pub' : Publication Data} (h : PubInv s n pub)
    (hthread : pub'.thread = pub.thread) (hsubs : pub'.subscribers = pub.subscribers)
    (hsame : pub'.checked = pub.checked)
    (hreads : (s'.calls pub.thread).reads = false)
    (hdone : pub.checked.map (·.1) = pub.subscribers)
    (hdeliver : pub'.outcomes.map (·.1) ++ (s'.calls pub.thread).todo n =
      pub.outcomes.map (·.1) ++ (s.calls pub.thread).todo n)
    (hheld : ∀ c, Held s'.refs c → Held s.refs c) : PubInv s' n pub' := by
  refine ⟨?_, ?_, fun x hx hc => ?_, fun q it' live₁ np hcollect hq => ?_⟩
  · rw [hsame, hsubs, hthread, hdone]
    cases hpc : s'.calls pub.thread with
    | collect => rw [hpc] at hreads; cases hreads
    | _ => exact (List.take_length ..).symm
  · rw [hthread, hdeliver, h.outcomes, Publication.live, Publication.live, hsame]
  · rw [hsame] at hx
    exact h.gone x hx (hheld _ hc)
  · rw [hthread] at hcollect
    rw [hcollect] at hreads
    cases hreads

/-- A call that is not in the loop over the subscriptions has looked at all of them. -/
theorem PubInv.checked_all {n : Nat} {pub : Publication Data} (h : PubInv s n pub)
    (hreads : (s.calls pub.thread).reads = false) : pub.checked.map (·.1) = pub.subscribers := by
  have hchecked := h.checked
  cases hpc : s.calls pub.thread with
  | collect => rw [hpc] at hreads; cases hreads
  | _ =>
      rw [hpc] at hchecked
      rw [hchecked]
      exact List.take_length ..

/-- The lists stay as they are, or nobody reads them because a thread has the mutex alone. -/
theorem ThreadMove.listsKept (hm : ThreadMove mCapacity s i s') (hl : LockInv s)
    (hl' : LockInv s') : ListsKept s s' := by
  have hno : s.mMutex.readers = [] → s'.mMutex.readers = s.mMutex.readers → ListsKept s s' := by
    intro hnil hsame
    refine .inr fun j => Bool.eq_false_iff.mpr fun hj => ?_
    have hmem := (hl'.readers j).mpr hj
    rw [hsame, hnil] at hmem
    cases hmem
  cases hm with
  | pruneEnd hpc hend =>
      exact hno (hl.exclusive (by rw [(hl.writer i).mpr (by rw [hpc]; rfl)]; simp)) rfl
  | insert hpc hlock => exact hno (SharedMutex.lock_eq_some hlock).1.1 rfl
  | unsubscribe hpc hlock => exact hno (SharedMutex.lock_eq_some hlock).1.1 rfl
  | _ => exact .inl rfl

/-- Nothing is said in the history. -/
theorem getElem?_ite_self {l : List (Publication Data)} {n : Nat} {pub : Publication Data}
    (h : l[n]? = some pub) (m : Nat) : l[m]? = if m = n then some pub else l[m]? := by
  split
  next heq => rw [heq, h]
  · rfl

theorem getElem?_modify_ite {l : List (Publication Data)} {n : Nat} {pub : Publication Data}
    (h : l[n]? = some pub) (f : Publication Data → Publication Data) (m : Nat) :
    (l.modify n f)[m]? = if m = n then some (f pub) else l[m]? := by
  split
  next heq => rw [heq, List.getElem?_modify_eq, h]; rfl
  next hne => exact List.getElem?_modify_ne f l (Ne.symm hne)

/-- A call goes on after the loop over the subscriptions. -/
theorem CallInv.deliver (h : CallInv s) {p : Publishing Data} {pc : BusPc Data}
    (f : Publication Data → Publication Data) (hp : (s.calls i).publishing = some p)
    (hreads : (s.calls i).reads = false) (hcalls : s'.calls = Function.update s.calls i pc)
    (hpc : ∀ q, pc.publishing = some q → q = p) (hreads' : pc.reads = false)
    (hpublished : ∀ pub, s.published[p.number]? = some pub →
      ∀ m, s'.published[m]? = if m = p.number then some (f pub) else s.published[m]?)
    (hsame : ∀ pub : Publication Data, (f pub).thread = pub.thread ∧ (f pub).key = pub.key ∧
      (f pub).data = pub.data)
    (hkept : ∀ pub : Publication Data, (f pub).subscribers = pub.subscribers ∧
      (f pub).checked = pub.checked)
    (htodo : ∀ pub : Publication Data, (f pub).outcomes.map (·.1) ++ pc.todo p.number =
      pub.outcomes.map (·.1) ++ (s.calls i).todo p.number)
    (hheld : ∀ c, Held s'.refs c → Held s.refs c) (hlists : ListsKept s s') : CallInv s' := by
  obtain ⟨pub, hpub, hthread, -⟩ := h.call i p hp
  have hinv := h.pubs _ _ hpub
  have hself : s'.calls pub.thread = pc := by rw [hthread, hcalls, Function.update_self]
  refine h.advance hp hpub hcalls hpc (hpublished pub hpub) (hsame pub) hheld hlists ?_
  refine hinv.deliver (hsame pub).1 (hkept pub).1 (hkept pub).2 (by rw [hself]; exact hreads')
    (hinv.checked_all (by rw [hthread]; exact hreads)) ?_ hheld
  rw [hself, hthread]
  exact htodo pub

theorem CallInv.threadMove (h : CallInv s) (hl : LockInv s) (hl' : LockInv s')
    (hm : ThreadMove mCapacity s i s') : CallInv s' := by
  have hheld : ∀ c, Held s'.refs c → Held s.refs c := fun c hc => hm.held hc
  have hlists := hm.listsKept hl hl'
  -- The history of the call that goes on.
  have hcall : ∀ p, (s.calls i).publishing = some p →
      ∃ pub, s.published[p.number]? = some pub ∧ pub.thread = i ∧ PubInv s p.number pub := by
    intro p hp
    obtain ⟨pub, hpub, hthread, -⟩ := h.call i p hp
    exact ⟨pub, hpub, hthread, h.pubs _ _ hpub⟩
  cases hm with
  | publish hpc hlock => exact h.start (by rw [hpc]; rfl) rfl rfl rfl rfl
  | @collectAlive p it live needsPrune sub hpc hsub halive =>
      obtain ⟨pub, hpub, hthread, hinv⟩ := hcall p (by rw [hpc]; rfl)
      refine h.advance (by rw [hpc]; rfl) hpub rfl (fun q hq => (Option.some.inj hq).symm)
        (getElem?_modify_ite hpub _) ⟨rfl, rfl, rfl⟩ hheld hlists ?_
      exact hinv.check (hthread ▸ hpc) hsub rfl (fun hf => by cases hf)
        (by rw [hthread]; exact Function.update_self ..) rfl hheld
  | @collectGone p it live needsPrune sub hpc hsub hgone =>
      obtain ⟨pub, hpub, hthread, hinv⟩ := hcall p (by rw [hpc]; rfl)
      refine h.advance (by rw [hpc]; rfl) hpub rfl (fun q hq => (Option.some.inj hq).symm)
        (getElem?_modify_ite hpub _) ⟨rfl, rfl, rfl⟩ hheld hlists ?_
      exact hinv.check (hthread ▸ hpc) hsub rfl (fun _ => hgone)
        (by rw [hthread]; exact Function.update_self ..) rfl hheld
  | @collectEnd p it live needsPrune hpc hend =>
      obtain ⟨pub, hpub, hthread, hinv⟩ := hcall p (by rw [hpc]; rfl)
      have hpc' : s.calls pub.thread = .collect p it live needsPrune := hthread ▸ hpc
      have hchecked := hinv.checked
      have hstable := hinv.stable p it live needsPrune hpc' rfl
      simp only [hpc', BusPc.position, if_pos] at hchecked
      rw [List.take_of_length_le (hstable ▸ List.getElem?_eq_none_iff.mp hend)] at hchecked
      refine h.advance (by rw [hpc]; rfl) hpub rfl (fun q hq => (Option.some.inj hq).symm)
        (getElem?_ite_self hpub) ⟨rfl, rfl, rfl⟩ hheld hlists ?_
      have hself : (s.goto i (.isShutdown p live needsPrune)).calls pub.thread =
          .isShutdown p live needsPrune := by rw [hthread]; exact Function.update_self ..
      refine hinv.deliver rfl rfl rfl ?_ hchecked ?_ hheld
      · exact congrArg BusPc.reads hself
      · exact congrArg (_ ++ BusPc.todo p.number ·) hself |>.trans (by rw [hpc']; rfl)
  | @sentAll p needsPrune hpc =>
      cases needsPrune with
      | true =>
          exact h.deliver id (by rw [hpc]; rfl) (by rw [hpc]; rfl) rfl
            (fun q hq => (Option.some.inj hq).symm) rfl (fun pub hpub => getElem?_ite_self hpub)
            (fun _ => ⟨rfl, rfl, rfl⟩) (fun _ => ⟨rfl, rfl⟩)
            (fun _ => by rw [hpc]; simp [BusPc.todo])
            hheld hlists
      | false =>
          exact h.deliver id (by rw [hpc]; rfl) (by rw [hpc]; rfl) rfl
            (fun q hq => by cases hq) rfl (fun pub hpub => getElem?_ite_self hpub)
            (fun _ => ⟨rfl, rfl, rfl⟩) (fun _ => ⟨rfl, rfl⟩)
            (fun _ => by rw [hpc]; simp [BusPc.todo])
            hheld hlists
  | @skip p c rest needsPrune hpc hclosed =>
      exact h.deliver (.outcome c .closed) (by rw [hpc]; rfl) (by rw [hpc]; rfl) rfl
        (fun q hq => (Option.some.inj hq).symm) rfl (fun pub hpub => getElem?_modify_ite hpub _)
        (fun _ => ⟨rfl, rfl, rfl⟩) (fun _ => ⟨rfl, rfl⟩)
        (fun _ => by rw [hpc]; simp [BusPc.todo, Publication.outcome])
        hheld hlists
  | @attempt p c rest needsPrune hpc =>
      exact h.deliver id (by rw [hpc]; rfl) (by rw [hpc]; rfl) rfl
        (fun q hq => (Option.some.inj hq).symm) rfl (fun pub hpub => getElem?_ite_self hpub)
        (fun _ => ⟨rfl, rfl, rfl⟩) (fun _ => ⟨rfl, rfl⟩)
        (fun _ => by rw [hpc]; simp [BusPc.todo])
        hheld hlists
  | @send p c rest needsPrune queue hpc hput =>
      exact h.deliver (.outcome c .sent) (by rw [hpc]; rfl) (by rw [hpc]; rfl) rfl
        (fun q hq => (Option.some.inj hq).symm) rfl (fun pub hpub => getElem?_modify_ite hpub _)
        (fun _ => ⟨rfl, rfl, rfl⟩) (fun _ => ⟨rfl, rfl⟩)
        (fun _ => by rw [hpc]; simp [BusPc.todo, Publication.outcome])
        hheld hlists
  | @reject p c rest needsPrune hpc hput =>
      exact h.deliver (.outcome c _) (by rw [hpc]; rfl) (by rw [hpc]; rfl) rfl
        (fun q hq => (Option.some.inj hq).symm) rfl (fun pub hpub => getElem?_modify_ite hpub _)
        (fun _ => ⟨rfl, rfl, rfl⟩) (fun _ => ⟨rfl, rfl⟩)
        (fun _ => by rw [hpc]; simp [BusPc.todo, Publication.outcome])
        hheld hlists
  | @pruneLock p m hpc hlock =>
      exact h.deliver id (by rw [hpc]; rfl) (by rw [hpc]; rfl) rfl
        (fun q hq => (Option.some.inj hq).symm) rfl (fun pub hpub => getElem?_ite_self hpub)
        (fun _ => ⟨rfl, rfl, rfl⟩) (fun _ => ⟨rfl, rfl⟩)
        (fun _ => by rw [hpc]; simp [BusPc.todo])
        hheld hlists
  | @prune p it kept sub hpc hsub =>
      exact h.deliver id (by rw [hpc]; rfl) (by rw [hpc]; rfl) rfl
        (fun q hq => (Option.some.inj hq).symm) rfl (fun pub hpub => getElem?_ite_self hpub)
        (fun _ => ⟨rfl, rfl, rfl⟩) (fun _ => ⟨rfl, rfl⟩)
        (fun _ => by rw [hpc]; simp [BusPc.todo])
        hheld hlists
  | @pruneEnd p it kept hpc hend =>
      exact h.deliver id (by rw [hpc]; rfl) (by rw [hpc]; rfl) rfl
        (fun q hq => by cases hq) rfl (fun pub hpub => getElem?_ite_self hpub)
        (fun _ => ⟨rfl, rfl, rfl⟩) (fun _ => ⟨rfl, rfl⟩)
        (fun _ => by rw [hpc]; simp [BusPc.todo])
        hheld hlists
  | subscribe hpc | insert hpc | unsubscribe hpc | exit hpc =>
      exact h.frame rfl rfl hheld hlists (by rw [hpc]; rfl) rfl

theorem CallInv.ownerMove (h : CallInv s) (hm : OwnerMove mCapacity s s') : CallInv s' := by
  have hheld : ∀ c, Held s'.refs c → Held s.refs c := fun c hc => hm.held hc
  cases hm with
  | call hidle hpc hrefs => exact h.frame rfl rfl hheld (.inl rfl) (by rw [hidle]; rfl) hpc.1
  | refs hrefs =>
      exact ⟨fun n pub hn => (h.pubs n pub hn).frame hheld (.inl rfl) (.inl rfl), h.call, h.latest⟩
  | queue ha hq =>
      exact ⟨fun n pub hn => (h.pubs n pub hn).frame hheld (.inl rfl) (.inl rfl), h.call, h.latest⟩

theorem CallInv.step {a : BusAct Data} (h : CallInv s) (hl : LockInv s)
    (hs : busStep mCapacity s a = some s') : CallInv s' := by
  have hl' := hl.step hs
  rcases busStep_cases hs with ⟨i, -, hm⟩ | hm
  · exact h.threadMove hl hl' hm
  · exact h.ownerMove hm

/-! ## What is in the channels -/

/-- The two events are not of one thread, or in the order of its calls. -/
def InOrder (s : Bus Data) (e e' : Sent Data) : Prop :=
  ∀ pub pub', s.published[e.call]? = some pub → s.published[e'.call]? = some pub' →
    pub.thread = pub'.thread → e.call ≤ e'.call

/-- What has entered a channel, and what came of the rest. -/
structure QueueInv (mCapacity : Nat → Nat) (s : Bus Data) : Prop where
  fifo : ∀ c, BoundedFifo.Inv (mCapacity c) (s.queues c)
  known : ∀ c, ∀ e ∈ (s.queues c).entered,
    ∃ pub, s.published[e.call]? = some pub ∧ pub.data = e.data
  count : ∀ (n : Nat) (pub : Publication Data), s.published[n]? = some pub → ∀ c,
    ((s.queues c).entered.countP fun e => e.call = n) = pub.outcomes.count (c, .sent)
  ordered : ∀ c, (s.queues c).entered.Pairwise (InOrder s)
  closed : ∀ (n : Nat) (pub : Publication Data), s.published[n]? = some pub →
    ∀ c, (c, .closed) ∈ pub.outcomes →
    (s.queues c).closed = true
  full : ∀ (n : Nat) (pub : Publication Data), s.published[n]? = some pub →
    ∀ c, (c, .full) ∈ pub.outcomes →
    mCapacity c ≠ 0

theorem queueInv_init (mCapacity : Nat → Nat) (owned : List Nat) :
    QueueInv mCapacity (Bus.init owned : Bus Data) where
  fifo := fun _ => ⟨rfl, fun _ => Nat.zero_le _⟩
  known := fun _ _ h => by cases h
  count := fun _ _ h => by cases h
  ordered := fun _ => .nil
  closed := fun _ _ h => by cases h
  full := fun _ _ h => by cases h

/-- The histories say the same about the channels. -/
structure Publication.Same (pub pub' : Publication Data) : Prop where
  thread : pub'.thread = pub.thread
  data : pub'.data = pub.data
  outcomes : pub'.outcomes = pub.outcomes

/-- The calls that have begun say the same, and a new one says nothing. -/
structure SamePublished (s s' : Bus Data) : Prop where
  old : ∀ (n : Nat) (pub : Publication Data), s.published[n]? = some pub →
    ∃ pub', s'.published[n]? = some pub' ∧ pub.Same pub'
  new : ∀ n : Nat, s.published[n]? = none →
    ∀ pub' : Publication Data, s'.published[n]? = some pub' →
    pub'.outcomes = []

/-- The order of events that have entered before. -/
theorem InOrder.same {e e' : Sent Data} (h : InOrder s e e') (hsame : SamePublished s s')
    (he : ∃ pub, s.published[e.call]? = some pub ∧ pub.data = e.data)
    (he' : ∃ pub, s.published[e'.call]? = some pub ∧ pub.data = e'.data) : InOrder s' e e' := by
  intro pub₁ pub₁' h₁ h₁' hthread
  obtain ⟨pub, hpub, -⟩ := he
  obtain ⟨pub', hpub', -⟩ := he'
  obtain ⟨pub₂, h₂, hs₂⟩ := hsame.old _ _ hpub
  obtain ⟨pub₂', h₂', hs₂'⟩ := hsame.old _ _ hpub'
  rw [h₂] at h₁
  rw [h₂'] at h₁'
  cases h₁
  cases h₁'
  exact h pub pub' hpub hpub' (by rw [← hs₂.thread, ← hs₂'.thread, hthread])

/-- Nothing enters a channel, and no call is done with one. -/
theorem QueueInv.frame (h : QueueInv mCapacity s) (hsame : SamePublished s s')
    (hfifo : ∀ c, BoundedFifo.Inv (mCapacity c) (s'.queues c))
    (hentered : ∀ c, (s'.queues c).entered = (s.queues c).entered)
    (hclosed : ∀ c, (s.queues c).closed = true → (s'.queues c).closed = true) :
    QueueInv mCapacity s' := by
  -- A call of `s'` is one of `s`, or nothing has come of it.
  have hback : ∀ (n : Nat) (pub' : Publication Data), s'.published[n]? = some pub' →
      (∃ pub, s.published[n]? = some pub ∧ pub.Same pub') ∨
        s.published[n]? = none ∧ pub'.outcomes = [] := by
    intro n pub' hn
    cases hpub : s.published[n]? with
    | none => exact .inr ⟨rfl, hsame.new n hpub pub' hn⟩
    | some pub =>
        obtain ⟨pub₁, h₁, hs⟩ := hsame.old n pub hpub
        rw [hn] at h₁
        cases h₁
        exact .inl ⟨pub, rfl, hs⟩
  refine ⟨hfifo, fun c e he => ?_, fun n pub' hn c => ?_, fun c => ?_, fun n pub' hn c hc => ?_,
    fun n pub' hn c hc => ?_⟩
  · rw [hentered] at he
    obtain ⟨pub, hpub, hdata⟩ := h.known c e he
    obtain ⟨pub', hpub', hs⟩ := hsame.old _ _ hpub
    exact ⟨pub', hpub', hs.data.trans hdata⟩
  · rw [hentered]
    rcases hback n pub' hn with ⟨pub, hpub, hs⟩ | ⟨hnone, hnil⟩
    · rw [hs.outcomes]
      exact h.count n pub hpub c
    · rw [hnil, List.count_nil, List.countP_eq_zero]
      intro e he heq
      obtain ⟨pub, hpub, -⟩ := h.known c e he
      rw [of_decide_eq_true heq, hnone] at hpub
      cases hpub
  · rw [hentered]
    exact (h.ordered c).imp_of_mem fun {e e'} he he' hle =>
      hle.same hsame (h.known c e he) (h.known c e' he')
  · rcases hback n pub' hn with ⟨pub, hpub, hs⟩ | ⟨-, hnil⟩
    · exact hclosed c (h.closed n pub hpub c (hs.outcomes ▸ hc))
    · rw [hnil] at hc
      cases hc
  · rcases hback n pub' hn with ⟨pub, hpub, hs⟩ | ⟨-, hnil⟩
    · exact h.full n pub hpub c (hs.outcomes ▸ hc)
    · rw [hnil] at hc
      cases hc

/-- What `TrySend` does to a channel. -/
structure Delivers (mCapacity : Nat → Nat) (s s' : Bus Data) (p : Publishing Data) (c : Nat)
    (o : Outcome) : Prop where
  others : ∀ c', c' ≠ c → s'.queues c' = s.queues c'
  fifo : BoundedFifo.Inv (mCapacity c) (s.queues c) → BoundedFifo.Inv (mCapacity c) (s'.queues c)
  entered : (s'.queues c).entered =
    (s.queues c).entered ++ if o = .sent then [⟨p.number, p.data⟩] else []
  same : (s'.queues c).closed = (s.queues c).closed
  closed : o = .closed → (s.queues c).closed = true
  full : o = .full → mCapacity c ≠ 0

/-- A call is done with a channel. -/
theorem QueueInv.outcome (h : QueueInv mCapacity s) (hcall : CallInv s) {p : Publishing Data}
    {c : Nat} {o : Outcome} {pub : Publication Data} (hp : (s.calls i).publishing = some p)
    (hpub : s.published[p.number]? = some pub)
    (hpublished : ∀ m, s'.published[m]? =
      if m = p.number then some (pub.outcome c o) else s.published[m]?)
    (hd : Delivers mCapacity s s' p c o) : QueueInv mCapacity s' := by
  obtain ⟨pub₀, hpub₀, hthread, -, hdata⟩ := hcall.call i p hp
  rw [hpub] at hpub₀
  cases hpub₀
  -- The calls are the same but for the outcome.
  have hold : ∀ {n : Nat} {pub₁ : Publication Data}, s.published[n]? = some pub₁ →
      ∃ pub₂, s'.published[n]? = some pub₂ ∧ pub₂.thread = pub₁.thread ∧ pub₂.data = pub₁.data := by
    intro n pub₁ hn
    by_cases hne : n = p.number
    · subst hne
      rw [hpub] at hn
      cases hn
      exact ⟨pub.outcome c o, by rw [hpublished, if_pos rfl], rfl, rfl⟩
    · exact ⟨pub₁, by rw [hpublished, if_neg hne, hn], rfl, rfl⟩
  have hback : ∀ {n : Nat} {pub₂ : Publication Data}, s'.published[n]? = some pub₂ →
      ∃ pub₁, s.published[n]? = some pub₁ ∧ pub₂.thread = pub₁.thread ∧
        (n = p.number ∧ pub₂.outcomes = pub₁.outcomes ++ [(c, o)] ∨
          n ≠ p.number ∧ pub₂.outcomes = pub₁.outcomes) := by
    intro n pub₂ hn
    rw [hpublished] at hn
    split at hn
    next heq =>
      cases hn
      exact ⟨pub, heq ▸ hpub, rfl, .inl ⟨heq, rfl⟩⟩
    next hne => exact ⟨pub₂, hn, rfl, .inr ⟨hne, rfl⟩⟩
  have horder : ∀ {e e' : Sent Data}, InOrder s e e' → InOrder s' e e' := by
    intro e e' hle pub₂ pub₂' h₂ h₂' heq
    obtain ⟨pub₁, h₁, ht, -⟩ := hback h₂
    obtain ⟨pub₁', h₁', ht', -⟩ := hback h₂'
    exact hle pub₁ pub₁' h₁ h₁' (by rw [← ht, ← ht', heq])
  refine ⟨fun c' => ?_, fun c' e he => ?_, fun n pub₂ hn c' => ?_, fun c' => ?_,
    fun n pub₂ hn c' hc' => ?_, fun n pub₂ hn c' hc' => ?_⟩
  · rcases eq_or_ne c' c with rfl | hne
    · exact hd.fifo (h.fifo c')
    · rw [hd.others c' hne]
      exact h.fifo c'
  · have hmem : e ∈ (s.queues c').entered ∨ e = ⟨p.number, p.data⟩ := by
      rcases eq_or_ne c' c with rfl | hne
      · rw [hd.entered] at he
        rcases List.mem_append.mp he with he | he
        · exact .inl he
        · split at he
          · exact .inr (List.mem_singleton.mp he)
          · cases he
      · rw [hd.others c' hne] at he
        exact .inl he
    rcases hmem with he | rfl
    · obtain ⟨pub₁, h₁, hdata₁⟩ := h.known c' e he
      obtain ⟨pub₂, h₂, -, hdata₂⟩ := hold h₁
      exact ⟨pub₂, h₂, hdata₂.trans hdata₁⟩
    · obtain ⟨pub₂, h₂, -, hdata₂⟩ := hold hpub
      exact ⟨pub₂, h₂, hdata₂.trans hdata⟩
  · obtain ⟨pub₁, h₁, -, ho⟩ := hback hn
    have hcount := h.count n pub₁ h₁ c'
    rcases eq_or_ne c' c with rfl | hne
    · rw [hd.entered, List.countP_append, hcount]
      rcases ho with ⟨rfl, ho⟩ | ⟨hne, ho⟩
      · rw [ho, List.count_append]
        congr 1
        by_cases hsent : o = .sent
        · subst hsent
          simp
        · simp [hsent]
      · rw [ho]
        split
        · simp [Ne.symm hne]
        · rfl
    · rw [hd.others c' hne, hcount]
      rcases ho with ⟨rfl, ho⟩ | ⟨-, ho⟩
      · rw [ho, List.count_append]
        simp [Ne.symm hne]
      · rw [ho]
  · rcases eq_or_ne c' c with rfl | hne
    · rw [hd.entered]
      refine List.pairwise_append.mpr ⟨(h.ordered c').imp horder, ?_, fun e he e' he' => ?_⟩
      · split
        · exact List.pairwise_singleton ..
        · exact .nil
      · split at he'
        · rw [List.mem_singleton.mp he']
          intro pub₂ pub₂' h₂ h₂' heq
          obtain ⟨pub₁, h₁, ht, -⟩ := hback h₂
          obtain ⟨pub₁', h₁', ht', -⟩ := hback h₂'
          rw [hpub] at h₁'
          cases h₁'
          exact hcall.latest i p hp e.call pub₁ h₁ (by rw [← ht, heq, ht', hthread])
        · cases he'
    · rw [hd.others c' hne]
      exact (h.ordered c').imp horder
  · obtain ⟨pub₁, h₁, -, ho⟩ := hback hn
    have hmem : (c', Outcome.closed) ∈ pub₁.outcomes ∨ (c' = c ∧ o = .closed) := by
      rcases ho with ⟨-, ho⟩ | ⟨-, ho⟩
      · rw [ho] at hc'
        rcases List.mem_append.mp hc' with hc' | hc'
        · exact .inl hc'
        · obtain ⟨rfl, rfl⟩ := Prod.mk.inj (List.mem_singleton.mp hc')
          exact .inr ⟨rfl, rfl⟩
      · exact .inl (ho ▸ hc')
    have hclosed : (s.queues c').closed = true := by
      rcases hmem with hc' | ⟨rfl, hcl⟩
      · exact h.closed n pub₁ h₁ c' hc'
      · exact hd.closed hcl
    rcases eq_or_ne c' c with rfl | hne
    · rw [hd.same]
      exact hclosed
    · rw [hd.others c' hne]
      exact hclosed
  · obtain ⟨pub₁, h₁, -, ho⟩ := hback hn
    rcases ho with ⟨-, ho⟩ | ⟨-, ho⟩
    · rw [ho] at hc'
      rcases List.mem_append.mp hc' with hc' | hc'
      · exact h.full n pub₁ h₁ c' hc'
      · obtain ⟨rfl, hfull⟩ := Prod.mk.inj (List.mem_singleton.mp hc')
        exact hd.full hfull.symm
    · exact h.full n pub₁ h₁ c' (ho ▸ hc')

/-- The histories are as before. -/
theorem samePublished_of_eq (h : s'.published = s.published) : SamePublished s s' where
  old := fun n pub hn => ⟨pub, by rw [h]; exact hn, rfl, rfl, rfl⟩
  new := fun n hn pub hpub => by
    rw [h, hn] at hpub
    cases hpub

/-- A subscription has been looked at. -/
theorem samePublished_check {n : Nat} {sub : Subscription} {alive : Bool}
    (h : s'.published = s.published.modify n (.check sub alive)) : SamePublished s s' where
  old := fun m pub hm => by
    rw [h, List.getElem?_modify, hm]
    split
    · exact ⟨_, rfl, rfl, rfl, rfl⟩
    · exact ⟨_, rfl, rfl, rfl, rfl⟩
  new := fun m hm pub hpub => by
    rw [h, List.getElem?_modify, hm] at hpub
    cases hpub

/-- A call has begun. -/
theorem samePublished_start {key : UInt8} {data : Data} {subs : List Subscription}
    (h : s'.published = s.published ++ [Publication.start i key data subs]) :
    SamePublished s s' where
  old := fun n pub hn => by
    rw [h, List.getElem?_append_left (List.getElem?_eq_some_iff.mp hn).1]
    exact ⟨pub, hn, rfl, rfl, rfl⟩
  new := fun n hn pub hpub => by
    rw [h, List.getElem?_append_right (List.getElem?_eq_none_iff.mp hn),
      List.getElem?_singleton] at hpub
    split at hpub
    · cases hpub
      rfl
    · cases hpub

theorem QueueInv.threadMove (h : QueueInv mCapacity s) (hcall : CallInv s)
    (hm : ThreadMove mCapacity s i s') : QueueInv mCapacity s' := by
  have hpub : ∀ p, (s.calls i).publishing = some p → ∃ pub, s.published[p.number]? = some pub :=
    fun p hp => (hcall.call i p hp).imp fun _ h => h.1
  cases hm with
  | publish hpc hlock =>
      exact h.frame (samePublished_start rfl) h.fifo (fun _ => rfl) fun _ hc => hc
  | collectAlive hpc hsub halive =>
      exact h.frame (samePublished_check rfl) h.fifo (fun _ => rfl) fun _ hc => hc
  | collectGone hpc hsub hgone =>
      exact h.frame (samePublished_check rfl) h.fifo (fun _ => rfl) fun _ hc => hc
  | @skip p c rest needsPrune hpc hclosed =>
      obtain ⟨pub, hpub⟩ := hpub p (by rw [hpc]; rfl)
      refine h.outcome hcall (by rw [hpc]; rfl) hpub (getElem?_modify_ite hpub _)
        ⟨fun _ _ => rfl, id, ?_, rfl, fun _ => hclosed, fun hf => (by cases hf)⟩
      exact (List.append_nil _).symm
  | @send p c rest needsPrune queue hpc hput =>
      obtain ⟨pub, hpub⟩ := hpub p (by rw [hpc]; rfl)
      obtain ⟨hopen, hopen', hentered⟩ := BoundedFifo.step_put_eq_some hput
      have hself : Function.update s.queues c queue c = queue := Function.update_self ..
      refine h.outcome hcall (by rw [hpc]; rfl) hpub (getElem?_modify_ite hpub _)
        ⟨fun c' hne => Function.update_of_ne hne _ _, fun hinv => ?_, ?_, ?_,
          fun hf => (by cases hf), fun hf => (by cases hf)⟩
      · exact (congrArg (BoundedFifo.Inv (mCapacity c)) hself).mpr (hinv.step hput)
      · exact (congrArg Fifo.entered hself).trans hentered
      · exact (congrArg Fifo.closed hself).trans (hopen'.trans hopen.symm)
  | @reject p c rest needsPrune hpc hput =>
      obtain ⟨pub, hpub⟩ := hpub p (by rw [hpc]; rfl)
      refine h.outcome hcall (by rw [hpc]; rfl) hpub (getElem?_modify_ite hpub _)
        ⟨fun _ _ => rfl, id, ?_, rfl, fun ho => ?_, fun ho => ?_⟩
      · cases hclosed : (s.queues c).closed <;> simp [Bus.goto, Bus.note]
      · cases hclosed : (s.queues c).closed with
        | true => rfl
        | false => simp [hclosed] at ho
      · cases hclosed : (s.queues c).closed with
        | true => simp [hclosed] at ho
        | false => exact BoundedFifo.step_put_eq_none hput hclosed
  | _ => exact h.frame (samePublished_of_eq rfl) h.fifo (fun _ => rfl) fun _ hc => hc

theorem QueueInv.ownerMove (h : QueueInv mCapacity s) (hm : OwnerMove mCapacity s s') :
    QueueInv mCapacity s' := by
  cases hm with
  | @queue c a queue ha hq =>
      obtain ⟨hentered, hclosed⟩ := BoundedFifo.step_entered ha hq
      refine h.frame (samePublished_of_eq rfl) (fun c' => ?_) (fun c' => ?_) fun c' hc => ?_
      all_goals dsimp only
      all_goals rcases eq_or_ne c' c with rfl | hne
      · rw [Function.update_self]
        exact (h.fifo c').step hq
      · rw [Function.update_of_ne hne]
        exact h.fifo c'
      · rw [Function.update_self, hentered]
      · rw [Function.update_of_ne hne]
      · rw [Function.update_self]
        exact hclosed hc
      · rw [Function.update_of_ne hne]
        exact hc
  | _ => exact h.frame (samePublished_of_eq rfl) h.fifo (fun _ => rfl) fun _ hc => hc

theorem QueueInv.step {a : BusAct Data} (h : QueueInv mCapacity s) (hcall : CallInv s)
    (hs : busStep mCapacity s a = some s') : QueueInv mCapacity s' := by
  rcases busStep_cases hs with ⟨i, -, hm⟩ | hm
  · exact h.threadMove hcall hm
  · exact h.ownerMove hm

/-! ## Whole runs -/

variable {owned : List Nat} {as : List (BusAct Data)}

theorem busInv_run (hrun : Machine.run (busStep mCapacity) (.init owned) as = some s) :
    CallInv s ∧ QueueInv mCapacity s := by
  have h : LockInv s ∧ CallInv s ∧ QueueInv mCapacity s := by
    refine Machine.run_invariant
      (I := fun s => LockInv s ∧ CallInv s ∧ QueueInv mCapacity s) ?_
      ⟨lockInv_init owned, callInv_init owned, queueInv_init mCapacity owned⟩ hrun
    rintro u a u' ⟨hl, hc, hq⟩ hs
    exact ⟨hl.step hs, hc.step hl hs, hq.step hc hs⟩
  exact h.2

theorem count_live (pub : Publication Data) (c : Nat) :
    pub.live.count c = pub.checked.countP fun x => x.2 && x.1.channel = c := by
  rw [Publication.live, List.count_eq_countP, List.countP_map, List.countP_filter]
  refine List.countP_congr fun x _ => ?_
  simp [and_comm]

/-- What has been looked at is a part of what was subscribed. -/
theorem PubInv.countP_checked_le {n : Nat} {pub : Publication Data} (h : PubInv s n pub) (c : Nat) :
    pub.checked.countP (fun x => x.1.channel = c) ≤
      pub.subscribers.countP fun sub => sub.channel = c := by
  have hmap : pub.checked.countP (fun x => x.1.channel = c) =
      (pub.checked.map (·.1)).countP fun sub => sub.channel = c := by
    rw [List.countP_map]
    rfl
  rw [hmap, h.checked]
  exact (List.take_sublist _ _).countP_le

/-- An event enters a channel at most once for each subscription that its call found, and exactly
once if the call is over, the channel exists, has no bound and has not been shut down. -/
theorem publish_exactlyOnce
    (hrun : Machine.run (busStep mCapacity) (.init owned) as = some s) (c : Nat) :
    (∀ e ∈ (s.queues c).entered, ∃ pub, s.published[e.call]? = some pub ∧ pub.data = e.data) ∧
      ∀ n pub, s.published[n]? = some pub →
        ((s.queues c).entered.countP fun e => e.call = n) ≤
            pub.subscribers.countP (fun sub => sub.channel = c) ∧
          ((s.calls pub.thread).Left n → Held s.refs c → mCapacity c = 0 →
            (s.queues c).closed = false →
              ((s.queues c).entered.countP fun e => e.call = n) =
                pub.subscribers.countP fun sub => sub.channel = c) := by
  obtain ⟨hcall, hqueue⟩ := busInv_run hrun
  refine ⟨hqueue.known c, fun n pub hn => ?_⟩
  have hpub := hcall.pubs n pub hn
  have hsent : pub.outcomes.count (c, .sent) ≤ (pub.outcomes.map (·.1)).count c := by
    rw [List.count_eq_countP, List.count_eq_countP, List.countP_map]
    exact List.countP_mono_left fun o _ ho => by simp_all
  have hdone : (pub.outcomes.map (·.1)).count c ≤ pub.live.count c := by
    rw [← hpub.outcomes, List.count_append]
    exact Nat.le_add_right _ _
  have halive : pub.live.count c ≤ pub.checked.countP fun x => x.1.channel = c := by
    rw [count_live]
    exact List.countP_mono_left fun x _ hx => (Bool.and_eq_true_iff.mp hx).2
  rw [hqueue.count n pub hn c]
  refine ⟨hsent.trans (hdone.trans (halive.trans (hpub.countP_checked_le c))), ?_⟩
  intro hleft hheld hcap hopen
  have hall : pub.checked.map (·.1) = pub.subscribers := by
    have hchecked := hpub.checked
    rw [hleft.position, List.take_length] at hchecked
    exact hchecked
  have houtcomes : pub.outcomes.map (·.1) = pub.live := by
    have houtcomes := hpub.outcomes
    rw [hleft.todo, List.append_nil] at houtcomes
    exact houtcomes
  -- Nothing else can have come of the events for this channel.
  have hsent' : pub.outcomes.count (c, .sent) = (pub.outcomes.map (·.1)).count c := by
    rw [List.count_eq_countP, List.count_eq_countP, List.countP_map]
    refine List.countP_congr fun o ho => ?_
    obtain ⟨c', o⟩ := o
    cases o with
    | sent => simp
    | closed =>
        have hno : c' ≠ c := by
          rintro rfl
          rw [hqueue.closed n pub hn c' ho] at hopen
          cases hopen
        simp [hno]
    | full =>
        have hno : c' ≠ c := by
          rintro rfl
          exact hqueue.full n pub hn c' ho hcap
        simp [hno]
  -- The channel exists, so the call found it each time.
  have halive' : pub.live.count c = pub.checked.countP fun x => x.1.channel = c := by
    rw [count_live]
    refine List.countP_congr fun x hx => ?_
    obtain ⟨sub, found⟩ := x
    cases found with
    | true => simp
    | false =>
        have hno : sub.channel ≠ c := by
          rintro rfl
          exact hpub.gone sub hx hheld
        simp [hno]
  rw [hsent', houtcomes, halive', ← hall, List.countP_map]
  rfl

/-- The owner of a channel subscribes, and a thread publishes an event. -/
def deliveredTrace : List (BusAct Nat) :=
  [.subscribe 0 1 7, .thread 0, .thread 0, .thread 0, .publish 1 1 42] ++ .replicate 7 (.thread 1)

theorem publish_exactlyOnce_delivered :
    ∃ s, Machine.run (busStep fun _ => 0) (.init [7]) deliveredTrace = some s ∧
      (s.queues 7).entered = [⟨0, 42⟩] ∧
        ((s.queues 7).entered.countP fun e => e.call = 0) = 1 := by
  have hrun : (Machine.run (busStep fun _ => 0) (.init [7]) deliveredTrace).any (fun s =>
      decide ((s.queues 7).entered = [⟨0, 42⟩] ∧ s.calls 1 = .idle ∧ Held s.refs 7 ∧
        (s.queues 7).closed = false ∧
        s.published[0]? = some ⟨1, 1, 42, [⟨1, 7⟩], [(⟨1, 7⟩, true)], [(7, .sent)]⟩)) = true := by
    decide +kernel
  obtain ⟨s, hs, hp⟩ := (Option.any_eq_true _ _).mp hrun
  obtain ⟨hentered, hidle, hheld, hopen, hpub⟩ := of_decide_eq_true hp
  refine ⟨s, hs, hentered, ?_⟩
  refine (((publish_exactlyOnce hs 7).2 0 _ hpub).2 (fun p hcall => ?_) hheld rfl hopen).trans rfl
  rw [hidle] at hcall
  cases hcall

/-- The events of a thread enter each channel in the order of its calls, and leave it in that
order. -/
theorem publish_inOrder
    (hrun : Machine.run (busStep mCapacity) (.init owned) as = some s) (c : Nat) :
    (s.queues c).entered.Pairwise (InOrder s) ∧ (s.queues c).left <+: (s.queues c).entered := by
  obtain ⟨-, hqueue⟩ := busInv_run hrun
  exact ⟨hqueue.ordered c, (hqueue.fifo c).order ▸ List.prefix_append _ _⟩

/-- The thread publishes another event, and the owner receives the first. -/
theorem publish_inOrder_delivered :
    ∃ s, Machine.run (busStep fun _ => 0) (.init [7])
        (deliveredTrace ++ .publish 1 1 43 :: .replicate 7 (.thread 1) ++ [.receive 7]) = some s ∧
      (s.queues 7).entered = [⟨0, 42⟩, ⟨1, 43⟩] ∧ (s.queues 7).left = [⟨0, 42⟩] ∧
        (s.queues 7).entered.Pairwise (InOrder s) ∧ (s.queues 7).left <+: (s.queues 7).entered := by
  have hrun : (Machine.run (busStep fun _ => 0) (.init [7])
      (deliveredTrace ++ .publish 1 1 43 :: .replicate 7 (.thread 1) ++ [.receive 7])).any (fun s =>
        decide ((s.queues 7).entered = [⟨0, 42⟩, ⟨1, 43⟩] ∧
          (s.queues 7).left = [⟨0, 42⟩])) = true := by
    decide +kernel
  obtain ⟨s, hs, hp⟩ := (Option.any_eq_true _ _).mp hrun
  obtain ⟨hentered, hleft⟩ := of_decide_eq_true hp
  exact ⟨s, hs, hentered, hleft, publish_inOrder hs 7⟩

end

end NetworkModule.EventBus
