import Mathlib

/-!
# Labelled machines and their runs

A *machine* is a step function `step : σ → α → Option σ`.  The label of a step
says which party moves and what its environment answers, so that a machine of
many threads is one function, and one interleaving of the threads is one list
of labels.  `none` says that the label is not enabled in the state.

`run` folds a list of labels.  `Meets ok` says that every step of a run starts
in a state and carries a label that `ok` allows.  An invariant of the machine is
a predicate every step keeps (`run_invariant`).  An invariant of the runs that
meet `ok` may use `ok` at every step (`run_invariant_of_meets`).  `Always P` says that
`P` holds in every state of a run.

A *simulation* maps each step of one machine to a step of another or to none
(`Simulates`), and then each run to a run (`Simulates.run`).
-/

namespace Machine

variable {σ α τ β : Type*}

/-! ## Runs -/

/-- The state after a list of labels, if every one of them is enabled. -/
def run (step : σ → α → Option σ) : σ → List α → Option σ
  | s, [] => some s
  | s, a :: as =>
      match step s a with
      | none => none
      | some s' => run step s' as

@[simp] theorem run_nil (step : σ → α → Option σ) (s : σ) : run step s [] = some s := rfl

theorem run_cons (step : σ → α → Option σ) (s : σ) (a : α) (as : List α) :
    run step s (a :: as) = (step s a).bind fun s' => run step s' as := by
  cases h : step s a with
  | none => simp [run, h]
  | some s' => simp [run, h]

/-- The first step of a run and the rest of it. -/
theorem run_cons_eq_some {step : σ → α → Option σ} {s t : σ} {a : α} {as : List α}
    (h : run step s (a :: as) = some t) : ∃ s', step s a = some s' ∧ run step s' as = some t := by
  rw [run_cons] at h
  exact Option.bind_eq_some_iff.mp h

theorem run_append (step : σ → α → Option σ) (s : σ) (as bs : List α) :
    run step s (as ++ bs) = (run step s as).bind fun s' => run step s' bs := by
  induction as generalizing s with
  | nil => rfl
  | cons a as ih =>
      rw [List.cons_append, run_cons, run_cons, Option.bind_assoc]
      congr 1
      funext s'
      exact ih s'

/-- Where every label is enabled, every list of labels has a run. -/
theorem run_total (step : σ → α → σ) (s : σ) (as : List α) :
    ∃ t, run (fun s a => some (step s a)) s as = some t := by
  induction as generalizing s with
  | nil => exact ⟨s, rfl⟩
  | cons a as ih => exact ih (step s a)

/-! ## Conditions on the steps of a run -/

/-- Every step of the run starts in a state and has a label that `ok` allows. -/
def Meets (step : σ → α → Option σ) (ok : σ → α → Prop) : σ → List α → Prop
  | _, [] => True
  | s, a :: as =>
      ok s a ∧
        match step s a with
        | none => True
        | some s' => Meets step ok s' as

instance Meets.instDecidable (step : σ → α → Option σ) (ok : σ → α → Prop)
    [∀ s a, Decidable (ok s a)] : ∀ (s : σ) (as : List α), Decidable (Meets step ok s as)
  | _, [] => isTrue trivial
  | s, a :: as =>
      match h : step s a with
      | none => decidable_of_iff (ok s a) (by simp [Meets, h])
      | some s' =>
          have := Meets.instDecidable step ok s' as
          decidable_of_iff (ok s a ∧ Meets step ok s' as) (by simp [Meets, h])

theorem Meets.head {step : σ → α → Option σ} {ok : σ → α → Prop} {s : σ} {a : α} {as : List α}
    (h : Meets step ok s (a :: as)) : ok s a := h.1

theorem Meets.tail {step : σ → α → Option σ} {ok : σ → α → Prop} {s s' : σ} {a : α} {as : List α}
    (h : Meets step ok s (a :: as)) (hs : step s a = some s') : Meets step ok s' as := by
  have h2 := h.2
  rw [hs] at h2
  exact h2

/-- A condition on the labels alone. -/
theorem Meets.of_forall_mem {step : σ → α → Option σ} {ok : α → Prop} {as : List α}
    (h : ∀ a ∈ as, ok a) (s : σ) : Meets step (fun _ a => ok a) s as := by
  induction as generalizing s with
  | nil => exact trivial
  | cons a as ih =>
      refine ⟨h a (List.mem_cons_self ..), ?_⟩
      cases step s a with
      | none => exact trivial
      | some s' => exact ih (fun b hb => h b (List.mem_cons_of_mem a hb)) s'

/-- Two conditions met are met together. -/
theorem Meets.and {step : σ → α → Option σ} {ok ok' : σ → α → Prop} {s : σ} {as : List α}
    (h : Meets step ok s as) (h' : Meets step ok' s as) :
    Meets step (fun s a => ok s a ∧ ok' s a) s as := by
  induction as generalizing s with
  | nil => exact trivial
  | cons a as ih =>
      refine ⟨⟨h.head, h'.head⟩, ?_⟩
      cases hs : step s a with
      | none => exact trivial
      | some s' => exact ih (h.tail hs) (h'.tail hs)

/-! ## Invariants -/

/-- A predicate that every allowed step keeps holds after every run of allowed
steps. -/
theorem run_invariant_of_meets {step : σ → α → Option σ} {ok : σ → α → Prop} {I : σ → Prop}
    (hstep : ∀ s a s', I s → ok s a → step s a = some s' → I s') {s t : σ} {as : List α}
    (hI : I s) (hok : Meets step ok s as) (hrun : run step s as = some t) : I t := by
  induction as generalizing s with
  | nil =>
      cases hrun
      exact hI
  | cons a as ih =>
      obtain ⟨s', hs, hr⟩ := run_cons_eq_some hrun
      exact ih (hstep s a s' hI hok.head hs) (hok.tail hs) hr

/-- A predicate that every step keeps holds after every run. -/
theorem run_invariant {step : σ → α → Option σ} {I : σ → Prop}
    (hstep : ∀ s a s', I s → step s a = some s' → I s') {s t : σ} {as : List α}
    (hI : I s) (hrun : run step s as = some t) : I t := by
  induction as generalizing s with
  | nil =>
      cases hrun
      exact hI
  | cons a as ih =>
      obtain ⟨s', hs, hr⟩ := run_cons_eq_some hrun
      exact ih (hstep s a s' hI hs) hr

/-- Two conditions that agree in the states of an invariant are met by the same runs. -/
theorem meets_congr {step : σ → α → Option σ} {ok ok' : σ → α → Prop} {I : σ → Prop}
    (hI : ∀ s a s', I s → step s a = some s' → I s') (h : ∀ s a, I s → (ok s a ↔ ok' s a))
    {s : σ} {as : List α} (hs : I s) : Meets step ok s as ↔ Meets step ok' s as := by
  induction as generalizing s with
  | nil => exact Iff.rfl
  | cons a as ih =>
      rw [Meets, Meets, h s a hs]
      cases hstep : step s a with
      | none => exact Iff.rfl
      | some s' => exact and_congr_right' (ih (hI s a s' hs hstep))

/-- The converse reading of a condition.  If a step that `ok` forbids makes `B`
true, and `B` once true stays true, then a run that ends outside `B` met `ok`
at every step. -/
theorem meets_of_run {step : σ → α → Option σ} {ok : σ → α → Prop} {I B : σ → Prop}
    (hI : ∀ s a s', I s → step s a = some s' → I s')
    (hbad : ∀ s a s', I s → ¬ ok s a → step s a = some s' → B s')
    (hkeep : ∀ s a s', I s → B s → step s a = some s' → B s') {s t : σ} {as : List α}
    (hs : I s) (hrun : run step s as = some t) (hend : ¬ B t) : Meets step ok s as := by
  induction as generalizing s with
  | nil => exact trivial
  | cons a as ih =>
      obtain ⟨s', hstep, hr⟩ := run_cons_eq_some hrun
      have hI' := hI s a s' hs hstep
      refine ⟨?_, ?_⟩
      · by_contra hno
        have hB : B s' := hbad s a s' hs hno hstep
        have hBt : I t ∧ B t := by
          refine run_invariant (I := fun s => I s ∧ B s) ?_ ⟨hI', hB⟩ hr
          rintro u b u' ⟨hu, hBu⟩ hb
          exact ⟨hI u b u' hu hb, hkeep u b u' hu hBu hb⟩
        exact hend hBt.2
      · rw [hstep]
        exact ih hI' hr

/-- `P` holds in every state that the run comes through. -/
def Always (step : σ → α → Option σ) (P : σ → Prop) (s : σ) (as : List α) : Prop :=
  ∀ bs t, bs <+: as → run step s bs = some t → P t

/-- If a step that `ok` allows keeps `P`, and one that `ok` forbids breaks it, then a run
has `P` throughout exactly when it meets `ok` at every step. -/
theorem always_iff_meets_of_holds {step : σ → α → Option σ} {ok : σ → α → Prop} {I P : σ → Prop}
    (hI : ∀ s a s', I s → step s a = some s' → I s')
    (hgood : ∀ s a s', I s → P s → ok s a → step s a = some s' → P s')
    (hbad : ∀ s a s', I s → P s → ¬ ok s a → step s a = some s' → ¬ P s') {s t : σ} {as : List α}
    (hs : I s) (hP : P s) (hrun : run step s as = some t) :
    Always step P s as ↔ Meets step ok s as := by
  induction as generalizing s with
  | nil =>
      refine ⟨fun _ => trivial, fun _ bs t hbs hr => ?_⟩
      rw [List.prefix_nil.mp hbs] at hr
      cases hr
      exact hP
  | cons a as ih =>
      obtain ⟨s', hstep, hr⟩ := run_cons_eq_some hrun
      have hI' := hI s a s' hs hstep
      have hcons : ∀ bs, run step s (a :: bs) = run step s' bs := fun bs => by
        rw [run_cons, hstep]
        rfl
      constructor
      · intro h
        have hP' : P s' := h [a] s' (by simp) (by rw [hcons]; rfl)
        refine ⟨not_not.mp fun hno => hbad s a s' hs hP hno hstep hP', ?_⟩
        rw [hstep]
        refine (ih hI' hP' hr).mp fun bs u hbs hu => ?_
        exact h (a :: bs) u (List.cons_prefix_cons.mpr ⟨rfl, hbs⟩) (by rw [hcons]; exact hu)
      · intro h bs u hbs hu
        have hP' : P s' := hgood s a s' hs hP h.head hstep
        cases bs with
        | nil =>
            cases hu
            exact hP
        | cons b bs =>
            obtain ⟨rfl, hbs'⟩ := List.cons_prefix_cons.mp hbs
            rw [hcons] at hu
            exact (ih hI' hP' hr).mpr (h.tail hstep) bs u hbs' hu

/-- The same where a step that `ok` forbids ends outside `P` from anywhere. -/
theorem always_iff_meets {step : σ → α → Option σ} {ok : σ → α → Prop} {I P : σ → Prop}
    (hI : ∀ s a s', I s → step s a = some s' → I s')
    (hgood : ∀ s a s', I s → P s → ok s a → step s a = some s' → P s')
    (hbad : ∀ s a s', I s → ¬ ok s a → step s a = some s' → ¬ P s') {s t : σ} {as : List α}
    (hs : I s) (hP : P s) (hrun : run step s as = some t) :
    Always step P s as ↔ Meets step ok s as :=
  always_iff_meets_of_holds hI hgood (fun s a s' h _ => hbad s a s' h) hs hP hrun

/-! ## Parties in a list -/

/-- A party that is not where one that is not in the list is taken to be is in it. -/
theorem getElem?_of_getD {parties : List α} {out pc : α} {i : Nat}
    (h : parties.getD i out = pc) (hne : pc ≠ out) : parties[i]? = some pc := by
  rw [List.getD_eq_getElem?_getD] at h
  cases hi : parties[i]? with
  | none =>
      rw [hi] at h
      exact absurd h.symm hne
  | some pc' =>
      rw [hi] at h
      exact congrArg some h

/-! ## Simulation -/

/-- Each step of `step` is matched under `f` by some abstract steps, none or
more. -/
def Simulates (step : σ → α → Option σ) (astep : τ → β → Option τ) (f : σ → τ) : Prop :=
  ∀ s a s', step s a = some s' → ∃ bs, run astep (f s) bs = some (f s')

/-- A simulation carries a run to an abstract run. -/
theorem Simulates.run {step : σ → α → Option σ} {astep : τ → β → Option τ} {f : σ → τ}
    (hsim : Simulates step astep f) {s t : σ} {as : List α}
    (hrun : Machine.run step s as = some t) : ∃ bs, Machine.run astep (f s) bs = some (f t) := by
  induction as generalizing s with
  | nil =>
      cases hrun
      exact ⟨[], rfl⟩
  | cons a as ih =>
      obtain ⟨s', hstep, hr⟩ := run_cons_eq_some hrun
      obtain ⟨bs₁, hbs₁⟩ := hsim s a s' hstep
      obtain ⟨bs₂, hbs₂⟩ := ih hr
      refine ⟨bs₁ ++ bs₂, ?_⟩
      rw [run_append, hbs₁]
      exact hbs₂

end Machine
