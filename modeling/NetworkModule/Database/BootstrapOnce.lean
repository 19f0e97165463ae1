import NetworkModule.Database.Bootstrap

/-!
# One bootstrap for each module

The call that inserts the row of a module is its *owner*.  Only the owner executes table
scripts and updates the row, so the row says how far the owner has come: it is
`IN_PROGRESS` until the owner has executed all its scripts, and if the owner fails or
crashes before that, it never becomes `COMPLETED`.  Every other call that returns has read
`COMPLETED` in it (`bootstrap_exclusive`).

Nothing here depends on how the messages of the database are recognised.  A duplicate key
that is taken for another error makes a call throw, and an error that is taken for a
duplicate key makes it read the row.
-/

namespace NetworkModule.Database.Bootstrap

/-! ## What a step does -/

/-- The call has not inserted the row and has not come to an end. -/
def Pc.reading : Pc → Bool
  | .begin | .read | .create | .reread | .insert | .racedRead _ => true
  | _ => false

/-- The call has failed or was interrupted. -/
def Pc.dead : Pc → Bool
  | .threw _ | .crashed => true
  | _ => false

/-- What a statement of the call `i` does, or a crash of it. -/
inductive Effect (c : Call) (w : World) (i : Nat) : World → Prop where
  /-- The first statement: the hash has been computed. -/
  | start (hpc : (w.locals i).pc = .begin) {hash : String} (hhash : computeManifestHash c = .ok hash) :
      Effect c w i { w with locals := Function.update w.locals i ⟨.read, hash⟩ }
  /-- The call reads on or gives up. -/
  | quiet {pc : Pc} {table : Bool} (hpc : (w.locals i).pc.reading = true)
      (hnew : (pc.reading = true ∧ (w.locals i).pc ≠ .begin) ∨ pc.dead = true) :
      Effect c w i { w.goto i pc with table := table }
  /-- The call sees that the module is bootstrapped. -/
  | skip (hpc : (w.locals i).pc.reading = true) (hbegin : (w.locals i).pc ≠ .begin)
      (hrow : w.rows c.spec.moduleName = some ⟨(w.locals i).manifestHash, .completed⟩) :
      Effect c w i (w.goto i (.returned false))
  | insert (hpc : (w.locals i).pc = .insert) (hrow : w.rows c.spec.moduleName = none) :
      Effect c w i { w.goto i (.script 0) with
        rows := Function.update w.rows c.spec.moduleName
          (some ⟨(w.locals i).manifestHash, .inProgress⟩)
        owner := Function.update w.owner c.spec.moduleName (some i) }
  | script {k : Nat} {tableScript : String} (hpc : (w.locals i).pc = .script k)
      (hk : c.spec.tableScripts[k]? = some tableScript) :
      Effect c w i { w.goto i (.script (k + 1)) with
        ran := w.ran ++ [(i, tableScript)]
        done := w.done ++ [(i, tableScript)] }
  /-- A table script fails, or the update after the last one does. -/
  | scriptFailed {k : Nat} {what : String} {ran : List (Nat × String)}
      (hpc : (w.locals i).pc = .script k)
      (hran : ran = w.ran ∨ ∃ tableScript, ran = w.ran ++ [(i, tableScript)]) :
      Effect c w i { w.goto i (.fail what) with ran := ran }
  | complete {k : Nat} (hpc : (w.locals i).pc = .script k)
      (hk : c.spec.tableScripts[k]? = none) :
      Effect c w i (updateBootstrapState c (w.goto i (.returned true)) i .completed)
  /-- The exception goes on to the caller, after the update to `FAILED`. -/
  | failed {what : String} (hpc : (w.locals i).pc = .fail what) :
      Effect c w i (updateBootstrapState c (w.goto i (.threw what)) i .failed)
  /-- The exception goes on to the caller, or the call is interrupted. -/
  | dies {pc : Pc} (hpc : (w.locals i).pc.finished = false) (hnew : pc.dead = true) :
      Effect c w i (w.goto i pc)

section
variable {c : Call} {w w' : World} {i : Nat}

theorem afterRead_effect (hpc : (w.locals i).pc.reading = true) (hbegin : (w.locals i).pc ≠ .begin)
    {row : Option Row} (hrow : w.rows c.spec.moduleName = row) :
    Effect c w i (afterRead c w i row) := by
  cases row with
  | none => exact .quiet hpc (.inl ⟨rfl, hbegin⟩)
  | some row =>
      simp only [afterRead]
      split
      · exact .quiet hpc (.inr rfl)
      · split
        · exact .quiet hpc (.inr rfl)
        next hstatus hhash =>
          obtain ⟨hash, status⟩ := row
          simp only [ne_eq, not_not] at hstatus hhash
          subst hstatus hhash
          exact .skip hpc hbegin hrow

theorem afterRacedRead_effect (hpc : (w.locals i).pc.reading = true)
    (hbegin : (w.locals i).pc ≠ .begin) {what : String} {row : Option Row}
    (hrow : w.rows c.spec.moduleName = row) :
    Effect c w i (afterRacedRead c w i what row) := by
  cases row with
  | none => exact .quiet hpc (.inr rfl)
  | some row =>
      simp only [afterRacedRead]
      split
      · exact .quiet hpc (.inr rfl)
      · split
        · exact .quiet hpc (.inr rfl)
        next hstatus hhash =>
          obtain ⟨hash, status⟩ := row
          simp only [ne_eq, not_not] at hstatus hhash
          subst hstatus hhash
          exact .skip hpc hbegin hrow

/-- A read that succeeds gives the row. -/
theorem tryReadBootstrapState_state {name : String} {answer : Answer} {row : Option Row}
    (h : tryReadBootstrapState w name answer = some (.state row)) : w.rows name = row := by
  cases answer with
  | ok =>
      simp only [tryReadBootstrapState] at h
      split at h <;> cases h
      rfl
  | failed what =>
      simp only [tryReadBootstrapState, Option.some.injEq] at h
      split at h <;> cases h

theorem callStep_effect {answer : Answer} (hs : callStep c w i answer = some w') :
    Effect c w i w' := by
  cases hpc : (w.locals i).pc with
  | begin =>
      have hreading : (w.locals i).pc.reading = true := by rw [hpc]; rfl
      simp only [callStep, hpc] at hs
      split at hs
      · cases hs
        exact .quiet hreading (.inr rfl)
      · split at hs
        · cases hs
          exact .quiet hreading (.inr rfl)
        · split at hs
          · cases hs
            exact .quiet hreading (.inr rfl)
          · cases hs
            exact .quiet hreading (.inr rfl)
          next hhash =>
            cases hs
            exact .start hpc hhash
  | read =>
      have hreading : (w.locals i).pc.reading = true := by rw [hpc]; rfl
      have hbegin : (w.locals i).pc ≠ .begin := by simp [hpc]
      simp only [callStep, hpc] at hs
      obtain ⟨r, hr, rfl⟩ := Option.map_eq_some_iff.mp hs
      cases r with
      | threw what => exact .quiet hreading (.inr rfl)
      | missingTable => exact .quiet hreading (.inl ⟨rfl, hbegin⟩)
      | state row => exact afterRead_effect hreading hbegin (tryReadBootstrapState_state hr)
  | create =>
      have hreading : (w.locals i).pc.reading = true := by rw [hpc]; rfl
      have hbegin : (w.locals i).pc ≠ .begin := by simp [hpc]
      simp only [callStep, hpc] at hs
      cases answer with
      | ok =>
          simp only at hs
          split at hs
          · cases hs
          · cases hs
            exact .quiet hreading (.inl ⟨rfl, hbegin⟩)
      | failed what =>
          simp only [Option.some.injEq] at hs
          subst hs
          split
          · exact .quiet hreading (.inl ⟨rfl, hbegin⟩)
          · exact .quiet hreading (.inr rfl)
  | reread =>
      have hreading : (w.locals i).pc.reading = true := by rw [hpc]; rfl
      have hbegin : (w.locals i).pc ≠ .begin := by simp [hpc]
      simp only [callStep, hpc] at hs
      obtain ⟨r, hr, rfl⟩ := Option.map_eq_some_iff.mp hs
      cases r with
      | threw what => exact .quiet hreading (.inr rfl)
      | missingTable => exact .quiet hreading (.inr rfl)
      | state row => exact afterRead_effect hreading hbegin (tryReadBootstrapState_state hr)
  | insert =>
      have hreading : (w.locals i).pc.reading = true := by rw [hpc]; rfl
      have hbegin : (w.locals i).pc ≠ .begin := by simp [hpc]
      simp only [callStep, hpc] at hs
      cases answer with
      | ok =>
          simp only at hs
          split at hs
          next hfree =>
            cases hs
            exact .insert hpc hfree.2
          · cases hs
      | failed what =>
          simp only [Option.some.injEq] at hs
          subst hs
          split
          · exact .quiet hreading (.inl ⟨rfl, hbegin⟩)
          · exact .quiet hreading (.inr rfl)
  | racedRead what =>
      have hreading : (w.locals i).pc.reading = true := by rw [hpc]; rfl
      have hbegin : (w.locals i).pc ≠ .begin := by simp [hpc]
      simp only [callStep, hpc] at hs
      obtain ⟨r, hr, rfl⟩ := Option.map_eq_some_iff.mp hs
      cases r with
      | threw what' => exact .quiet hreading (.inr rfl)
      | missingTable => exact .quiet hreading (.inr rfl)
      | state row => exact afterRacedRead_effect hreading hbegin (tryReadBootstrapState_state hr)
  | script k =>
      simp only [callStep, hpc] at hs
      cases hk : c.spec.tableScripts[k]? with
      | some tableScript =>
          simp only [hk] at hs
          cases answer with
          | ok =>
              cases hs
              exact .script hpc hk
          | failed what =>
              cases hs
              exact .scriptFailed hpc (.inr ⟨tableScript, rfl⟩)
      | none =>
          simp only [hk] at hs
          cases answer with
          | ok =>
              cases hs
              exact .complete hpc hk
          | failed what =>
              cases hs
              exact .scriptFailed hpc (.inl rfl)
  | fail what =>
      simp only [callStep, hpc] at hs
      cases answer with
      | ok =>
          cases hs
          exact .failed hpc
      | failed _ =>
          cases hs
          exact .dies (by rw [hpc]; rfl) rfl
  | returned ok | threw what | crashed => simp [callStep, hpc] at hs

theorem step_effect {calls : Nat → Call} {a : Act} (hs : step calls w a = some w') :
    ∃ i, Effect (calls i) w i w' := by
  cases a with
  | statement i answer => exact ⟨i, callStep_effect hs⟩
  | crash i =>
      simp only [step] at hs
      split at hs
      · cases hs
      next hfin =>
        cases hs
        exact ⟨i, .dies (by simpa using hfin) rfl⟩

/-! ## The invariant -/

end

/-- What the row of a module says about its owner `j`. -/
def OwnerAt (c : Call) (w : World) (j : Nat) : Pc → Prop
  | .script k =>
      w.rows c.spec.moduleName = some ⟨(w.locals j).manifestHash, .inProgress⟩ ∧
        w.doneBy j = c.spec.tableScripts.take k
  | .returned ok =>
      w.rows c.spec.moduleName = some ⟨(w.locals j).manifestHash, .completed⟩ ∧
        w.doneBy j = c.spec.tableScripts ∧ ok = true
  | .fail _ | .threw _ | .crashed =>
      ∃ row, w.rows c.spec.moduleName = some row ∧ row.status ≠ .completed
  | _ => False

/-- Only the owner of a module works for it. -/
structure BootInv (calls : Nat → Call) (w : World) : Prop where
  owned : ∀ name, w.owner name = none → w.rows name = none
  name_owner : ∀ name j, w.owner name = some j → (calls j).spec.moduleName = name
  owner_at : ∀ j, w.owner (calls j).spec.moduleName = some j →
    OwnerAt (calls j) w j (w.locals j).pc
  /-- A call at work is the owner. -/
  working : ∀ i, (w.locals i).pc.finished = false → (w.locals i).pc.reading = false →
    w.owner (calls i).spec.moduleName = some i
  ran_owner : ∀ i t, (i, t) ∈ w.ran → w.owner (calls i).spec.moduleName = some i
  done_ran : w.done ⊆ w.ran
  hashed : ∀ i, (w.locals i).pc.dead = false → (w.locals i).pc ≠ .begin →
    computeManifestHash (calls i) = .ok (w.locals i).manifestHash
  /-- A call that has returned found the row of an owner that has returned. -/
  returned : ∀ i ok, (w.locals i).pc = .returned ok →
    ∃ j, w.owner (calls i).spec.moduleName = some j ∧ (w.locals j).pc = .returned true ∧
      (w.locals j).manifestHash = (w.locals i).manifestHash ∧ (ok = true → j = i)

/-- An empty database, with or without the table. -/
theorem bootInv_start (calls : Nat → Call) (table : Bool) : BootInv calls { table := table } where
  owned := fun _ _ => rfl
  name_owner := by simp
  owner_at := by simp
  working := fun _ _ hr => by simp [Pc.reading] at hr
  ran_owner := by simp
  done_ran := by simp
  hashed := by simp
  returned := by simp

section
variable {calls : Nat → Call} {w w' : World} {i : Nat}

/-- A module with an owner has a row. -/
theorem BootInv.rows_ne_none (h : BootInv calls w) {name : String} {j : Nat}
    (ho : w.owner name = some j) : w.rows name ≠ none := by
  obtain rfl := h.name_owner name j ho
  have hat := h.owner_at j ho
  intro hnone
  cases hpc : (w.locals j).pc <;> simp [OwnerAt, hpc, hnone] at hat

/-- What is said of an owner depends on its row, its scripts and its hash. -/
theorem OwnerAt.congr {c : Call} {j : Nat} {pc : Pc} (h : OwnerAt c w j pc)
    (hrows : w'.rows c.spec.moduleName = w.rows c.spec.moduleName)
    (hdone : w'.doneBy j = w.doneBy j) (hlocal : w'.locals j = w.locals j) :
    OwnerAt c w' j pc := by
  unfold OwnerAt at h ⊢
  rw [hrows, hdone, hlocal]
  exact h

/-- A call moves that is not over, and nobody becomes an owner. -/
theorem BootInv.move (h : BootInv calls w) (hfin : (w.locals i).pc.finished = false)
    (howner : w'.owner = w.owner) (hlocals : ∀ j, j ≠ i → w'.locals j = w.locals j)
    (hrows : ∀ name, (w.owner name = some i → name ≠ (calls i).spec.moduleName) →
      w'.rows name = w.rows name)
    (hdone : ∀ j, j ≠ i → w'.doneBy j = w.doneBy j)
    (hran : ∀ j t, (j, t) ∈ w'.ran → (j, t) ∈ w.ran ∨
      j = i ∧ w.owner (calls i).spec.moduleName = some i)
    (hsub : w'.done ⊆ w'.ran)
    (hat : w.owner (calls i).spec.moduleName = some i → OwnerAt (calls i) w' i (w'.locals i).pc)
    (hwork : (w'.locals i).pc.finished = false → (w'.locals i).pc.reading = false →
      w.owner (calls i).spec.moduleName = some i)
    (hhash : (w'.locals i).pc.dead = false → (w'.locals i).pc ≠ .begin →
      computeManifestHash (calls i) = .ok (w'.locals i).manifestHash)
    (hret : ∀ ok, (w'.locals i).pc = .returned ok →
      ∃ j, w.owner (calls i).spec.moduleName = some j ∧ (w'.locals j).pc = .returned true ∧
        (w'.locals j).manifestHash = (w'.locals i).manifestHash ∧ (ok = true → j = i)) :
    BootInv calls w' where
  owned := fun name hn => by
    rw [howner] at hn
    rw [hrows name (by simp [hn])]
    exact h.owned name hn
  name_owner := by simpa [howner] using h.name_owner
  owner_at := fun j hj => by
    rw [howner] at hj
    by_cases hji : j = i
    · subst hji
      exact hat hj
    · rw [hlocals j hji]
      refine (h.owner_at j hj).congr (hrows _ fun hi => ?_) (hdone j hji) (hlocals j hji)
      rw [hj] at hi
      exact absurd (Option.some.inj hi) hji
  working := fun j hf hr => by
    rw [howner]
    by_cases hji : j = i
    · subst hji
      exact hwork hf hr
    · rw [hlocals j hji] at hf hr
      exact h.working j hf hr
  ran_owner := fun j t hj => by
    rw [howner]
    rcases hran j t hj with hold | ⟨rfl, hi⟩
    · exact h.ran_owner j t hold
    · exact hi
  done_ran := hsub
  hashed := fun j hd hb => by
    by_cases hji : j = i
    · subst hji
      exact hhash hd hb
    · rw [hlocals j hji] at hd hb ⊢
      exact h.hashed j hd hb
  returned := fun j ok hj => by
    rw [howner]
    by_cases hji : j = i
    · subst hji
      exact hret ok hj
    · rw [hlocals j hji] at hj ⊢
      obtain ⟨o, ho, hpc, hrest⟩ := h.returned j ok hj
      -- The owner has returned, so it is not the call that moves.
      have hoi : o ≠ i := fun hoi => by
        subst hoi
        simp [hpc, Pc.finished] at hfin
      refine ⟨o, ho, ?_⟩
      rw [hlocals o hoi]
      exact ⟨hpc, hrest⟩

/-- A call that reads is not an owner. -/
theorem BootInv.not_owner (h : BootInv calls w) (hpc : (w.locals i).pc.reading = true) :
    w.owner (calls i).spec.moduleName ≠ some i := by
  intro ho
  have hat := h.owner_at i ho
  cases hp : (w.locals i).pc <;> simp [OwnerAt, hp, Pc.reading] at hat hpc

theorem Pc.finished_of_reading {pc : Pc} (h : pc.reading = true) : pc.finished = false := by
  cases pc <;> simp [Pc.reading] at h <;> rfl

/-- A call that reads moves, and the table changes in nothing. -/
theorem BootInv.readingMove (h : BootInv calls w) (hpc : (w.locals i).pc.reading = true) {l : Local}
    {table : Bool} (hnew : l.pc.reading = true ∨ l.pc.dead = true)
    (hhash : l.pc.dead = false → l.pc ≠ .begin →
      computeManifestHash (calls i) = .ok l.manifestHash) :
    BootInv calls { w with table := table, locals := Function.update w.locals i l } := by
  refine h.move (Pc.finished_of_reading hpc) rfl (fun j hj => Function.update_of_ne hj ..)
    (fun _ _ => rfl) (fun _ _ => rfl) (fun j t hj => .inl hj) h.done_ran ?_ ?_ ?_ ?_
  · exact fun ho => absurd ho (h.not_owner hpc)
  · simp only [Function.update_self]
    intro hf hr
    rcases hnew with hn | hn
    · simp [hn] at hr
    · cases hp : l.pc <;> simp [hp, Pc.dead, Pc.finished] at hn hf
  · simpa only [Function.update_self] using hhash
  · simp only [Function.update_self]
    intro ok hok
    simp [hok, Pc.reading, Pc.dead] at hnew

/-- Behind a completed row is an owner that has returned. -/
theorem BootInv.exists_owner_of_completed (h : BootInv calls w) {name hash : String}
    (hrow : w.rows name = some ⟨hash, .completed⟩) :
    ∃ j, w.owner name = some j ∧ (w.locals j).pc = .returned true ∧
      (w.locals j).manifestHash = hash := by
  cases ho : w.owner name with
  | none => simp [h.owned name ho] at hrow
  | some j =>
      obtain rfl := h.name_owner name j ho
      have hat := h.owner_at j ho
      refine ⟨j, rfl, ?_⟩
      cases hpc : (w.locals j).pc with
      | returned ok =>
          simp only [hpc, OwnerAt, hrow, Option.some.injEq, Row.mk.injEq, and_true] at hat
          simp [hat.1, hat.2.2]
      | _ => simp [hpc, OwnerAt, hrow] at hat

theorem BootInv.skip (h : BootInv calls w) (hpc : (w.locals i).pc.reading = true)
    (hbegin : (w.locals i).pc ≠ .begin)
    (hrow : w.rows (calls i).spec.moduleName = some ⟨(w.locals i).manifestHash, .completed⟩) :
    BootInv calls (w.goto i (.returned false)) := by
  have hdead : (w.locals i).pc.dead = false := by
    cases hp : (w.locals i).pc <;> simp [hp, Pc.reading] at hpc <;> rfl
  have hhash := h.hashed i hdead hbegin
  obtain ⟨j, ho, hj, hsame⟩ := h.exists_owner_of_completed hrow
  have hji : j ≠ i := fun hji => by
    subst hji
    simp [hj, Pc.reading] at hpc
  refine h.move (Pc.finished_of_reading hpc) rfl (fun j hj => Function.update_of_ne hj ..)
    (fun _ _ => rfl) (fun _ _ => rfl) (fun j t hj => .inl hj) h.done_ran ?_ ?_ ?_ ?_
  · exact fun ho => absurd ho (h.not_owner hpc)
  · simp [World.goto, Pc.finished]
  · exact fun _ _ => by simpa [World.goto] using hhash
  · intro ok hok
    have hok' : false = ok := by simpa [World.goto] using hok
    subst hok'
    refine ⟨j, ho, ?_, ?_, by simp⟩
    · simp [World.goto, hji, hj]
    · simp [World.goto, hji, hsame]

/-- The entries of the other calls in a list that grows by one of `i`. -/
theorem filter_append_of_ne {l : List (Nat × String)} {t : String} {j : Nat} (h : j ≠ i) :
    ((l ++ [(i, t)]).filter fun e => e.1 = j) = l.filter fun e => e.1 = j := by
  simp [List.filter_append, h.symm]

theorem BootInv.script (h : BootInv calls w) {k : Nat} {t : String}
    (hpc : (w.locals i).pc = .script k) (hk : (calls i).spec.tableScripts[k]? = some t) :
    BootInv calls { w.goto i (.script (k + 1)) with
      ran := w.ran ++ [(i, t)], done := w.done ++ [(i, t)] } := by
  have ho : w.owner (calls i).spec.moduleName = some i :=
    h.working i (by simp [hpc, Pc.finished]) (by simp [hpc, Pc.reading])
  have hhash := h.hashed i (by simp [hpc, Pc.dead]) (by simp [hpc])
  refine h.move (by simp [hpc, Pc.finished]) rfl (fun j hj => Function.update_of_ne hj ..)
    (fun _ _ => rfl) (fun j hj => ?_) (fun j u hj => ?_) ?_ ?_ (fun _ _ => ho) ?_ ?_
  · simp only [World.doneBy, filter_append_of_ne hj]
  · rcases List.mem_append.mp hj with hold | hnew
    · exact .inl hold
    · simp only [List.mem_singleton, Prod.mk.injEq] at hnew
      exact .inr ⟨hnew.1, ho⟩
  · intro e he
    rcases List.mem_append.mp he with hold | hnew
    · exact List.mem_append_left _ (h.done_ran hold)
    · exact List.mem_append_right _ hnew
  · intro _
    have hat := h.owner_at i ho
    simp only [hpc, OwnerAt] at hat
    simp only [World.goto, Function.update_self, OwnerAt]
    refine ⟨hat.1, ?_⟩
    rw [List.take_add_one, hk, ← hat.2]
    simp [World.doneBy, List.filter_append]
  · exact fun _ _ => by simpa [World.goto] using hhash
  · simp [World.goto]

theorem BootInv.scriptFailed (h : BootInv calls w) {k : Nat} {what : String}
    {ran : List (Nat × String)} (hpc : (w.locals i).pc = .script k)
    (hran : ran = w.ran ∨ ∃ t, ran = w.ran ++ [(i, t)]) :
    BootInv calls { w.goto i (.fail what) with ran := ran } := by
  have ho : w.owner (calls i).spec.moduleName = some i :=
    h.working i (by simp [hpc, Pc.finished]) (by simp [hpc, Pc.reading])
  have hhash := h.hashed i (by simp [hpc, Pc.dead]) (by simp [hpc])
  have hsub : w.ran ⊆ ran := by
    rcases hran with rfl | ⟨t, rfl⟩
    · exact fun _ he => he
    · exact fun _ he => List.mem_append_left _ he
  refine h.move (by simp [hpc, Pc.finished]) rfl (fun j hj => Function.update_of_ne hj ..)
    (fun _ _ => rfl) (fun _ _ => rfl) (fun j u hj => ?_) (fun _ he => hsub (h.done_ran he)) ?_
    (fun _ _ => ho) ?_ ?_
  · rcases hran with rfl | ⟨t, rfl⟩
    · exact .inl hj
    · rcases List.mem_append.mp hj with hold | hnew
      · exact .inl hold
      · simp only [List.mem_singleton, Prod.mk.injEq] at hnew
        exact .inr ⟨hnew.1, ho⟩
  · intro _
    have hat := h.owner_at i ho
    simp only [hpc, OwnerAt] at hat
    simp only [World.goto, Function.update_self, OwnerAt]
    exact ⟨_, hat.1, by simp⟩
  · exact fun _ _ => by simpa [World.goto] using hhash
  · simp [World.goto]

/-- The owner updates its row. -/
theorem BootInv.update (h : BootInv calls w) {pc : Pc} {status : Status}
    (hfin : (w.locals i).pc.finished = false)
    (ho : w.owner (calls i).spec.moduleName = some i)
    (hat : OwnerAt (calls i) (updateBootstrapState (calls i) (w.goto i pc) i status) i pc)
    (hret : ∀ ok, pc = .returned ok → ok = true)
    (hhash : computeManifestHash (calls i) = .ok (w.locals i).manifestHash) :
    BootInv calls (updateBootstrapState (calls i) (w.goto i pc) i status) := by
  refine h.move hfin rfl (fun j hj => Function.update_of_ne hj ..) (fun name hn => ?_)
    (fun _ _ => rfl) (fun _ _ hj => .inl hj) h.done_ran ?_ (fun _ _ => ho) ?_ ?_
  · have hne : name ≠ (calls i).spec.moduleName := fun he => hn (by rw [he, ho]) he
    simp [updateBootstrapState, hne, World.goto]
  · intro _
    have hself : ((updateBootstrapState (calls i) (w.goto i pc) i status).locals i).pc = pc := by
      simp [updateBootstrapState, World.goto]
    rw [hself]
    exact hat
  · exact fun _ _ => by simpa [updateBootstrapState, World.goto] using hhash
  · intro ok hok
    have hpc : pc = .returned ok := by simpa [updateBootstrapState, World.goto] using hok
    exact ⟨i, ho, by rw [hok, hret ok hpc], rfl, fun _ => rfl⟩

theorem BootInv.complete (h : BootInv calls w) {k : Nat} (hpc : (w.locals i).pc = .script k)
    (hk : (calls i).spec.tableScripts[k]? = none) :
    BootInv calls (updateBootstrapState (calls i) (w.goto i (.returned true)) i .completed) := by
  have ho : w.owner (calls i).spec.moduleName = some i :=
    h.working i (by simp [hpc, Pc.finished]) (by simp [hpc, Pc.reading])
  have hat := h.owner_at i ho
  simp only [hpc, OwnerAt, List.take_of_length_le (List.getElem?_eq_none_iff.mp hk)] at hat
  refine h.update (by simp [hpc, Pc.finished]) ho ?_ (by simp)
    (h.hashed i (by simp [hpc, Pc.dead]) (by simp [hpc]))
  refine ⟨?_, hat.2, rfl⟩
  simp [updateBootstrapState, World.goto, hat.1]

theorem BootInv.failed (h : BootInv calls w) {what : String}
    (hpc : (w.locals i).pc = .fail what) :
    BootInv calls (updateBootstrapState (calls i) (w.goto i (.threw what)) i .failed) := by
  have ho : w.owner (calls i).spec.moduleName = some i :=
    h.working i (by simp [hpc, Pc.finished]) (by simp [hpc, Pc.reading])
  have hat := h.owner_at i ho
  simp only [hpc, OwnerAt] at hat
  obtain ⟨row, hrow, -⟩ := hat
  refine h.update (by simp [hpc, Pc.finished]) ho ?_ (by simp)
    (h.hashed i (by simp [hpc, Pc.dead]) (by simp [hpc]))
  exact ⟨⟨(w.locals i).manifestHash, .failed⟩, by simp [updateBootstrapState, World.goto, hrow],
    by simp⟩

/-- An owner that dies before the end leaves a row that is not completed. -/
theorem BootInv.dies (h : BootInv calls w) {pc : Pc} (hpc : (w.locals i).pc.finished = false)
    (hnew : pc.dead = true) : BootInv calls (w.goto i pc) := by
  refine h.move hpc rfl (fun j hj => Function.update_of_ne hj ..)
    (fun _ _ => rfl) (fun _ _ => rfl) (fun j t hj => .inl hj) h.done_ran ?_ ?_ ?_ ?_
  · intro ho
    have hat := h.owner_at i ho
    have hrow : ∃ row, w.rows (calls i).spec.moduleName = some row ∧ row.status ≠ .completed := by
      cases hp : (w.locals i).pc with
      | script k =>
          simp only [hp, OwnerAt] at hat
          exact ⟨_, hat.1, by simp⟩
      | fail what => simpa only [hp, OwnerAt] using hat
      | returned ok | threw what | crashed => simp [hp, Pc.finished] at hpc
      | _ => simp [hp, OwnerAt] at hat
    cases pc with
    | threw what | crashed => simpa [World.goto, OwnerAt] using hrow
    | _ => cases hnew
  · intro hf
    cases pc <;> simp [World.goto, Pc.finished, Pc.dead] at hf hnew
  · simp [World.goto, hnew]
  · intro ok hok
    have hok' : pc = .returned ok := by simpa [World.goto] using hok
    simp [hok', Pc.dead] at hnew

theorem BootInv.insert (h : BootInv calls w) (hpc : (w.locals i).pc = .insert)
    (hrow : w.rows (calls i).spec.moduleName = none) :
    BootInv calls { w.goto i (.script 0) with
      rows := Function.update w.rows (calls i).spec.moduleName
        (some ⟨(w.locals i).manifestHash, .inProgress⟩)
      owner := Function.update w.owner (calls i).spec.moduleName (some i) } := by
  have hnone : w.owner (calls i).spec.moduleName = none := by
    cases ho : w.owner (calls i).spec.moduleName with
    | none => rfl
    | some j => exact absurd hrow (h.rows_ne_none ho)
  have hhash := h.hashed i (by simp [hpc, Pc.dead]) (by simp [hpc])
  -- A module with an owner is another one.
  have hother : ∀ name j, w.owner name = some j → name ≠ (calls i).spec.moduleName :=
    fun name j ho he => by simp [he, hnone] at ho
  exact {
    owned := fun name hn => by
      by_cases hname : name = (calls i).spec.moduleName
      · simp [hname] at hn
      · simp only [Function.update_of_ne hname] at hn ⊢
        exact h.owned name hn
    name_owner := fun name j hj => by
      by_cases hname : name = (calls i).spec.moduleName
      · subst hname
        obtain rfl : i = j := by simpa using hj
        rfl
      · simp only [Function.update_of_ne hname] at hj
        exact h.name_owner name j hj
    owner_at := fun j hj => by
      by_cases hname : (calls j).spec.moduleName = (calls i).spec.moduleName
      · obtain rfl : i = j := by simpa [hname] using hj
        have hempty : w.doneBy i = [] := by
          simp only [World.doneBy, List.map_eq_nil_iff, List.filter_eq_nil_iff, decide_eq_true_eq]
          rintro ⟨j, t⟩ he rfl
          have := h.ran_owner j t (h.done_ran he)
          simp [hnone] at this
        simp only [World.goto, Function.update_self, OwnerAt]
        exact ⟨trivial, hempty⟩
      · simp only [Function.update_of_ne hname] at hj
        have hji : j ≠ i := fun hji => hname (by rw [hji])
        have hsame := Function.update_of_ne hji { w.locals i with pc := .script 0 } w.locals
        simp only [World.goto, hsame]
        exact (h.owner_at j hj).congr (Function.update_of_ne hname ..) rfl hsame
    working := fun j hf hr => by
      by_cases hji : j = i
      · subst hji
        simp
      · simp only [World.goto, Function.update_of_ne hji] at hf hr
        have ho := h.working j hf hr
        simpa [hother _ _ ho] using ho
    ran_owner := fun j t hj => by
      have ho := h.ran_owner j t hj
      simpa [hother _ _ ho] using ho
    done_ran := h.done_ran
    hashed := fun j hd hb => by
      by_cases hji : j = i
      · subst hji
        simpa [World.goto] using hhash
      · simp only [World.goto, Function.update_of_ne hji] at hd hb ⊢
        exact h.hashed j hd hb
    returned := fun j ok hj => by
      have hji : j ≠ i := fun hji => by
        subst hji
        simp [World.goto] at hj
      simp only [World.goto, Function.update_of_ne hji] at hj ⊢
      obtain ⟨o, ho, hopc, hrest⟩ := h.returned j ok hj
      have hoi : o ≠ i := fun hoi => by
        subst hoi
        simp [hpc] at hopc
      refine ⟨o, by simpa [hother _ _ ho] using ho, ?_⟩
      rw [Function.update_of_ne hoi]
      exact ⟨hopc, hrest⟩ }

theorem BootInv.effect (h : BootInv calls w) (he : Effect (calls i) w i w') : BootInv calls w' := by
  cases he with
  | start hpc hhash =>
      exact h.readingMove (by rw [hpc]; rfl) (.inl rfl) fun _ _ => hhash
  | quiet hpc hnew =>
      refine h.readingMove hpc (hnew.imp_left And.left) fun hd _ => ?_
      have hbegin := (hnew.resolve_right (by simp [hd])).2
      refine h.hashed i ?_ hbegin
      cases hp : (w.locals i).pc <;> simp [hp, Pc.reading] at hpc <;> rfl
  | skip hpc hbegin hrow => exact h.skip hpc hbegin hrow
  | insert hpc hrow => exact h.insert hpc hrow
  | script hpc hk => exact h.script hpc hk
  | scriptFailed hpc hran => exact h.scriptFailed hpc hran
  | complete hpc hk => exact h.complete hpc hk
  | failed hpc => exact h.failed hpc
  | dies hpc hnew => exact h.dies hpc hnew

theorem BootInv.step {a : Act} (h : BootInv calls w) (hs : Bootstrap.step calls w a = some w') :
    BootInv calls w' := by
  obtain ⟨i, he⟩ := step_effect hs
  exact h.effect he

/-! ## After the owner has died -/

theorem Effect.unfinished {c : Call} (he : Effect c w i w') : (w.locals i).pc.finished = false := by
  cases he with
  | quiet hpc | skip hpc => exact Pc.finished_of_reading hpc
  | dies hpc => exact hpc
  | start hpc | insert hpc | script hpc | scriptFailed hpc | complete hpc | failed hpc =>
      rw [hpc]
      rfl

theorem Effect.locals_of_ne {c : Call} (he : Effect c w i w') {j : Nat} (hj : j ≠ i) :
    w'.locals j = w.locals j := by
  cases he <;> exact Function.update_of_ne hj ..

/-- A module keeps its owner. -/
theorem Effect.owner_eq {c : Call} (h : BootInv calls w) (he : Effect c w i w') {name : String}
    {j : Nat} (ho : w.owner name = some j) : w'.owner name = some j := by
  cases he with
  | insert hpc hrow =>
      have hname : name ≠ c.spec.moduleName := fun hn => h.rows_ne_none ho (by rw [hn, hrow])
      simpa [hname] using ho
  | _ => exact ho

/-- The call that inserted the row of its module has failed or was interrupted. -/
def Abandoned (calls : Nat → Call) (w : World) (j : Nat) : Prop :=
  w.owner (calls j).spec.moduleName = some j ∧ (w.locals j).pc.dead = true

theorem Abandoned.step {j : Nat} {a : Act} (h : BootInv calls w) (hj : Abandoned calls w j)
    (hs : Bootstrap.step calls w a = some w') : Abandoned calls w' j := by
  obtain ⟨i, he⟩ := step_effect hs
  have hne : j ≠ i := fun hji => by
    subst hji
    have hdead := hj.2
    have hfin := he.unfinished
    cases hp : (w.locals j).pc <;> simp [hp, Pc.dead, Pc.finished] at hdead hfin
  refine ⟨he.owner_eq h hj.1, ?_⟩
  rw [he.locals_of_ne hne]
  exact hj.2

/-- The row of an abandoned module is not completed. -/
theorem Abandoned.exists_row {j : Nat} (h : BootInv calls w) (hj : Abandoned calls w j) :
    ∃ row, w.rows (calls j).spec.moduleName = some row ∧ row.status ≠ .completed := by
  have hat := h.owner_at j hj.1
  have hdead := hj.2
  cases hp : (w.locals j).pc with
  | threw what | crashed => simpa [hp, OwnerAt] using hat
  | _ => simp [hp, Pc.dead] at hdead

/-- How many statements a call has before it that cannot insert the row.  A call that has
come further is not counted. -/
def Pc.left : Pc → Option Nat
  | .begin => some 4
  | .read => some 3
  | .create => some 2
  | .reread => some 1
  | .threw _ | .crashed => some 0
  | _ => none

/-- The step is a statement of the call `i`. -/
def Act.isStatement (i : Nat) : Act → Bool
  | .statement j _ => j = i
  | .crash _ => false

theorem afterRead_left {c : Call} {row : Row} (hrow : row.status ≠ .completed) :
    ((afterRead c w i (some row)).locals i).pc.left = some 0 := by
  simp [afterRead, hrow, World.goto, Pc.left]

/-- A statement of a call that finds the row takes it nearer to its exception. -/
theorem callStep_left {c : Call} {row : Row} (hrow : w.rows c.spec.moduleName = some row)
    (hstatus : row.status ≠ .completed) {n : Nat} (hn : (w.locals i).pc.left = some n)
    {answer : Answer} (hs : callStep c w i answer = some w') :
    ∃ m, (w'.locals i).pc.left = some m ∧ m < n := by
  cases hpc : (w.locals i).pc with
  | begin =>
      obtain rfl : 4 = n := by simpa [hpc, Pc.left] using hn
      simp only [callStep, hpc] at hs
      split at hs
      · cases hs
        exact ⟨0, by simp [World.goto, Pc.left], by omega⟩
      · split at hs
        · cases hs
          exact ⟨0, by simp [World.goto, Pc.left], by omega⟩
        · split at hs
          · cases hs
            exact ⟨0, by simp [World.goto, Pc.left], by omega⟩
          · cases hs
            exact ⟨0, by simp [World.goto, Pc.left], by omega⟩
          · cases hs
            exact ⟨3, by simp [Pc.left], by omega⟩
  | read =>
      obtain rfl : 3 = n := by simpa [hpc, Pc.left] using hn
      simp only [callStep, hpc] at hs
      obtain ⟨r, hr, rfl⟩ := Option.map_eq_some_iff.mp hs
      cases r with
      | threw what => exact ⟨0, by simp [World.goto, Pc.left], by omega⟩
      | missingTable => exact ⟨2, by simp [World.goto, Pc.left], by omega⟩
      | state row' =>
          obtain rfl := tryReadBootstrapState_state hr
          simp only [hrow]
          exact ⟨0, afterRead_left hstatus, by omega⟩
  | create =>
      obtain rfl : 2 = n := by simpa [hpc, Pc.left] using hn
      simp only [callStep, hpc] at hs
      cases answer with
      | ok =>
          simp only at hs
          split at hs
          · cases hs
          · cases hs
            exact ⟨1, by simp [World.goto, Pc.left], by omega⟩
      | failed what =>
          simp only [Option.some.injEq] at hs
          subst hs
          split
          · exact ⟨1, by simp [World.goto, Pc.left], by omega⟩
          · exact ⟨0, by simp [World.goto, Pc.left], by omega⟩
  | reread =>
      obtain rfl : 1 = n := by simpa [hpc, Pc.left] using hn
      simp only [callStep, hpc] at hs
      obtain ⟨r, hr, rfl⟩ := Option.map_eq_some_iff.mp hs
      cases r with
      | threw what => exact ⟨0, by simp [World.goto, Pc.left], by omega⟩
      | missingTable => exact ⟨0, by simp [World.goto, Pc.left], by omega⟩
      | state row' =>
          obtain rfl := tryReadBootstrapState_state hr
          simp only [hrow]
          exact ⟨0, afterRead_left hstatus, by omega⟩
  | threw what | crashed => simp [callStep, hpc] at hs
  | _ => simp [hpc, Pc.left] at hn

theorem step_left {row : Row} (hrow : w.rows (calls i).spec.moduleName = some row)
    (hstatus : row.status ≠ .completed) {n : Nat} (hn : (w.locals i).pc.left = some n) {a : Act}
    (hs : Bootstrap.step calls w a = some w') :
    ∃ m, (w'.locals i).pc.left = some m ∧ m + (if a.isStatement i then 1 else 0) ≤ n := by
  cases a with
  | statement j answer =>
      by_cases hji : j = i
      · subst hji
        obtain ⟨m, hm, hlt⟩ := callStep_left hrow hstatus hn hs
        exact ⟨m, hm, by simpa [Act.isStatement] using hlt⟩
      · have hsame := (callStep_effect hs).locals_of_ne (Ne.symm hji)
        exact ⟨n, by rw [hsame, hn], by simp [Act.isStatement, hji]⟩
  | crash j =>
      simp only [Bootstrap.step] at hs
      split at hs
      · cases hs
      · cases hs
        by_cases hji : i = j
        · subst hji
          exact ⟨0, by simp [World.goto, Pc.left], by simp [Act.isStatement]⟩
        · exact ⟨n, by simpa [World.goto, hji] using hn, by simp [Act.isStatement]⟩

/-- A call that begins after the owner has died makes at most four statements. -/
theorem run_left {j : Nat} (h : BootInv calls w) (hj : Abandoned calls w j)
    (hname : (calls i).spec.moduleName = (calls j).spec.moduleName) {n : Nat}
    (hn : (w.locals i).pc.left = some n) {bs : List Act}
    (hrun : Machine.run (Bootstrap.step calls) w bs = some w') :
    ∃ m, (w'.locals i).pc.left = some m ∧ m + bs.countP (Act.isStatement i) ≤ n := by
  induction bs generalizing w n with
  | nil =>
      cases hrun
      exact ⟨n, hn, le_rfl⟩
  | cons a bs ih =>
      obtain ⟨u, hs, hr⟩ := Machine.run_cons_eq_some hrun
      obtain ⟨row, hrow, hstatus⟩ := hj.exists_row h
      rw [← hname] at hrow
      obtain ⟨m, hm, hle⟩ := step_left hrow hstatus hn hs
      obtain ⟨m', hm', hle'⟩ := ih (h.step hs) (hj.step h hs) hm hr
      refine ⟨m', hm', ?_⟩
      rw [List.countP_cons]
      omega

/-- A call that is not over can go on: the database may always refuse. -/
theorem isSome_step_of_left {n : Nat} (hn : (w.locals i).pc.left = some n) (hpos : 0 < n)
    (what : String) : (Bootstrap.step calls w (.statement i (.failed what))).isSome = true := by
  cases hpc : (w.locals i).pc with
  | begin =>
      simp only [Bootstrap.step, callStep, hpc]
      split
      · rfl
      · split
        · rfl
        · split <;> rfl
  | read | create | reread => simp [Bootstrap.step, callStep, hpc, tryReadBootstrapState]
  | threw _ | crashed =>
      simp only [hpc, Pc.left, Option.some.injEq] at hn
      omega
  | _ => simp [hpc, Pc.left] at hn

/-! ## Mutual exclusion -/

/-- Whatever the servers call, however their statements interleave, fail and are cut off:
at most one call executes the table scripts of a module; a call that has returned has the
completed row with its hash, and all table scripts of the bootstrap have been executed;
and once the call that inserted the row has failed or was interrupted, every later call
throws. -/
theorem bootstrap_exclusive (calls : Nat → Call) (table : Bool) {as : List Act}
    (hrun : Machine.run (Bootstrap.step calls) { table := table } as = some w) :
    (∀ i j t u, (i, t) ∈ w.ran → (j, u) ∈ w.ran →
      (calls i).spec.moduleName = (calls j).spec.moduleName → i = j) ∧
    (∀ i ok, (w.locals i).pc = .returned ok → ∃ hash j,
      computeManifestHash (calls i) = .ok hash ∧
      w.rows (calls i).spec.moduleName = some ⟨hash, .completed⟩ ∧
      (calls j).spec.moduleName = (calls i).spec.moduleName ∧
      w.doneBy j = (calls j).spec.tableScripts ∧ (ok = true → j = i)) ∧
    ∀ j, Abandoned calls w j → ∀ bs w', Machine.run (Bootstrap.step calls) w bs = some w' →
      ∀ i, (calls i).spec.moduleName = (calls j).spec.moduleName →
        (∀ ok, (w'.locals i).pc ≠ .returned ok) ∧
        ((w.locals i).pc = .begin →
          (∃ what, (w'.locals i).pc = .threw what) ∨ (w'.locals i).pc = .crashed ∨
          bs.countP (Act.isStatement i) < 4 ∧
            ∀ what, (Bootstrap.step calls w' (.statement i (.failed what))).isSome = true) := by
  have h : BootInv calls w :=
    Machine.run_invariant (fun _ _ _ h hs => h.step hs) (bootInv_start calls table) hrun
  refine ⟨fun i j t u hi hj hname => ?_, fun i ok hi => ?_, fun j hj bs w' hbs i hname => ⟨?_, ?_⟩⟩
  · have hi' := h.ran_owner i t hi
    rw [hname, h.ran_owner j u hj] at hi'
    exact (Option.some.inj hi').symm
  · obtain ⟨j, ho, hpc, hhash, hself⟩ := h.returned i ok hi
    have hname := h.name_owner _ j ho
    have hat := h.owner_at j (by rw [hname, ho])
    simp only [hpc, OwnerAt] at hat
    refine ⟨(w.locals i).manifestHash, j, ?_, ?_, hname, hat.2.1, hself⟩
    · exact h.hashed i (by simp [hi, Pc.dead]) (by simp [hi])
    · rw [← hname, hat.1, hhash]
  · intro ok hok
    have h' : BootInv calls w' ∧ Abandoned calls w' j :=
      Machine.run_invariant (I := fun w => BootInv calls w ∧ Abandoned calls w j)
        (fun _ _ _ h hs => ⟨h.1.step hs, h.2.step h.1 hs⟩) ⟨h, hj⟩ hbs
    obtain ⟨o, ho, hpc, -⟩ := h'.1.returned i ok hok
    rw [hname, h'.2.1] at ho
    obtain rfl := Option.some.inj ho
    have hdead := h'.2.2
    simp [hpc, Pc.dead] at hdead
  · intro hbegin
    obtain ⟨m, hm, hle⟩ := run_left (n := 4) h hj hname (by rw [hbegin]; rfl) hbs
    rcases Nat.eq_zero_or_pos m with rfl | hpos
    · cases hpc : (w'.locals i).pc with
      | threw what => exact .inl ⟨what, rfl⟩
      | crashed => exact .inr (.inl rfl)
      | _ => simp [hpc, Pc.left] at hm
    · exact .inr (.inr ⟨by omega, isSome_step_of_left hm hpos⟩)

end

/-- Servers with one table script. -/
def sameCall : Nat → Call := fun _ =>
  { spec := ⟨"DBServer", ["T_PingTimeLog.sql"], ["T_PingTimeLog.sql"]⟩
    isConnected := true
    loadScript := fun _ => .ok "CREATE TABLE" }

/-- Two servers start together.  The second one loses the race for the row and returns when
the first one has finished. -/
def racedTrace : List Act :=
  [.statement 0 .ok, .statement 0 (.failed "no such table: T_ModuleBootstrapState"),
    .statement 0 .ok, .statement 0 .ok, .statement 1 .ok, .statement 1 .ok, .statement 0 .ok,
    .statement 1 (.failed "UNIQUE constraint failed: T_ModuleBootstrapState.module_name"),
    .statement 0 .ok, .statement 0 .ok, .statement 1 .ok]

theorem bootstrap_exclusive_racedTrace :
    ∃ w, Machine.run (step sameCall) { table := false } racedTrace = some w ∧
      (w.locals 1).pc = .returned false ∧
      ∃ hash j, computeManifestHash (sameCall 1) = .ok hash ∧
        w.rows "DBServer" = some ⟨hash, .completed⟩ ∧ (sameCall j).spec.moduleName = "DBServer" ∧
        w.doneBy j = (sameCall j).spec.tableScripts ∧ (false = true → j = 1) := by
  have hend : (Machine.run (step sameCall) { table := false } racedTrace).any (fun w => decide
      ((w.locals 1).pc = .returned false)) = true := by
    decide +kernel
  obtain ⟨w, hrun, hpc⟩ := (Option.any_eq_true _ _).mp hend
  replace hpc := of_decide_eq_true hpc
  exact ⟨w, hrun, hpc, (bootstrap_exclusive sameCall false hrun).2.1 1 false hpc⟩

end NetworkModule.Database.Bootstrap
