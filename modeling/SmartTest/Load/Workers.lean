import SmartTest.Load.Executor

/-!
# Workers, whatever they do between two reports

A report takes a bounded number of moves and keeps the shared state. Only the snapshot lock
makes a worker wait, and its holder can always go on: so a pool in which not every worker has
ended has a worker that can move.
-/

open SmartTest.Lib SmartTest.Run

namespace SmartTest.Load

/-! ## What the callbacks leave alone -/

section Callbacks

variable {runId : UUID} {x y : Execution}

/-- A response changes what is pending and stored, and nothing else. -/
theorem respond_step {item : LoadTestResponse} {fails : Bool} (h : x.step runId (.respond item fails) = some y) :
    y.cancelled = x.cancelled ∧ y.stage = x.stage ∧ y.checked = x.checked := by
  simp only [Execution.step] at h
  split at h
  · obtain rfl := Option.some.inj h
    unfold Execution.respond Execution.store
    dsimp only
    split
    · split
      · cases fails <;> exact ⟨rfl, rfl, rfl⟩
      · exact ⟨rfl, rfl, rfl⟩
    · exact ⟨rfl, rfl, rfl⟩
  · cases h

theorem checkSnapshot_step {metrics : Metrics} (h : x.step runId (.checkSnapshot metrics) = some y) :
    y.cancelled = x.cancelled ∧ y.stage = x.stage ∧ x.checked = none := by
  simp only [Execution.step] at h
  split at h
  · next hchecked =>
    obtain rfl := Option.some.inj h
    unfold Execution.checkSnapshot
    split <;> exact ⟨rfl, rfl, hchecked⟩
  · cases h

theorem writeSnapshot_step (h : x.step runId .writeSnapshot = some y) :
    y.cancelled = x.cancelled ∧ y.stage = x.stage ∧ y.checked = none := by
  simp only [Execution.step] at h
  split at h
  · obtain rfl := Option.some.inj h
    unfold Execution.writeSnapshot
    split <;> exact ⟨rfl, rfl, rfl⟩
  · cases h

end Callbacks

namespace Running

variable {γ κ ι : Type} {control : Control γ κ ι} {runId : UUID}

/-- The pool as `execute` starts it. -/
def launched (control : Control γ κ ι) (service : Execution) (shared : γ) (definition : LoadTestRecord)
    (workers : Nat) : Running γ κ where
  service := service
  shared := shared
  metrics := .empty definition.targetNames
  workers := some (List.replicate workers (.own control.start))
  recorded := []

/-- Where a worker that is reporting goes on. -/
def resumption : Worker κ → Option κ
  | .counting _ _ k | .responding _ k | .closing _ k | .polling k | .snapping _ k | .writing k => some k
  | .own _ | .returned | .escaped _ => none

/-- Where a worker stands, or goes on after its report. -/
def point : Worker κ → Option κ
  | .own k => some k
  | w => resumption w

/-- No exception has gone through a worker. -/
def Contained (x : Running γ κ) : Prop := ∀ e, .escaped e ∉ x.workers.getD []

/-- Every worker has returned. -/
def Finished (x : Running γ κ) : Prop := ∀ w ∈ x.workers.getD [], w = .returned

theorem Moved.placed {x y : Running γ κ} {crew : List (Worker κ)} {m : Move ι} {w : Worker κ}
    (h : Moved control runId x crew m w y) :
    ended w = false ∧ ∃ w', y.workers = some (crew.set m.worker w') := by
  cases h <;> exact ⟨rfl, _, rfl⟩

/-- A report leads back to where it was called. -/
theorem Moved.resumes {x y : Running γ κ} {crew : List (Worker κ)} {m : Move ι} {w : Worker κ}
    (h : Moved control runId x crew m w y) (hw : ∀ k, w ≠ .own k) (hy : Contained y)
    (hi : m.worker < crew.length) :
    ∃ w', y.workers = some (crew.set m.worker w') ∧ point w' = point w ∧ w' ≠ .returned := by
  have hplaced : ∀ w', y.workers = some (crew.set m.worker w') → ∀ e, w' ≠ .escaped e := by
    rintro w' hworkers e rfl
    apply hy e
    rw [hworkers, Option.getD_some]
    exact List.mem_of_getElem? (List.getElem?_set_self hi)
  cases h with
  | own h => exact absurd rfl (hw _)
  | count target answer k metrics h => exact ⟨_, rfl, rfl, by simp⟩
  | respond item k service h =>
    refine ⟨_, rfl, ?_⟩
    have hkept := hplaced _ rfl .exception
    split at hkept
    · exact absurd rfl hkept
    · next hraises => simp [hraises, point, resumption]
  | close success k => exact ⟨_, rfl, rfl, by simp⟩
  | poll k =>
    refine ⟨_, rfl, ?_⟩
    split <;> simp [point, resumption]
  | snap metrics k service h =>
    refine ⟨_, rfl, ?_⟩
    split <;> simp [point, resumption]
  | write k service h =>
    refine ⟨_, rfl, ?_⟩
    have hkept := hplaced _ rfl .exception
    split at hkept
    · exact absurd rfl hkept
    · next hraises => simp [hraises, point, resumption]

/-- An exception that has gone through a worker is there for good. -/
theorem Contained.of_move {x y : Running γ κ} {m : Move ι} (hy : Contained y)
    (h : x.move control runId m = some y) : Contained x := by
  obtain ⟨crew, w, hcrew, hw, hmoved⟩ := move_cases h
  obtain ⟨hopen, w', hworkers⟩ := hmoved.placed
  intro e he
  rw [hcrew, Option.getD_some] at he
  obtain ⟨j, hj⟩ := List.getElem?_of_mem he
  apply hy e
  rw [hworkers, Option.getD_some]
  apply List.mem_of_getElem? (i := j)
  rw [List.getElem?_set_ne]
  · exact hj
  · rintro rfl
    obtain rfl := Option.some.inj (hw.symm.trans hj)
    simp [ended] at hopen

/-- What moves keep as long as nothing escapes, a run keeps in which nothing has. -/
theorem Contained.run_keeps {I : Running γ κ → Prop}
    (hstep : ∀ x m y, I x → Contained y → x.move control runId m = some y → I y) {x y : Running γ κ}
    {moves : List (Move ι)} (hx : I x) (hrun : runSteps (move control runId) x moves = some y) (hy : Contained y) :
    I y := by
  have hkept : Contained y → I y :=
    runSteps_keeps (fun s m s' hs hmove hs' => hstep s m s' (hs (hs'.of_move hmove)) hs' hmove) (fun _ => hx) hrun
  exact hkept hy

theorem length_of_run {service : Execution} {shared : γ} {definition : LoadTestRecord} {workers : Nat}
    {moves : List (Move ι)} {y : Running γ κ} {crew : List (Worker κ)}
    (hrun : runSteps (move control runId) (launched control service shared definition workers) moves = some y)
    (hcrew : y.workers = some crew) : crew.length = workers := by
  have hlength : y.workers.map List.length = some workers := by
    apply runSteps_keeps (I := fun x => x.workers.map List.length = some workers) _ _ hrun
    · intro x m z hx hmove
      obtain ⟨crew, w, hcrew, -, hmoved⟩ := move_cases hmove
      obtain ⟨-, w', hworkers⟩ := hmoved.placed
      simpa [hworkers, hcrew] using hx
    · simp [launched]
  simpa [hcrew] using hlength

/-! ## Every run of the pool is finite -/

/-- How many moves a worker has before its next one of its own, and how many then, by `rank`, before it is done. -/
def distance (rank : κ → Nat) : Worker κ → Nat
  | .own k => rank k
  | .writing k => rank k + 1
  | .snapping _ k => rank k + 2
  | .polling k => rank k + 3
  | .responding _ k | .closing _ k => rank k + 4
  | .counting _ _ k => rank k + 5
  | .returned | .escaped _ => 0

/-- Each step of the control brings the worker closer to its end, or brings down what is left to claim. -/
def Descends (control : Control γ κ ι) (rank : κ → Nat) (unclaimed : γ → Nat) : Prop :=
  ∀ i cancelled shared k choice shared' next, control.step i cancelled shared k choice = some (shared', next) →
    unclaimed shared' + distance rank next.worker < unclaimed shared + rank k

/-- What is left of the run. -/
def remaining (rank : κ → Nat) (unclaimed : γ → Nat) (x : Running γ κ) : Nat :=
  unclaimed x.shared + crewSum (distance rank) (x.workers.getD [])

/-- A move outside the control brings the worker one closer to it, and keeps what is shared. -/
theorem Moved.report {x y : Running γ κ} {crew : List (Worker κ)} {m : Move ι} {w : Worker κ} (rank : κ → Nat)
    (h : Moved control runId x crew m w y) (hw : ∀ k, w ≠ .own k) :
    ∃ w', y.workers = some (crew.set m.worker w') ∧ y.shared = x.shared ∧ distance rank w' < distance rank w := by
  cases h with
  | own h => exact absurd rfl (hw _)
  | count target answer k metrics h => exact ⟨_, rfl, rfl, Nat.lt_succ_self _⟩
  | respond item k service h =>
    refine ⟨_, rfl, rfl, ?_⟩
    split <;> simp [distance]
  | close success k => exact ⟨_, rfl, rfl, Nat.lt_succ_self _⟩
  | poll k =>
    refine ⟨_, rfl, rfl, ?_⟩
    split <;> simp [distance]
  | snap metrics k service h =>
    refine ⟨_, rfl, rfl, ?_⟩
    split <;> simp [distance]
  | write k service h =>
    refine ⟨_, rfl, rfl, ?_⟩
    split <;> simp [distance]

theorem move_remaining {rank : κ → Nat} {unclaimed : γ → Nat} (hdescends : Descends control rank unclaimed)
    {x y : Running γ κ} {m : Move ι} (h : x.move control runId m = some y) :
    remaining rank unclaimed y < remaining rank unclaimed x := by
  obtain ⟨crew, w, hcrew, hw, hmoved⟩ := move_cases h
  by_cases hown : ∃ k, w = .own k
  · obtain ⟨k, rfl⟩ := hown
    cases hmoved with
    | @own _ shared next hstep =>
      have hlt := hdescends _ _ _ _ _ _ _ hstep
      have hsum := crewSum_set hw (distance rank) next.worker
      have hk : distance rank (.own k) = rank k := rfl
      simp only [remaining, put, hcrew, Option.getD_some]
      omega
  · obtain ⟨w', hworkers, hshared, hlt⟩ := hmoved.report rank (fun k hk => hown ⟨k, hk⟩)
    have hsum := crewSum_set hw (distance rank) w'
    simp only [remaining, hworkers, hshared, hcrew, Option.getD_some]
    omega

/-- A run of the pool has no more moves than there are left at its start. -/
theorem length_moves_le {rank : κ → Nat} {unclaimed : γ → Nat} (hdescends : Descends control rank unclaimed)
    {x y : Running γ κ} {moves : List (Move ι)} (h : runSteps (move control runId) x moves = some y) :
    moves.length ≤ remaining rank unclaimed x := by
  have hlength : moves.length + remaining rank unclaimed y ≤ remaining rank unclaimed x := by
    apply length_le_of_decreases _ h
    intro s m s' hmove
    exact move_remaining hdescends hmove
  omega

/-! ## The snapshot lock -/

def holdsLock : Worker κ → Nat
  | .writing _ => 1
  | _ => 0

/-- The executor is running, and the snapshot that has passed its check belongs to one worker. -/
structure Manned (x : Running γ κ) (crew : List (Worker κ)) : Prop where
  workers : x.workers = some crew
  executing : x.service.stage = .executing
  lock : crewSum holdsLock crew = if x.service.checked.isSome then 1 else 0

theorem holdsLock_worker (next : Next κ) : holdsLock next.worker = 0 := by
  cases next <;> rfl

theorem Manned.launched (control : Control γ κ ι) {service : Execution} (shared : γ) (definition : LoadTestRecord)
    (workers : Nat) (hstage : service.stage = .executing) (hchecked : service.checked = none) :
    Manned (launched control service shared definition workers) (List.replicate workers (.own control.start)) := by
  refine ⟨rfl, hstage, ?_⟩
  simp [crewSum_replicate, holdsLock, Running.launched, hchecked]

/-- A move that gives and takes the lock as the service does. -/
theorem Manned.set {x y : Running γ κ} {crew : List (Worker κ)} {i : Nat} {w w' : Worker κ} (h : Manned x crew)
    (hw : crew[i]? = some w) (hworkers : y.workers = some (crew.set i w'))
    (hstage : y.service.stage = x.service.stage)
    (hlock : holdsLock w' + (if x.service.checked.isSome then 1 else 0) =
      holdsLock w + if y.service.checked.isSome then 1 else 0) : Manned y (crew.set i w') := by
  refine ⟨hworkers, hstage.trans h.executing, ?_⟩
  have hsum := crewSum_set hw holdsLock w'
  have hbefore := h.lock
  omega

theorem Manned.step {x y : Running γ κ} {crew : List (Worker κ)} (h : Manned x crew) {m : Move ι}
    (hmove : x.move control runId m = some y) : ∃ crew', Manned y crew' := by
  obtain ⟨crew', w, hcrew, hw, hmoved⟩ := move_cases hmove
  obtain rfl := Option.some.inj (h.workers.symm.trans hcrew)
  cases hmoved with
  | @own k shared next hstep => exact ⟨_, h.set hw rfl rfl (by rw [holdsLock_worker]; rfl)⟩
  | count target answer k metrics hmetrics => exact ⟨_, h.set hw rfl rfl rfl⟩
  | respond item k service hstep =>
    obtain ⟨-, hstage, hchecked⟩ := respond_step hstep
    refine ⟨_, h.set hw rfl hstage ?_⟩
    rw [hchecked]
    split <;> rfl
  | close success k => exact ⟨_, h.set hw rfl rfl rfl⟩
  | poll k =>
    refine ⟨_, h.set hw rfl rfl ?_⟩
    cases m.due <;> rfl
  | snap metrics k service hstep =>
    obtain ⟨-, hstage, hfree⟩ := checkSnapshot_step hstep
    refine ⟨_, h.set hw rfl hstage ?_⟩
    rw [hfree]
    cases hchecked : service.checked <;> rfl
  | write k service hstep =>
    obtain ⟨-, hstage, hchecked⟩ := writeSnapshot_step hstep
    refine ⟨_, h.set hw rfl hstage ?_⟩
    have hheld : x.service.checked.isSome = true := by
      by_contra hnone
      simp only [Option.isSome_iff_ne_none, ne_eq, not_not] at hnone
      simp [Execution.step, hnone] at hstep
    rw [hchecked, hheld]
    split <;> rfl

/-- Where not every worker has ended, one of them can move, whatever it meets. -/
theorem Manned.progress {x : Running γ κ} {crew : List (Worker κ)} (h : Manned x crew)
    (htotal : ∀ k, .own k ∈ crew → ∀ i choice, (control.step i x.service.cancelled x.shared k choice).isSome)
    (hopen : ∃ w ∈ crew, ended w = false) :
    ∃ i, ∀ m : Move ι, m.worker = i → (x.move control runId m).isSome := by
  by_cases hheld : ∃ k, .writing k ∈ crew
  · obtain ⟨k, hk⟩ := hheld
    obtain ⟨i, hi⟩ := List.getElem?_of_mem hk
    refine ⟨i, ?_⟩
    rintro m rfl
    have hlock : 1 ≤ crewSum holdsLock crew := le_crewSum (f := holdsLock) hk
    rw [h.lock] at hlock
    cases hchecked : x.service.checked with
    | none => simp [hchecked] at hlock
    | some metrics => simp [move, h.workers, hi, moveAt, Execution.step, h.executing, hchecked]
  · obtain ⟨w, hw, hended⟩ := hopen
    have hfree : x.service.checked = none := by
      have hlock := h.lock
      rw [crewSum_eq_zero] at hlock
      · by_contra hchecked
        simp [Option.isSome_iff_ne_none.mpr hchecked] at hlock
      · intro v hv
        cases v with
        | writing k => exact absurd ⟨k, hv⟩ hheld
        | _ => rfl
    obtain ⟨i, hi⟩ := List.getElem?_of_mem hw
    refine ⟨i, ?_⟩
    rintro m rfl
    simp only [move, h.workers, hi, Option.bind_eq_bind, Option.bind_some]
    cases w with
    | own k =>
      obtain ⟨next, hnext⟩ := Option.isSome_iff_exists.mp (htotal k hw m.worker m.choice)
      simp [moveAt, hnext]
    | writing k => exact absurd ⟨k, hw⟩ hheld
    | returned => simp [ended] at hended
    | escaped e => simp [ended] at hended
    | responding item k => simp [moveAt, Execution.step, h.executing]
    | snapping metrics k => simp [moveAt, Execution.step, h.executing, hfree]
    | _ => rfl

theorem progress_of_run {service : Execution} (hstage : service.stage = .executing) (hchecked : service.checked = none)
    {shared : γ} {definition : LoadTestRecord} {workers : Nat} {moves : List (Move ι)} {y : Running γ κ}
    (hrun : runSteps (move control runId) (launched control service shared definition workers) moves = some y)
    (hy : Contained y)
    (htotal : ∀ k, .own k ∈ y.workers.getD [] → ∀ i choice,
      (control.step i y.service.cancelled y.shared k choice).isSome)
    (hopen : ¬ Finished y) : ∃ i, ∀ m : Move ι, m.worker = i → (y.move control runId m).isSome := by
  obtain ⟨crew, hmanned⟩ : ∃ crew, Manned y crew :=
    runSteps_keeps (I := fun x => ∃ crew, Manned x crew) (fun x m z ⟨crew, h⟩ hmove => h.step hmove)
      ⟨_, Manned.launched control shared definition workers hstage hchecked⟩ hrun
  apply hmanned.progress
  · simpa [hmanned.workers] using htotal
  · by_contra hnone
    apply hopen
    intro w hw
    rw [hmanned.workers, Option.getD_some] at hw
    cases w with
    | returned => rfl
    | escaped e => exact absurd (by simpa [hmanned.workers] using hw) (hy e)
    | _ => exact absurd ⟨_, hw, rfl⟩ hnone

end Running

end SmartTest.Load
