import SmartTest.Lib.Steps
import SmartTest.Plan.Materialize
import SmartTest.System.LocalRunner

/-!
# Waiting for a host project

The workers of `LocalRunnerService._execute_run` on one clock: a task is materialized, and with
it its deadline, before the lock of its host project is waited for.
-/

open SmartTest.Lib SmartTest.Run SmartTest.Plan

namespace SmartTest.System

/-! ## The workers -/

/-- Where the worker of a run is. -/
inductive HostPhase where
  | materialized (task : FullTaskEnvelope)
  | executing (task : FullTaskEnvelope) (entered : Instant)
  | expired (task : FullTaskEnvelope) (entered found : Instant)
  | ended

structure HostService where
  clock : Instant
  phases : Dict UUID HostPhase
  /-- The locks of `_host_locks` that are taken, and by which run. -/
  holders : Dict String UUID

inductive HostLabel where
  | tick (clock : Instant)
  | materialize (runId attemptId : UUID)
  | acquire (runId : UUID)
  | check (runId : UUID)
  | leave (runId : UUID)
  deriving DecidableEq

section Step

/- `project` gives the case-folded directory of a host source. -/
variable (uuid5 : String → UUID) (repo : TestPlanRepository) (project : RunSpecRecord → String)

/-- The lock that the run needs, if its source is a host project. -/
def lockOf (runId : UUID) : Option String :=
  match repo.getRunSpec runId with
  | .ok spec => if LocalRunnerService.hostSource spec then some (project spec) else none
  | .error _ => none

namespace HostService

def put (s : HostService) (runId : UUID) (phase : HostPhase) : HostService :=
  { s with phases := s.phases.set runId phase }

/-- A worker that is not at work begins a run; what raises ends it. -/
def materialize (s : HostService) (runId attemptId : UUID) : Option HostService :=
  match s.phases.get? runId with
  | none | some .ended =>
    match Plan.materializeTask uuid5 repo runId attemptId s.clock with
    | .ok task => some (s.put runId (.materialized task))
    | .error _ => some (s.put runId .ended)
  | _ => none

/-- `with host_lock`, and the entry of `manager.execute`. -/
def acquire (s : HostService) (runId : UUID) : Option HostService :=
  match s.phases.get? runId with
  | some (.materialized task) =>
    let entered := s.put runId (.executing task s.clock)
    match lockOf repo project runId with
    | none => some entered
    | some key => if (s.holders.get? key).isSome then none else some { entered with holders := s.holders.set key runId }
  | _ => none

/-- `HostExecutor.execute` raises if the deadline has passed. -/
def check (s : HostService) (runId : UUID) : Option HostService :=
  match s.phases.get? runId with
  | some (.executing task entered) =>
    if task.deadline ≤ s.clock then some (s.put runId (.expired task entered s.clock))
    else some s
  | _ => none

/-- `manager.execute` has returned or raised. -/
def leave (s : HostService) (runId : UUID) : Option HostService :=
  match s.phases.get? runId with
  | some (.executing _ _) | some (.expired _ _ _) =>
    let left := s.put runId .ended
    match lockOf repo project runId with
    | none => some left
    | some key => some { left with holders := s.holders.erase key }
  | _ => none

def step (s : HostService) : HostLabel → Option HostService
  | .tick clock => if s.clock ≤ clock then some { s with clock := clock } else none
  | .materialize runId attemptId => s.materialize uuid5 repo runId attemptId
  | .acquire runId => s.acquire repo project runId
  | .check runId => s.check runId
  | .leave runId => s.leave repo project runId

end HostService

end Step

/-- No worker at work. -/
def idle (clock : Instant) : HostService := ⟨clock, .empty, .empty⟩

/-! ## What a run is given -/

/-- The time of a run, from its spec. -/
def timeoutOf (repo : TestPlanRepository) (runId : UUID) : Nat :=
  match repo.getRunSpec runId with
  | .ok spec => spec.timeoutSeconds
  | .error _ => 0

/-- A run that has entered `manager.execute` had all its time before its deadline, and one that was found expired has
had it. -/
def GivesTime (repo : TestPlanRepository) (s : HostService) : Prop :=
  (∀ runId task entered, s.phases.get? runId = some (.executing task entered) →
    entered.addSeconds (timeoutOf repo runId) ≤ task.deadline) ∧
  ∀ runId task entered found, s.phases.get? runId = some (.expired task entered found) →
    entered.addSeconds (timeoutOf repo runId) ≤ found

/-- No time has passed since the task was materialized. -/
def Prompt (s : HostService) (label : HostLabel) : Prop :=
  ∀ runId task, label = .acquire runId → s.phases.get? runId = some (.materialized task) → task.createdAt = s.clock

/-- A task that waits has its deadline from the time it was materialized. -/
def Dated (repo : TestPlanRepository) (s : HostService) : Prop :=
  ∀ runId task, s.phases.get? runId = some (.materialized task) →
    task.deadline = task.createdAt.addSeconds (timeoutOf repo runId) ∧ task.createdAt ≤ s.clock

section Steps

variable {uuid5 : String → UUID} {repo : TestPlanRepository} {project : RunSpecRecord → String} {s t : HostService}
  {label : HostLabel}

theorem materializeTask_dates {runId attemptId : UUID} {now : Instant} {task : FullTaskEnvelope}
    (h : Plan.materializeTask uuid5 repo runId attemptId now = .ok task) :
    task.createdAt = now ∧ task.deadline = now.addSeconds (timeoutOf repo runId) := by
  simp only [Plan.materializeTask, bind_eq_ok_iff] at h
  obtain ⟨spec, hspec, hvalid⟩ := h
  simp only [FullTaskEnvelope.validate, error_bind, ite_error_eq_ok_iff, bind_eq_ok_iff, pure_eq_ok_iff] at hvalid
  obtain ⟨-, -, _, -, rfl⟩ := hvalid
  unfold timeoutOf
  rw [hspec]
  exact ⟨rfl, rfl⟩

/-- What a step does to the phases: nothing, or one run goes on. -/
inductive Moved (uuid5 : String → UUID) (repo : TestPlanRepository) (s t : HostService) (runId : UUID) : HostLabel → Prop where
  | begun {attemptId : UUID} {task : FullTaskEnvelope}
      (h : Plan.materializeTask uuid5 repo runId attemptId s.clock = .ok task)
      (hphases : t.phases = s.phases.set runId (.materialized task)) : Moved uuid5 repo s t runId (.materialize runId attemptId)
  | entered {task : FullTaskEnvelope} (h : s.phases.get? runId = some (.materialized task))
      (hphases : t.phases = s.phases.set runId (.executing task s.clock)) : Moved uuid5 repo s t runId (.acquire runId)
  | expired {task : FullTaskEnvelope} {entered : Instant} (h : s.phases.get? runId = some (.executing task entered))
      (hlate : task.deadline ≤ s.clock)
      (hphases : t.phases = s.phases.set runId (.expired task entered s.clock)) : Moved uuid5 repo s t runId (.check runId)
  | ended {label : HostLabel} (hlabel : ∀ runId, label ≠ .acquire runId)
      (hphases : t.phases = s.phases.set runId .ended) : Moved uuid5 repo s t runId label

theorem Moved.other {runId other : UUID} (h : Moved uuid5 repo s t runId label) (hne : other ≠ runId) :
    t.phases.get? other = s.phases.get? other := by
  cases h with
  | begun _ hphases | entered _ hphases | expired _ _ hphases | ended _ hphases =>
    rw [hphases, Dict.get?_set_ne _ _ hne]

theorem step_cases (h : s.step uuid5 repo project label = some t) :
    s.clock ≤ t.clock ∧ (t.phases = s.phases ∧ (∀ runId, label ≠ .acquire runId) ∨
      t.clock = s.clock ∧ ∃ runId, Moved uuid5 repo s t runId label) := by
  cases label with
  | tick clock =>
    simp only [HostService.step] at h
    split at h
    · next hle =>
      obtain rfl := Option.some.inj h
      exact ⟨hle, .inl ⟨rfl, by simp⟩⟩
    · cases h
  | materialize runId attemptId =>
    simp only [HostService.step, HostService.materialize] at h
    split at h
    · split at h
      · next task htask =>
        obtain rfl := Option.some.inj h
        exact ⟨le_rfl, .inr ⟨rfl, runId, .begun htask rfl⟩⟩
      · obtain rfl := Option.some.inj h
        exact ⟨le_rfl, .inr ⟨rfl, runId, .ended (by simp) rfl⟩⟩
    · split at h
      · next task htask =>
        obtain rfl := Option.some.inj h
        exact ⟨le_rfl, .inr ⟨rfl, runId, .begun htask rfl⟩⟩
      · obtain rfl := Option.some.inj h
        exact ⟨le_rfl, .inr ⟨rfl, runId, .ended (by simp) rfl⟩⟩
    · cases h
  | acquire runId =>
    simp only [HostService.step, HostService.acquire] at h
    split at h
    · next task hphase =>
      split at h
      · obtain rfl := Option.some.inj h
        exact ⟨le_rfl, .inr ⟨rfl, runId, .entered hphase rfl⟩⟩
      · split at h
        · cases h
        · obtain rfl := Option.some.inj h
          exact ⟨le_rfl, .inr ⟨rfl, runId, .entered hphase rfl⟩⟩
    · cases h
  | check runId =>
    simp only [HostService.step, HostService.check] at h
    split at h
    · next task entered hphase =>
      split at h
      · next hlate =>
        obtain rfl := Option.some.inj h
        exact ⟨le_rfl, .inr ⟨rfl, runId, .expired hphase hlate rfl⟩⟩
      · obtain rfl := Option.some.inj h
        exact ⟨le_rfl, .inl ⟨rfl, by simp⟩⟩
    · cases h
  | leave runId =>
    simp only [HostService.step, HostService.leave] at h
    split at h
    · split at h <;>
      · obtain rfl := Option.some.inj h
        exact ⟨le_rfl, .inr ⟨rfl, runId, .ended (by simp) rfl⟩⟩
    · split at h <;>
      · obtain rfl := Option.some.inj h
        exact ⟨le_rfl, .inr ⟨rfl, runId, .ended (by simp) rfl⟩⟩
    · cases h

/-- Deadlines stay where they were set. -/
theorem Dated.step (hs : Dated repo s) (h : s.step uuid5 repo project label = some t) : Dated repo t := by
  obtain ⟨hclock, hmoved⟩ := step_cases h
  rcases hmoved with ⟨hphases, -⟩ | ⟨-, runId, hmoved⟩
  · intro other task hother
    rw [hphases] at hother
    obtain ⟨hdeadline, hcreated⟩ := hs other task hother
    exact ⟨hdeadline, le_trans hcreated hclock⟩
  · intro other task hother
    have hbefore : other ≠ runId → task.deadline = task.createdAt.addSeconds (timeoutOf repo other) ∧
        task.createdAt ≤ t.clock := by
      intro hne
      obtain ⟨hdeadline, hcreated⟩ := hs other task (hmoved.other hne ▸ hother)
      exact ⟨hdeadline, le_trans hcreated hclock⟩
    by_cases hne : other = runId
    · subst hne
      cases hmoved with
      | begun htask hphases =>
        rw [hphases, Dict.get?_set_self] at hother
        cases hother
        obtain ⟨hcreated, hdeadline⟩ := materializeTask_dates htask
        exact ⟨by rw [hdeadline, hcreated], hcreated ▸ hclock⟩
      | entered _ hphases | expired _ _ hphases | ended _ hphases =>
        rw [hphases, Dict.get?_set_self] at hother
        cases hother
    · exact hbefore hne

/-- A prompt step gives every run its time. -/
theorem GivesTime.step (hs : GivesTime repo s) (hdated : Dated repo s) (hprompt : Prompt s label)
    (h : s.step uuid5 repo project label = some t) : GivesTime repo t := by
  obtain ⟨-, hmoved⟩ := step_cases h
  obtain ⟨hexecuting, hexpired⟩ := hs
  rcases hmoved with ⟨hphases, -⟩ | ⟨-, runId, hmoved⟩
  · unfold GivesTime
    rw [hphases]
    exact ⟨hexecuting, hexpired⟩
  · refine ⟨?_, ?_⟩
    · intro other task entered hother
      by_cases hne : other = runId
      · subst hne
        cases hmoved with
        | entered hwaiting hphases =>
          rw [hphases, Dict.get?_set_self] at hother
          cases hother
          rw [(hdated _ _ hwaiting).1, hprompt _ _ rfl hwaiting]
        | begun _ hphases | expired _ _ hphases | ended _ hphases =>
          rw [hphases, Dict.get?_set_self] at hother
          cases hother
      · exact hexecuting other task entered (hmoved.other hne ▸ hother)
    · intro other task entered found hother
      by_cases hne : other = runId
      · subst hne
        cases hmoved with
        | expired hrunning hlate hphases =>
          rw [hphases, Dict.get?_set_self] at hother
          cases hother
          exact le_trans (hexecuting _ _ _ hrunning) hlate
        | begun _ hphases | entered _ hphases | ended _ hphases =>
          rw [hphases, Dict.get?_set_self] at hother
          cases hother
      · exact hexpired other task entered found (hmoved.other hne ▸ hother)

/-- A run that enters late does not get its time. -/
theorem prompt_of_givesTime (hdated : Dated repo s) (h : s.step uuid5 repo project label = some t)
    (ht : GivesTime repo t) : Prompt s label := by
  rintro runId task rfl hwaiting
  obtain ⟨hdeadline, hcreated⟩ := hdated runId task hwaiting
  obtain ⟨-, ⟨-, hno⟩ | ⟨-, other, hmoved⟩⟩ := step_cases h
  · exact absurd rfl (hno runId)
  · cases hmoved with
    | entered hphase hphases =>
      rw [hwaiting] at hphase
      cases hphase
      have hgiven := ht.1 runId task s.clock (by rw [hphases, Dict.get?_set_self])
      rw [hdeadline] at hgiven
      exact le_antisymm hcreated (Int.le_of_add_le_add_right hgiven)
    | ended hlabel => exact absurd rfl (hlabel runId)

end Steps

/-- In a run of the service every run is given its time exactly if no lock is acquired after the clock has moved on from
the materialization. -/
theorem host_lock_gives_time_iff (uuid5 : String → UUID) (repo : TestPlanRepository) (project : RunSpecRecord → String)
    (clock : Instant) (labels : List HostLabel) (last : HostService)
    (hrun : runSteps (HostService.step uuid5 repo project) (idle clock) labels = some last) :
    (∀ first, first <+: labels → ∀ s, runSteps (HostService.step uuid5 repo project) (idle clock) first = some s →
      GivesTime repo s) ↔ Along (HostService.step uuid5 repo project) Prompt (idle clock) labels := by
  have hidle : Dated repo (idle clock) ∧ GivesTime repo (idle clock) := by
    refine ⟨?_, ?_, ?_⟩
    · intro runId task h
      cases h
    · intro runId task entered h
      cases h
    · intro runId task entered found h
      cases h
  generalize idle clock = s at hrun hidle ⊢
  obtain ⟨hdated, hgives⟩ := hidle
  induction labels generalizing s with
  | nil =>
    refine ⟨fun _ => trivial, ?_⟩
    intro _ first hfirst t ht
    obtain rfl := List.prefix_nil.mp hfirst
    obtain rfl := Option.some.inj ht
    exact hgives
  | cons label rest ih =>
    obtain ⟨t, ht, hrest⟩ := runSteps_cons.mp hrun
    have hdated' := hdated.step ht
    constructor
    · intro hall
      have hgives' : GivesTime repo t := hall [label] (by simp) t (runSteps_cons.mpr ⟨t, ht, rfl⟩)
      refine ⟨prompt_of_givesTime hdated ht hgives', ?_⟩
      intro t' ht'
      obtain rfl := Option.some.inj (ht.symm.trans ht')
      refine (ih t hrest hdated' hgives').mp ?_
      intro first hfirst u hu
      exact hall (label :: first) (List.cons_prefix_cons.mpr ⟨rfl, hfirst⟩) u (runSteps_cons.mpr ⟨t, ht, hu⟩)
    · rintro ⟨hprompt, halong⟩ first hfirst u hu
      cases first with
      | nil =>
        obtain rfl := Option.some.inj hu
        exact hgives
      | cons label' first =>
        obtain ⟨rfl, hbefore⟩ := List.cons_prefix_cons.mp hfirst
        obtain ⟨t', ht', hu⟩ := runSteps_cons.mp hu
        obtain rfl := Option.some.inj (ht.symm.trans ht')
        exact (ih t hrest hdated' (hgives.step hdated hprompt ht)).mpr (halong t ht) first hbefore u hu

/-! ## Two runs of one project -/

def zeroDigest : String := .ofList (List.replicate 64 '0')

/-- A run of a host project, with a minute of time. -/
def hostSpec (runId : UUID) : RunSpecRecord where
  id := someId
  runId := runId
  batchId := ⟨"batch"⟩
  tenantId := ⟨"tenant"⟩
  projectId := someId
  planId := ⟨"plan"⟩
  planRevision := 1
  itemId := ⟨"item"⟩
  rowKey := "plain"
  engine := .pytest
  scriptId := ⟨"script"⟩
  scriptRevision := 1
  sourceRef := "host-source:v1:5f0f7a5e-6a0d-4f43-9d21-0c4f8b1a2e33:sha256:" ++ zeroDigest
  contentDigest := zeroDigest
  entrypoint := "tests/test_login.py"
  timeoutSeconds := 60
  environmentId := none
  environmentRevision := none
  environmentVariables := .empty
  parameters := .empty
  secretReferences := []
  executionPolicy := .plain .default

def hostRepo : TestPlanRepository :=
  ⟨.empty, .empty, (Dict.empty.set ⟨"first"⟩ (hostSpec ⟨"first"⟩)).set ⟨"second"⟩ (hostSpec ⟨"second"⟩), .empty⟩

def hostStep : HostService → HostLabel → Option HostService :=
  HostService.step someUuid5 hostRepo fun _ => "/srv/login"

/-- Both are materialized at once, and the second waits while the first works for 70 seconds. -/
def waitingRun : List HostLabel :=
  [.materialize ⟨"first"⟩ someId, .materialize ⟨"second"⟩ someId, .acquire ⟨"first"⟩, .tick 70000000,
    .leave ⟨"first"⟩, .acquire ⟨"second"⟩, .check ⟨"second"⟩]

/-- The second begins when the first has left. -/
def promptRun : List HostLabel :=
  [.materialize ⟨"first"⟩ someId, .acquire ⟨"first"⟩, .tick 70000000, .leave ⟨"first"⟩,
    .materialize ⟨"second"⟩ someId, .acquire ⟨"second"⟩]

theorem hostSpec_ok (runId : UUID) : SpecOk (hostSpec runId) where
  entrypoint := by
    simp only [hostSpec]
    decide
  source := by
    have hlength : zeroDigest.length = 64 := by decide
    have hdigest : isContentDigest zeroDigest = true := by decide
    refine ⟨?_, hdigest⟩
    simp only [hostSpec, String.length_append, hlength]
    decide
  timeoutSeconds := by
    simp only [hostSpec]
    decide
  paired := rfl
  revision := by simp [hostSpec]
  engine := .inr rfl
  pinned := fun h => absurd rfl h
  variableNames := by simp [hostSpec, Dict.empty]
  slots := List.nodup_nil
  refs := List.nodup_nil

/-- A run whose spec is stored is materialized. -/
theorem hostStep_materialize {s : HostService} {runId : UUID} (hphase : s.phases.get? runId = none)
    (hstored : hostRepo.specsByRun.get? runId = some (hostSpec runId)) :
    hostStep s (.materialize runId someId) =
      some (s.put runId (.materialized (taskOf someUuid5 (hostSpec runId) runId someId s.clock))) := by
  have htask : Plan.materializeTask someUuid5 hostRepo runId someId s.clock =
      .ok (taskOf someUuid5 (hostSpec runId) runId someId s.clock) := by
    rw [Plan.materializeTask, getRunSpec_ok_iff.mpr hstored, ok_bind]
    exact taskOf_validates (hostSpec_ok runId) someId_canonical someId_canonical
  simp only [hostStep, HostService.step, HostService.materialize, hphase, htask]

theorem host_timeout (runId : UUID) (hstored : hostRepo.specsByRun.get? runId = some (hostSpec runId)) :
    timeoutOf hostRepo runId = 60 := by
  unfold timeoutOf
  rw [getRunSpec_ok_iff.mpr hstored]
  rfl

theorem host_lockOf {runId : UUID} (hstored : hostRepo.specsByRun.get? runId = some (hostSpec runId)) :
    lockOf hostRepo (fun _ => "/srv/login") runId = some "/srv/login" := by
  have hsource : LocalRunnerService.hostSource (hostSpec runId) = true := by
    simp only [LocalRunnerService.hostSource, hostSpec, String.toList_append]
    rfl
  unfold lockOf
  rw [getRunSpec_ok_iff.mpr hstored]
  simp only [hsource, if_true]

theorem hostStep_acquire {s : HostService} {runId : UUID} {task : FullTaskEnvelope}
    (hphase : s.phases.get? runId = some (.materialized task))
    (hstored : hostRepo.specsByRun.get? runId = some (hostSpec runId)) (hfree : s.holders.get? "/srv/login" = none) :
    hostStep s (.acquire runId) =
      some { s.put runId (.executing task s.clock) with holders := s.holders.set "/srv/login" runId } := by
  simp only [hostStep, HostService.step, HostService.acquire, hphase, host_lockOf hstored, hfree, Option.isSome_none]
  rfl

theorem hostStep_leave {s : HostService} {runId : UUID} {task : FullTaskEnvelope} {entered : Instant}
    (hphase : s.phases.get? runId = some (.executing task entered))
    (hstored : hostRepo.specsByRun.get? runId = some (hostSpec runId)) :
    hostStep s (.leave runId) = some { s.put runId .ended with holders := s.holders.erase "/srv/login" } := by
  simp only [hostStep, HostService.step, HostService.leave, hphase, host_lockOf hstored]

theorem second_run_expires : ∃ last task, runSteps hostStep (idle 0) waitingRun = some last ∧
    timeoutOf hostRepo ⟨"second"⟩ = 60 ∧
    last.phases.get? ⟨"second"⟩ = some (.expired task 70000000 70000000) ∧ task.deadline = 60000000 ∧
    ¬ GivesTime hostRepo last := by
  have htimeout : timeoutOf hostRepo ⟨"second"⟩ = 60 := host_timeout _ rfl
  obtain ⟨last, hrun, hlast⟩ : ∃ last, runSteps hostStep (idle 0) waitingRun = some last ∧
      last.phases.get? ⟨"second"⟩ =
        some (.expired (taskOf someUuid5 (hostSpec ⟨"second"⟩) ⟨"second"⟩ someId 0) 70000000 70000000) :=
    ⟨_, runSteps_cons.mpr ⟨_, hostStep_materialize rfl rfl, runSteps_cons.mpr ⟨_, hostStep_materialize rfl rfl,
      runSteps_cons.mpr ⟨_, hostStep_acquire rfl rfl rfl, runSteps_cons.mpr ⟨_, rfl,
      runSteps_cons.mpr ⟨_, hostStep_leave rfl rfl, runSteps_cons.mpr ⟨_, hostStep_acquire rfl rfl rfl, rfl⟩⟩⟩⟩⟩⟩, rfl⟩
  refine ⟨last, _, hrun, htimeout, hlast, rfl, ?_⟩
  intro hgives
  have hlate := hgives.2 _ _ _ _ hlast
  rw [htimeout] at hlate
  exact absurd hlate (by decide)

/-- `Prompt`, evaluated. -/
def checkPrompt (s : HostService) : HostLabel → Bool
  | .acquire runId =>
    match s.phases.get? runId with
    | some (.materialized task) => task.createdAt = s.clock
    | _ => true
  | _ => true

theorem prompt_of_check {s : HostService} {label : HostLabel} (h : checkPrompt s label = true) : Prompt s label := by
  rintro runId task rfl hwaiting
  simpa [checkPrompt, hwaiting] using h

theorem prompt_runs_have_time : ∃ last, runSteps hostStep (idle 0) promptRun = some last ∧ GivesTime hostRepo last := by
  obtain ⟨last, hrun⟩ : ∃ last, runSteps hostStep (idle 0) promptRun = some last :=
    ⟨_, runSteps_cons.mpr ⟨_, hostStep_materialize rfl rfl, runSteps_cons.mpr ⟨_, hostStep_acquire rfl rfl rfl,
      runSteps_cons.mpr ⟨_, rfl, runSteps_cons.mpr ⟨_, hostStep_leave rfl rfl,
      runSteps_cons.mpr ⟨_, hostStep_materialize rfl rfl, runSteps_cons.mpr ⟨_, hostStep_acquire rfl rfl rfl, rfl⟩⟩⟩⟩⟩⟩⟩
  have hprompt : Along hostStep Prompt (idle 0) promptRun :=
    along_cons (prompt_of_check rfl) (hostStep_materialize rfl rfl) <|
    along_cons (prompt_of_check rfl) (hostStep_acquire rfl rfl rfl) <|
    along_cons (prompt_of_check rfl) rfl <|
    along_cons (prompt_of_check rfl) (hostStep_leave rfl rfl) <|
    along_cons (prompt_of_check rfl) (hostStep_materialize rfl rfl) <|
    along_cons (prompt_of_check rfl) (hostStep_acquire rfl rfl rfl) trivial
  exact ⟨last, hrun, (host_lock_gives_time_iff _ _ _ _ _ _ hrun).mpr hprompt promptRun List.prefix_rfl last hrun⟩

end SmartTest.System
