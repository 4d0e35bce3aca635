import SmartTest.Load.Service

/-!
# How a run ends

Whatever the executor does, a run that `_execute` has left is finished, unless the first
read of the run fails, the flush in a handler fails, or the executor raises what no handler
takes.
-/

open SmartTest.Lib SmartTest.Run

namespace SmartTest.Load

/-- The stages before the last update. -/
def Stage.Early : Stage → Prop
  | .decided _ status | .worded _ status _ => status ≠ .running
  | .stored | .raised | .ended => False
  | _ => True

namespace Execution

variable {runId : UUID} {x y : Execution}

/-! ## What the steps do to the run -/

theorem store_eq (runId : UUID) (x : Execution) (fails : Bool) :
    ∃ repo, (x.store runId fails).2 = { x with repo := repo, pending := [] } ∧ repo.runs = x.repo.runs := by
  unfold store
  cases hadd : x.repo.addRunResponses runId x.pending with
  | error e => exact ⟨x.repo, rfl, rfl⟩
  | ok repo =>
    simp only [LoadTestRepository.addRunResponses, bind_eq_ok_iff, pure_eq_ok_iff] at hadd
    obtain ⟨_, -, rfl⟩ := hadd
    cases fails with
    | true => exact ⟨x.repo, rfl, rfl⟩
    | false => exact ⟨_, rfl, rfl⟩

theorem flush_eq (runId : UUID) (x : Execution) (fails : Bool) : ∃ repo pending,
    (x.flush runId fails).2 = { x with repo := repo, pending := pending } ∧ repo.runs = x.repo.runs := by
  unfold flush
  split
  · exact ⟨x.repo, x.pending, rfl, rfl⟩
  · obtain ⟨repo, heq, hruns⟩ := store_eq runId x fails
    exact ⟨repo, [], heq, hruns⟩

theorem respond_eq (runId : UUID) (x : Execution) (item : LoadTestResponse) (fails : Bool) : ∃ repo pending,
    x.respond runId item fails = { x with repo := repo, pending := pending } ∧ repo.runs = x.repo.runs := by
  unfold respond
  dsimp only
  split
  · obtain ⟨repo, heq, hruns⟩ := store_eq runId { x with pending := x.pending ++ [item] } fails
    exact ⟨repo, [], heq, hruns⟩
  · exact ⟨x.repo, _, rfl, rfl⟩

/-- A flush of a stored run fails exactly where there is something to store and the repository fails. -/
theorem flush_error_iff {run : LoadTestRunRecord} (hrun : x.repo.runs.get? runId = some run) (fails : Bool) :
    (∃ e, (x.flush runId fails).1 = .error e) ↔ fails = true ∧ x.pending ≠ [] := by
  unfold flush
  split
  · next hpending => simp [hpending]
  · next hpending =>
    have hget : x.repo.getRun runId = .ok run := by rw [LoadTestRepository.getRun, hrun]
    simp only [store, LoadTestRepository.addRunResponses, hget, ok_bind, pure, Except.pure]
    cases fails <;> simp [hpending]

theorem updateRun_running {repo : LoadTestRepository} {run : LoadTestRunRecord}
    (hrun : repo.runs.get? runId = some run) (hstatus : run.status = .running) (status : LoadTestRunStatus)
    (metrics : Metrics) (message : Option String) (finishedAt : Option Instant) :
    repo.updateRun runId status metrics message finishedAt = .ok { repo with
      runs := repo.runs.set runId
        { run with status := status, metrics := metrics, errorMessage := message, finishedAt := finishedAt } } := by
  simp [LoadTestRepository.updateRun, LoadTestRepository.getRun, hrun, hstatus, ok_bind, pure, Except.pure]

/-! ## Open and converged -/

/-- The run is stored and running. -/
def Open (runId : UUID) (x : Execution) : Prop :=
  ∃ run, x.repo.runs.get? runId = some run ∧ run.status = .running

/-- The run is no longer running, and has a time at which it finished. -/
def Converged (runId : UUID) (x : Execution) : Prop :=
  ∃ run, x.repo.runs.get? runId = some run ∧ run.status ≠ .running ∧ run.finishedAt.isSome

/-- The steps after which the run stays running for good. -/
def Strands (x : Execution) : Event → Prop
  | .getRun fails => fails = true
  | .finish outcome => outcome = .error .baseException
  | .flush fails => fails = true ∧ x.pending ≠ [] ∧ ∃ message, x.stage = .handling message
  | _ => False

theorem Open.of_runs (h : Open runId x) (hruns : y.repo.runs = x.repo.runs) : Open runId y := by
  obtain ⟨run, hrun, hstatus⟩ := h
  exact ⟨run, by rw [hruns]; exact hrun, hstatus⟩

theorem Converged.of_runs (h : Converged runId x) (hruns : y.repo.runs = x.repo.runs) : Converged runId y := by
  obtain ⟨run, hrun, hstatus⟩ := h
  exact ⟨run, by rw [hruns]; exact hrun, hstatus⟩

theorem Open.not_converged (h : Open runId x) : ¬ Converged runId x := by
  obtain ⟨run, hrun, hstatus⟩ := h
  rintro ⟨other, hother, hne, -⟩
  obtain rfl := Option.some.inj (hrun.symm.trans hother)
  exact hne hstatus

/-- Everything a step can do to the run and to the stage. -/
inductive Effect (runId : UUID) (x y : Execution) : Event → Prop
  | quiet {e : Event} (hruns : y.repo.runs = x.repo.runs) (hstage : y.stage = x.stage) (hgood : ¬ Strands x e) :
      Effect runId x y e
  | onward {e : Event} (hruns : y.repo.runs = x.repo.runs) (hx : x.stage.Early) (hy : y.stage.Early)
      (hgood : ¬ Strands x e) : Effect runId x y e
  | strands {e : Event} (hruns : y.repo.runs = x.repo.runs) (hx : x.stage.Early)
      (hy : y.stage = .raised ∨ y.stage = .ended) (hbad : Strands x e) : Effect runId x y e
  | snapshot (metrics : Metrics) (hx : x.stage.Early) (hy : y.stage.Early)
      (hruns : y.repo = (x.writeSnapshot runId metrics).repo) : Effect runId x y .writeSnapshot
  | update (now : Instant) (status : LoadTestRunStatus) (metrics : Metrics) (message : Option String)
      (hx : x.stage.Early) (otherwise : Stage) (hy : y = x.update runId status metrics message now otherwise)
      (hstatus : status ≠ .running) : Effect runId x y (.update now)
  | leave (hruns : y.repo.runs = x.repo.runs) (hx : x.stage = .stored ∨ x.stage = .raised) (hy : y.stage = .ended) :
      Effect runId x y .leave

/-- The stages that occur. -/
def Placed (x : Execution) : Prop := x.stage.Early ∨ x.stage = .stored ∨ x.stage = .raised ∨ x.stage = .ended

theorem flush_effect {run : LoadTestRunRecord} (hrun : x.repo.runs.get? runId = some run) {fails : Bool}
    (h : x.step runId (.flush fails) = some y) : Effect runId x y (.flush fails) := by
  simp only [step] at h
  have hrepo : (x.flush runId fails).2.repo.runs = x.repo.runs := by
    obtain ⟨repo, pending, hflush, hruns⟩ := flush_eq runId x fails
    rw [hflush, hruns]
  split at h
  · next metrics hstage =>
    have hgood : ¬ Strands x (.flush fails) := by
      rintro ⟨-, -, message, hhandling⟩
      rw [hstage] at hhandling
      cases hhandling
    have hx : x.stage.Early := by simp [hstage, Stage.Early]
    split at h
    all_goals
      next heq =>
      obtain rfl := Option.some.inj h
      rw [heq] at hrepo
      exact .onward hrepo hx trivial hgood
  · next message hstage =>
    have hx : x.stage.Early := by simp [hstage, Stage.Early]
    split at h
    · next heq =>
      obtain rfl := Option.some.inj h
      rw [heq] at hrepo
      refine .onward hrepo hx trivial ?_
      rintro ⟨hfails, hpending, -⟩
      obtain ⟨e, he⟩ := (flush_error_iff hrun fails).mpr ⟨hfails, hpending⟩
      rw [heq] at he
      cases he
    · next e z heq =>
      obtain rfl := Option.some.inj h
      rw [heq] at hrepo
      obtain ⟨hfails, hpending⟩ := (flush_error_iff hrun fails).mp ⟨e, by rw [heq]⟩
      exact .strands hrepo hx (.inl rfl) ⟨hfails, hpending, message, hstage⟩
  · cases h

theorem finish_effect {outcome : Except Raised Metrics} (h : x.step runId (.finish outcome) = some y) :
    Effect runId x y (.finish outcome) := by
  simp only [step] at h
  split at h
  · next hstage _ =>
    obtain rfl := Option.some.inj h
    have hx : x.stage.Early := by simp [hstage, Stage.Early]
    match outcome with
    | .ok metrics => exact .onward rfl hx trivial (by simp [Strands])
    | .error (.executionError message) => exact .onward rfl hx trivial (by simp [Strands])
    | .error .exception => exact .onward rfl hx trivial (by simp [Strands])
    | .error .baseException => exact .strands rfl hx (.inl rfl) rfl
  · cases h

theorem update_effect {now : Instant} (hx : Placed x) (h : x.step runId (.update now) = some y) :
    Effect runId x y (.update now) := by
  simp only [step] at h
  split at h
  · next metrics status message hstage =>
    obtain rfl := Option.some.inj h
    have hearly : x.stage.Early := by
      rcases hx with hearly | hlater
      · exact hearly
      · simp [hstage] at hlater
    have hstatus : status ≠ .running := by simpa [hstage, Stage.Early] using hearly
    exact .update now status metrics message hearly _ rfl hstatus
  · next message hstage =>
    obtain rfl := Option.some.inj h
    exact .update now .failed x.latest (some message) (by simp [hstage, Stage.Early]) _ rfl (by decide)
  · cases h

/-- The effect of every step. -/
theorem step_effect {run : LoadTestRunRecord} (hrun : x.repo.runs.get? runId = some run) (hx : Placed x) {e : Event}
    (h : x.step runId e = some y) : Effect runId x y e := by
  cases e with
  | getRun fails =>
    have hget : x.repo.getRun runId = .ok run := by rw [LoadTestRepository.getRun, hrun]
    simp only [step, hget] at h
    split at h
    · next hstage =>
      have hearly : x.stage.Early := by simp [hstage, Stage.Early]
      cases fails with
      | true =>
        obtain rfl := Option.some.inj h
        exact .strands rfl hearly (.inr rfl) rfl
      | false =>
        obtain rfl := Option.some.inj h
        exact .onward rfl hearly trivial (by simp [Strands])
    · cases h
  | respond item fails =>
    simp only [step] at h
    split at h
    · obtain rfl := Option.some.inj h
      obtain ⟨repo, pending, heq, hruns⟩ := respond_eq runId x item fails
      rw [heq]
      exact .quiet hruns rfl id
    · cases h
  | checkSnapshot metrics =>
    simp only [step] at h
    split at h
    · obtain rfl := Option.some.inj h
      unfold checkSnapshot
      split <;> exact .quiet rfl rfl id
    · cases h
  | writeSnapshot =>
    simp only [step] at h
    split at h
    · next metrics hstage _ =>
      obtain rfl := Option.some.inj h
      refine .snapshot metrics (by simp [hstage, Stage.Early]) ?_ rfl
      unfold writeSnapshot
      split <;> simp [hstage, Stage.Early]
    · cases h
  | finish outcome => exact finish_effect h
  | flush fails => exact flush_effect hrun h
  | readStatus =>
    simp only [step] at h
    split at h
    · next metrics hstage =>
      obtain rfl := Option.some.inj h
      refine .onward rfl (by simp [hstage, Stage.Early]) ?_ id
      cases x.cancelled <;> simp [Stage.Early]
    · cases h
  | readMessage =>
    simp only [step] at h
    split at h
    · next metrics status hstage =>
      obtain rfl := Option.some.inj h
      have hearly : x.stage.Early := by
        rcases hx with hearly | hlater
        · exact hearly
        · simp [hstage] at hlater
      have hstatus : status ≠ .running := by simpa [hstage, Stage.Early] using hearly
      exact .onward rfl hearly hstatus id
    · cases h
  | update now => exact update_effect hx h
  | leave =>
    simp only [step] at h
    split at h
    · next hstage =>
      obtain rfl := Option.some.inj h
      exact .leave rfl (.inl hstage) rfl
    · next hstage =>
      obtain rfl := Option.some.inj h
      exact .leave rfl (.inr hstage) rfl
    · cases h
  | askCancel =>
    simp only [step] at h
    split at h
    · split at h
      all_goals
        obtain rfl := Option.some.inj h
        exact .quiet rfl rfl id
    · obtain rfl := Option.some.inj h
      exact .quiet rfl rfl id
  | setCancel =>
    simp only [step] at h
    split at h
    · cases h
    · obtain rfl := Option.some.inj h
      exact .quiet rfl rfl id

/-! ## Every run -/

/-- What holds in every state: the run is open until the last update, and then finished. -/
structure Steady (runId : UUID) (x : Execution) : Prop where
  placed : Placed x
  early : x.stage.Early → Open runId x
  raised : x.stage = .raised → Open runId x
  stored : x.stage = .stored → Converged runId x
  ended : x.stage = .ended → Open runId x ∨ Converged runId x

theorem Steady.exists_run (h : Steady runId x) : ∃ run, x.repo.runs.get? runId = some run := by
  rcases h.placed with hearly | hstored | hraised | hended
  · obtain ⟨run, hrun, -⟩ := h.early hearly
    exact ⟨run, hrun⟩
  · obtain ⟨run, hrun, -⟩ := h.stored hstored
    exact ⟨run, hrun⟩
  · obtain ⟨run, hrun, -⟩ := h.raised hraised
    exact ⟨run, hrun⟩
  · rcases h.ended hended with ⟨run, hrun, -⟩ | ⟨run, hrun, -⟩
    · exact ⟨run, hrun⟩
    · exact ⟨run, hrun⟩

theorem Open.update (h : Open runId x) {status : LoadTestRunStatus} (hstatus : status ≠ .running) (metrics : Metrics)
    (message : Option String) (now : Instant) (otherwise : Stage) :
    Converged runId (x.update runId status metrics message now otherwise) ∧
      (x.update runId status metrics message now otherwise).stage = .stored := by
  obtain ⟨run, hrun, hrunning⟩ := h
  unfold Execution.update
  rw [updateRun_running hrun hrunning]
  exact ⟨⟨_, Dict.get?_set_self _ _ _, hstatus, rfl⟩, rfl⟩

theorem Open.writeSnapshot (h : Open runId x) (metrics : Metrics) : Open runId (x.writeSnapshot runId metrics) := by
  obtain ⟨run, hrun, hrunning⟩ := h
  unfold Execution.writeSnapshot
  rw [updateRun_running hrun hrunning]
  exact ⟨_, Dict.get?_set_self _ _ _, rfl⟩

theorem Steady.of_early (hearly : x.stage.Early) (hopen : Open runId x) : Steady runId x := by
  refine ⟨.inl hearly, fun _ => hopen, ?_, ?_, ?_⟩
  all_goals
    intro hstage
    simp [hstage, Stage.Early] at hearly

theorem Steady.step (h : Steady runId x) {e : Event} (hstep : x.step runId e = some y) : Steady runId y := by
  obtain ⟨run, hrun⟩ := h.exists_run
  cases step_effect hrun h.placed hstep with
  | quiet hruns hstage hgood =>
    refine ⟨by rw [Placed, hstage]; exact h.placed, ?_, ?_, ?_, ?_⟩
    all_goals rw [hstage]
    · exact fun hearly => (h.early hearly).of_runs hruns
    · exact fun hraised => (h.raised hraised).of_runs hruns
    · exact fun hstored => (h.stored hstored).of_runs hruns
    · exact fun hended => (h.ended hended).imp (·.of_runs hruns) (·.of_runs hruns)
  | onward hruns hx hy hgood => exact .of_early hy ((h.early hx).of_runs hruns)
  | strands hruns hx hy hbad =>
    have hopen := (h.early hx).of_runs (y := y) hruns
    refine ⟨.inr (.inr hy), fun _ => hopen, fun _ => hopen, ?_, fun _ => .inl hopen⟩
    intro hstored
    rcases hy with hraised | hended
    · rw [hraised] at hstored
      cases hstored
    · rw [hended] at hstored
      cases hstored
  | snapshot metrics hx hy hrepo =>
    exact .of_early hy (((h.early hx).writeSnapshot metrics).of_runs (by rw [hrepo]))
  | update now status metrics message hx otherwise hy hstatus =>
    obtain ⟨hconverged, hstored⟩ := (h.early hx).update hstatus metrics message now otherwise
    subst hy
    refine ⟨.inr (.inl hstored), ?_, ?_, fun _ => hconverged, ?_⟩
    all_goals
      intro hstage
      simp [hstored, Stage.Early] at hstage
  | leave hruns hx hy =>
    refine ⟨.inr (.inr (.inr hy)), ?_, ?_, ?_, ?_⟩
    · simp [hy, Stage.Early]
    · simp [hy]
    · simp [hy]
    · intro _
      rcases hx with hstored | hraised
      · exact .inr ((h.stored hstored).of_runs hruns)
      · exact .inl ((h.raised hraised).of_runs hruns)

/-- What a run without a stranding step has. -/
structure Promising (runId : UUID) (x : Execution) : Prop extends Steady runId x where
  kept : x.stage ≠ .raised
  finished : x.stage = .ended → Converged runId x

theorem Promising.step (h : Promising runId x) {e : Event} (hgood : ¬ Strands x e)
    (hstep : x.step runId e = some y) : Promising runId y := by
  obtain ⟨run, hrun⟩ := h.exists_run
  refine ⟨h.toSteady.step hstep, ?_, ?_⟩
  · cases step_effect hrun h.placed hstep with
    | quiet hruns hstage _ => rw [hstage]; exact h.kept
    | onward hruns hx hy _ => intro hraised; simp [hraised, Stage.Early] at hy
    | strands hruns hx hy hbad => exact absurd hbad hgood
    | snapshot metrics hx hy hrepo => intro hraised; simp [hraised, Stage.Early] at hy
    | update now status metrics message hx otherwise hy hstatus =>
      subst hy
      rw [((h.early hx).update hstatus metrics message now otherwise).2]
      simp
    | leave hruns hx hy => simp [hy]
  · intro hended
    cases step_effect hrun h.placed hstep with
    | quiet hruns hstage _ => exact (h.finished (hstage ▸ hended)).of_runs hruns
    | onward hruns hx hy _ => simp [hended, Stage.Early] at hy
    | strands hruns hx hy hbad => exact absurd hbad hgood
    | snapshot metrics hx hy hrepo => simp [hended, Stage.Early] at hy
    | update now status metrics message hx otherwise hy hstatus =>
      subst hy
      rw [((h.early hx).update hstatus metrics message now otherwise).2] at hended
      cases hended
    | leave hruns hx hy =>
      rcases hx with hstored | hraised
      · exact (h.stored hstored).of_runs hruns
      · exact absurd hraised h.kept

/-- What no step mends. -/
def Stranded (runId : UUID) (x : Execution) : Prop := Open runId x ∧ (x.stage = .raised ∨ x.stage = .ended)

theorem stranded_of_strands (h : Steady runId x) {e : Event} (hbad : Strands x e)
    (hstep : x.step runId e = some y) : Stranded runId y := by
  obtain ⟨run, hrun⟩ := h.exists_run
  cases step_effect hrun h.placed hstep with
  | quiet _ _ hgood | onward _ _ _ hgood => exact absurd hbad hgood
  | strands hruns hx hy _ => exact ⟨(h.early hx).of_runs hruns, hy⟩
  | snapshot | update | leave => exact hbad.elim

theorem Stranded.step (h : Stranded runId x) {e : Event} (hstep : x.step runId e = some y) : Stranded runId y := by
  obtain ⟨hopen, hstage⟩ := h
  have ⟨run, hrun, _⟩ := hopen
  have hlate : ¬ x.stage.Early := by rcases hstage with hs | hs <;> simp [hs, Stage.Early]
  cases step_effect hrun (.inr (.inr hstage)) hstep with
  | quiet hruns hsame _ => exact ⟨hopen.of_runs hruns, by rw [hsame]; exact hstage⟩
  | onward _ hx | strands _ hx | snapshot _ hx | update _ _ _ _ hx => exact absurd hx hlate
  | leave hruns hx hy => exact ⟨hopen.of_runs hruns, .inr hy⟩

theorem begin_promising {repo : LoadTestRepository} {run : LoadTestRunRecord} (hrun : repo.runs.get? runId = some run)
    (hstatus : run.status = .running) : Promising runId (.begin repo) :=
  ⟨.of_early trivial ⟨run, hrun, hstatus⟩, by simp [Execution.begin], by simp [Execution.begin]⟩

/-- When `_execute` has ended, the run is finished exactly if no step stranded it: the first `get_run` did not
fail, the executor raised nothing but exceptions, and no flush in a handler failed. -/
theorem execute_converges_iff {repo : LoadTestRepository} {run : LoadTestRunRecord}
    (hrun : repo.runs.get? runId = some run) (hstatus : run.status = .running) {events : List Event}
    (hsteps : runSteps (Execution.step runId) (.begin repo) events = some x) (hended : x.stage = .ended) :
    Converged runId x ↔ Along (Execution.step runId) (fun y e => ¬ Strands y e) (.begin repo) events := by
  have hbegin := begin_promising hrun hstatus
  constructor
  · intro hconverged
    by_contra hnot
    obtain ⟨t, e, t', first, rest, hfirst, hbad, ht, hrest⟩ := exists_of_not_along hsteps hnot
    have hsteady : Steady runId t :=
      runSteps_keeps (fun _ _ _ hs hstep => hs.step hstep) hbegin.toSteady hfirst
    have hstranded : Stranded runId x :=
      runSteps_keeps (fun _ _ _ hs hstep => hs.step hstep) (stranded_of_strands hsteady (not_not.mp hbad) ht) hrest
    exact hstranded.1.not_converged hconverged
  · intro halong
    have hpromising : Promising runId x :=
      halong.keeps (fun _ _ _ hs hok hstep => hs.step hok hstep) hbegin hsteps
    exact hpromising.finished hended

/-! ## A run whose last flush fails -/

def pingTarget : LoadTestTarget where
  name := "ping"
  method := "GET"
  url := "http://example.com/ping"
  headers := .empty
  query := .empty
  body := .null
  expectedStatuses := [200]
  extractors := .empty
  thinkTimeMs := 0
  name_plain := by decide
  method_known := by decide
  url_length := by decide
  statuses_known := by decide
  statuses_nodup := by decide
  extractors_named := by decide
  counts_le := by decide
  thinkTime_le := by decide

def pingTest : LoadTestRecord where
  id := ⟨"t"⟩
  projectId := ⟨"p"⟩
  name := "ping"
  targets := [pingTarget]
  mode := .count
  requestCount := 2
  durationSeconds := 1
  concurrency := 1
  intervalMs := 0
  stateVersion := 0
  trafficMode := .requests
  initialVariables := .empty
  stopOnFailure := true
  targets_count := by decide
  targets_nodup := by decide
  requestCount_range := by decide
  concurrency_range := by decide

def pingRun : LoadTestRunRecord := ⟨⟨"r"⟩, ⟨"t"⟩, .running, .count, none, .empty ["ping"], none⟩

/-- The repository after `create_run`. -/
def pingRepo : LoadTestRepository where
  definitions := Dict.empty.set ⟨"t"⟩ pingTest
  names := Dict.empty.set (⟨"p"⟩, "ping") ⟨"t"⟩
  runs := Dict.empty.set ⟨"r"⟩ pingRun
  responses := Dict.empty.set ⟨"r"⟩ []

def pingResponse : LoadTestResponse := ⟨⟨some "pong", "text", false, 4⟩, 1, "ping", true, some 200, none⟩

/-- One response, then an exception, and no database when the handler flushes. -/
def brokenFlush : List Event :=
  [.getRun false, .respond pingResponse false, .finish (.error .exception), .flush true, .leave]

theorem broken_flush_strands : ∃ x, runSteps (Execution.step ⟨"r"⟩) (.begin pingRepo) brokenFlush = some x ∧
    x.stage = .ended ∧ ¬ Converged ⟨"r"⟩ x ∧
    x.repo.createRun ⟨"n"⟩ ⟨"t"⟩ =
      .error ⟨.other "LoadTestActiveRunConflict", "load test already has an active run"⟩ := by
  refine ⟨_, rfl, rfl, ?_, rfl⟩
  exact Open.not_converged ⟨pingRun, rfl, rfl⟩

/-- The same with a database that answers. -/
def soundFlush : List Event :=
  [.getRun false, .respond pingResponse false, .finish (.error .exception), .flush false, .update 9, .leave]

theorem sound_flush_converges : ∃ x, runSteps (Execution.step ⟨"r"⟩) (.begin pingRepo) soundFlush = some x ∧
    (Converged ⟨"r"⟩ x ↔
      Along (Execution.step ⟨"r"⟩) (fun y e => ¬ Strands y e) (.begin pingRepo) soundFlush) :=
  ⟨_, rfl, @execute_converges_iff ⟨"r"⟩ _ pingRepo pingRun rfl rfl soundFlush rfl rfl⟩

end Execution

end SmartTest.Load
