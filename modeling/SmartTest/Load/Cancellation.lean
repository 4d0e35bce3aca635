import SmartTest.Load.Convergence

/-!
# Cancelling at the end

`_execute` reads the flag twice for its last record, once for the status and once for the
message. The record contradicts itself exactly when the flag is set between the two.
-/

open SmartTest.Lib SmartTest.Run

namespace SmartTest.Load

namespace Execution

variable {runId : UUID} {x y : Execution}

/-- A success has no message, anything else has one. -/
def ConsistentRecord (run : LoadTestRunRecord) : Prop :=
  run.status = .succeeded ↔ run.errorMessage = none

/-- The flag is set between the read for the status and the read for the message. -/
def BetweenReads (x : Execution) (e : Event) : Prop := e = .setCancel ∧ ∃ metrics, x.stage = .decided metrics .succeeded

/-- A terminal record of the run is consistent. -/
def Recorded (runId : UUID) (x : Execution) : Prop :=
  ∀ run, x.repo.runs.get? runId = some run → run.status ≠ .running → ConsistentRecord run

theorem Recorded.of_runs (h : Recorded runId x) (hruns : y.repo.runs = x.repo.runs) : Recorded runId y := by
  intro run hrun
  rw [hruns] at hrun
  exact h run hrun

theorem Open.recorded (h : Open runId x) : Recorded runId x := by
  obtain ⟨run, hrun, hstatus⟩ := h
  intro other hother hne
  obtain rfl := Option.some.inj (hrun.symm.trans hother)
  exact absurd hstatus hne

/-- What the reads have found out so far agrees. -/
def Agrees (x : Execution) : Prop :=
  match x.stage with
  | .decided _ status => status = .succeeded ↔ x.cancelled = false
  | .worded _ status message => status = .succeeded ↔ message = none
  | _ => True

/-! ## Steps -/

theorem askCancel_eq (h : x.step runId .askCancel = some y) : ∃ askers, y = { x with askers := askers } := by
  simp only [step] at h
  split at h
  · split at h
    · exact ⟨_, (Option.some.inj h).symm⟩
    · exact ⟨x.askers, (Option.some.inj h).symm⟩
  · exact ⟨x.askers, (Option.some.inj h).symm⟩

theorem setCancel_eq (h : x.step runId .setCancel = some y) :
    ∃ askers, y = { x with askers := askers, cancelled := x.cancelled || x.registered } := by
  simp only [step] at h
  split at h
  · cases h
  · exact ⟨_, (Option.some.inj h).symm⟩

/-- The record the last update writes. -/
theorem update_record (hopen : Open runId x) {now : Instant} (h : x.step runId (.update now) = some y) :
    ∃ run, y.repo.runs.get? runId = some run ∧ y.stage = .stored ∧
      ((∃ metrics status message, x.stage = .worded metrics status message ∧ run.status = status ∧
          run.errorMessage = message) ∨
        (∃ message, x.stage = .closing message ∧ run.status = .failed ∧ run.errorMessage = some message)) := by
  obtain ⟨run, hrun, hrunning⟩ := hopen
  simp only [step] at h
  split at h
  · next metrics status message hstage =>
    obtain rfl := Option.some.inj h
    simp only [update, updateRun_running hrun hrunning]
    exact ⟨_, Dict.get?_set_self _ _ _, trivial, .inl ⟨metrics, status, message, hstage, rfl, rfl⟩⟩
  · next message hstage =>
    obtain rfl := Option.some.inj h
    simp only [update, updateRun_running hrun hrunning]
    exact ⟨_, Dict.get?_set_self _ _ _, trivial, .inr ⟨message, hstage, rfl, rfl⟩⟩
  · cases h

/-- The stages in which nothing has been read for the last record. -/
def Stage.Unread : Stage → Prop
  | .decided _ _ | .worded _ _ _ => False
  | _ => True

/-- What a step does to the reads: nothing, or it is one of them, or the flag is asked for or set. -/
inductive Reads (x y : Execution) : Event → Prop
  | unread {e : Event} (hstage : Stage.Unread y.stage) (hregistered : y.registered = x.registered ∨ y.stage = .ended) :
      Reads x y e
  | status (metrics : Metrics) (hx : x.stage = .flushed metrics)
      (hy : y = { x with stage := .decided metrics (if x.cancelled then .failed else .succeeded) }) :
      Reads x y .readStatus
  | message (metrics : Metrics) (status : LoadTestRunStatus) (hx : x.stage = .decided metrics status)
      (hy : y = { x with
        stage := .worded metrics status (if x.cancelled then some CANCELLED_MESSAGE else none) }) :
      Reads x y .readMessage
  | ask (askers : Nat) (hy : y = { x with askers := askers }) : Reads x y .askCancel
  | set (askers : Nat) (hy : y = { x with askers := askers, cancelled := x.cancelled || x.registered }) :
      Reads x y .setCancel

theorem step_reads {e : Event} (h : x.step runId e = some y) : Reads x y e := by
  cases e with
  | getRun fails =>
    simp only [step] at h
    split at h
    · split at h
      · split at h
        · obtain rfl := Option.some.inj h
          exact .unread trivial (.inr rfl)
        · obtain rfl := Option.some.inj h
          exact .unread trivial (.inl rfl)
      · obtain rfl := Option.some.inj h
        exact .unread trivial (.inr rfl)
    · cases h
  | respond item fails =>
    simp only [step] at h
    split at h
    · next hstage =>
      obtain rfl := Option.some.inj h
      obtain ⟨repo, pending, heq, -⟩ := respond_eq runId x item fails
      rw [heq]
      exact .unread (by simp [hstage, Stage.Unread]) (.inl rfl)
    · cases h
  | checkSnapshot metrics =>
    simp only [step] at h
    split at h
    · next hstage _ =>
      obtain rfl := Option.some.inj h
      unfold checkSnapshot
      split <;> exact .unread (by simp [hstage, Stage.Unread]) (.inl rfl)
    · cases h
  | writeSnapshot =>
    simp only [step] at h
    split at h
    · next hstage _ =>
      obtain rfl := Option.some.inj h
      unfold writeSnapshot
      split <;> exact .unread (by simp [hstage, Stage.Unread]) (.inl rfl)
    · cases h
  | finish outcome =>
    simp only [step] at h
    split at h
    · obtain rfl := Option.some.inj h
      refine .unread ?_ (.inl rfl)
      cases outcome with
      | ok metrics => trivial
      | error e => cases e <;> trivial
    · cases h
  | flush fails =>
    have hregistered : (x.flush runId fails).2.registered = x.registered := by
      obtain ⟨repo, pending, hflush, -⟩ := flush_eq runId x fails
      rw [hflush]
    simp only [step] at h
    split at h
    · split at h
      all_goals
        next heq =>
        obtain rfl := Option.some.inj h
        rw [heq] at hregistered
        exact .unread trivial (.inl hregistered)
    · split at h
      all_goals
        next heq =>
        obtain rfl := Option.some.inj h
        rw [heq] at hregistered
        exact .unread trivial (.inl hregistered)
    · cases h
  | readStatus =>
    simp only [step] at h
    split at h
    · next metrics hstage => exact .status metrics hstage (Option.some.inj h).symm
    · cases h
  | readMessage =>
    simp only [step] at h
    split at h
    · next metrics status hstage => exact .message metrics status hstage (Option.some.inj h).symm
    · cases h
  | update now =>
    simp only [step] at h
    split at h
    · obtain rfl := Option.some.inj h
      unfold update
      split <;> exact .unread trivial (.inl rfl)
    · obtain rfl := Option.some.inj h
      unfold update
      split <;> exact .unread trivial (.inl rfl)
    · cases h
  | leave =>
    simp only [step] at h
    split at h
    · obtain rfl := Option.some.inj h
      exact .unread trivial (.inr rfl)
    · obtain rfl := Option.some.inj h
      exact .unread trivial (.inr rfl)
    · cases h
  | askCancel =>
    obtain ⟨askers, rfl⟩ := askCancel_eq h
    exact .ask askers rfl
  | setCancel =>
    obtain ⟨askers, rfl⟩ := setCancel_eq h
    exact .set askers rfl

/-- Nothing but a cancellation happens once `_execute` has ended. -/
theorem ended_step (hx : x.stage = .ended) {e : Event} (h : x.step runId e = some y) : y.stage = .ended := by
  cases e with
  | askCancel =>
    obtain ⟨askers, rfl⟩ := askCancel_eq h
    exact hx
  | setCancel =>
    obtain ⟨askers, rfl⟩ := setCancel_eq h
    exact hx
  | _ => simp [step, hx] at h

/-- Until `_execute` leaves, the flag can be found. -/
def Registered (x : Execution) : Prop := x.stage = .ended ∨ x.registered = true

theorem Registered.step (h : Registered x) {e : Event} (hstep : x.step runId e = some y) : Registered y := by
  rcases h with hended | hregistered
  · exact .inl (ended_step hended hstep)
  · cases step_reads hstep with
    | unread hstage hor =>
      rcases hor with hsame | hended
      · exact .inr (hsame.trans hregistered)
      · exact .inl hended
    | status _ _ hy | message _ _ _ hy | ask _ hy | set _ hy =>
      subst hy
      exact .inr hregistered

/-! ## Runs in which the reads agree -/

theorem recorded_step (hsteady : Steady runId x) (hagrees : Agrees x) (h : Recorded runId x) {e : Event}
    (hstep : x.step runId e = some y) : Recorded runId y := by
  obtain ⟨run, hrun⟩ := hsteady.exists_run
  cases step_effect hrun hsteady.placed hstep with
  | quiet hruns | onward hruns | strands hruns | leave hruns => exact h.of_runs hruns
  | snapshot metrics hx hy hrepo =>
    exact (((hsteady.early hx).writeSnapshot metrics).of_runs (y := y) (by rw [hrepo])).recorded
  | update now status metrics message hx otherwise hy hstatus =>
    obtain ⟨record, hrecord, -, hfields⟩ := update_record (hsteady.early hx) hstep
    intro other hother hne
    obtain rfl := Option.some.inj (hrecord.symm.trans hother)
    rcases hfields with ⟨m, s, text, hstage, hs, htext⟩ | ⟨text, -, hs, htext⟩
    · simp only [Agrees, hstage] at hagrees
      rw [ConsistentRecord, hs, htext]
      exact hagrees
    · simp [ConsistentRecord, hs, htext]

theorem agrees_step (h : Agrees x) {e : Event} (hbetween : ¬ BetweenReads x e)
    (hstep : x.step runId e = some y) : Agrees y := by
  cases step_reads hstep with
  | unread hstage _ =>
    unfold Agrees
    revert hstage
    cases y.stage <;> simp [Stage.Unread]
  | status metrics hx hy =>
    subst hy
    cases x.cancelled <;> simp [Agrees]
  | message metrics status hx hy =>
    subst hy
    simp only [Agrees, hx] at h
    cases hcancelled : x.cancelled <;> simp [Agrees, hcancelled, h]
  | ask askers hy =>
    subst hy
    exact h
  | set askers hy =>
    subst hy
    unfold Agrees at h ⊢
    dsimp only
    split
    · next metrics status hstage =>
      -- The status is a failure already: a success would be read between the two.
      have hfailed : status ≠ .succeeded := by
        rintro rfl
        exact hbetween ⟨rfl, metrics, hstage⟩
      simp only [hstage, hfailed, false_iff] at h ⊢
      simp [Bool.eq_true_of_not_eq_false h]
    · next hstage => simpa [hstage] using h
    · trivial

/-! ## Runs in which they do not -/

/-- The record contradicts itself, or will. -/
def Contradicts (runId : UUID) (x : Execution) : Prop :=
  match x.stage with
  | .decided _ status => status = .succeeded ∧ x.cancelled = true
  | .worded _ status message => status = .succeeded ∧ message ≠ none
  | .stored | .ended => ∃ run, x.repo.runs.get? runId = some run ∧ run.status = .succeeded ∧ run.errorMessage ≠ none
  | _ => False

theorem contradicts_step (hsteady : Steady runId x) (h : Contradicts runId x) {e : Event}
    (hstep : x.step runId e = some y) : Contradicts runId y := by
  cases e with
  | askCancel =>
    obtain ⟨askers, rfl⟩ := askCancel_eq hstep
    exact h
  | setCancel =>
    obtain ⟨askers, rfl⟩ := setCancel_eq hstep
    unfold Contradicts at h ⊢
    dsimp only
    split
    · next hstage => simp_all
    · next hstage => simpa [hstage] using h
    · next hstage => simpa [hstage] using h
    · next hstage => simpa [hstage] using h
    · simp at h
  | update now =>
    have hx : x.stage.Early := by
      simp only [step] at hstep
      split at hstep
      · next hstage =>
        rcases hsteady.placed with hearly | hlate
        · exact hearly
        · simp [hstage] at hlate
      · next hstage => simp [hstage, Stage.Early]
      · cases hstep
    obtain ⟨run, hrun, hstored, hfields⟩ := update_record (hsteady.early hx) hstep
    unfold Contradicts at h ⊢
    rcases hfields with ⟨metrics, status, message, hstage, hstatus, hmessage⟩ | ⟨message, hstage, -⟩
    · simp only [hstage] at h
      simp only [hstored]
      exact ⟨run, hrun, hstatus.trans h.1, by rw [hmessage]; exact h.2⟩
    · simp [hstage] at h
  | readMessage =>
    simp only [step] at hstep
    split at hstep
    · next metrics status hstage =>
      obtain rfl := Option.some.inj hstep
      simp only [Contradicts, hstage] at h
      simp [Contradicts, h.1, h.2]
    · cases hstep
  | leave =>
    simp only [step] at hstep
    split at hstep
    · next hstage =>
      obtain rfl := Option.some.inj hstep
      simpa [Contradicts, hstage] using h
    · next hstage => simp [Contradicts, hstage] at h
    · cases hstep
  | _ =>
    exfalso
    cases hstage : x.stage <;> simp [step, Contradicts, hstage] at hstep h

theorem contradicts_of_between (hregistered : Registered x) {e : Event} (hbetween : BetweenReads x e)
    (hstep : x.step runId e = some y) : Contradicts runId y := by
  obtain ⟨rfl, metrics, hstage⟩ := hbetween
  obtain ⟨askers, rfl⟩ := setCancel_eq hstep
  have htrue : x.registered = true := by
    rcases hregistered with hended | htrue
    · rw [hstage] at hended
      cases hended
    · exact htrue
  simp [Contradicts, hstage, htrue]

/-! ## Every run -/

/-- Whenever a run has its last record, the record is consistent exactly if the flag was not set between the
two reads. -/
theorem final_record_consistent_iff {repo : LoadTestRepository} {run : LoadTestRunRecord}
    (hrun : repo.runs.get? runId = some run) (hstatus : run.status = .running) {events : List Event}
    (hsteps : runSteps (Execution.step runId) (.begin repo) events = some x) {last : LoadTestRunRecord}
    (hlast : x.repo.runs.get? runId = some last) (hterminal : last.status ≠ .running) :
    (last.status = .succeeded ↔ last.errorMessage = none) ↔
      Along (Execution.step runId) (fun y e => ¬ BetweenReads y e) (.begin repo) events := by
  have hbegin : Steady runId (.begin repo) := (begin_promising hrun hstatus).toSteady
  constructor
  · intro hconsistent
    by_contra hnot
    obtain ⟨t, e, t', first, rest, hfirst, hbad, ht, hrest⟩ := exists_of_not_along hsteps hnot
    have hreached : Steady runId t ∧ Registered t :=
      runSteps_keeps (I := fun z => Steady runId z ∧ Registered z)
        (fun _ _ _ hs hstep => ⟨hs.1.step hstep, hs.2.step hstep⟩) ⟨hbegin, .inr rfl⟩ hfirst
    have hfinal : Steady runId x ∧ Contradicts runId x :=
      runSteps_keeps (I := fun z => Steady runId z ∧ Contradicts runId z)
        (fun _ _ _ hs hstep => ⟨hs.1.step hstep, contradicts_step hs.1 hs.2 hstep⟩)
        ⟨hreached.1.step ht, contradicts_of_between hreached.2 (not_not.mp hbad) ht⟩ hrest
    obtain ⟨hsteady, hcontradicts⟩ := hfinal
    have hlate : x.stage = .stored ∨ x.stage = .ended := by
      rcases hsteady.placed with hearly | hstored | hraised | hended
      · obtain ⟨record, hrecord, hrunning⟩ := hsteady.early hearly
        obtain rfl := Option.some.inj (hlast.symm.trans hrecord)
        exact absurd hrunning hterminal
      · exact .inl hstored
      · simp [Contradicts, hraised] at hcontradicts
      · exact .inr hended
    have hrecord : ∃ run, x.repo.runs.get? runId = some run ∧ run.status = .succeeded ∧ run.errorMessage ≠ none := by
      rcases hlate with hstage | hstage <;> simpa [Contradicts, hstage] using hcontradicts
    obtain ⟨record, hrecord, hsucceeded, hmessage⟩ := hrecord
    obtain rfl := Option.some.inj (hlast.symm.trans hrecord)
    exact hmessage (hconsistent.mp hsucceeded)
  · intro halong
    have hfinal : Steady runId x ∧ Agrees x ∧ Recorded runId x :=
      halong.keeps (I := fun z => Steady runId z ∧ Agrees z ∧ Recorded runId z)
        (fun _ _ _ hs hok hstep => ⟨hs.1.step hstep, agrees_step hs.2.1 hok hstep,
          recorded_step hs.1 hs.2.1 hs.2.2 hstep⟩) ⟨hbegin, trivial, Open.recorded ⟨run, hrun, hstatus⟩⟩ hsteps
    exact hfinal.2.2 last hlast hterminal

/-- `cancel_run` reads a running run, and sets the flag after the status has been read. -/
def lateCancel : List Event :=
  [.getRun false, .finish (.ok (.empty ["ping"])), .flush false, .askCancel, .readStatus, .setCancel, .readMessage,
    .update 9, .leave]

theorem late_cancel_contradicts : ∃ x last, runSteps (Execution.step ⟨"r"⟩) (.begin pingRepo) lateCancel = some x ∧
    x.stage = .ended ∧ x.repo.runs.get? ⟨"r"⟩ = some last ∧ last.status = .succeeded ∧
    last.errorMessage = some "Load test execution cancelled" :=
  ⟨_, _, rfl, rfl, rfl, rfl, rfl⟩

/-- The flag is set before both reads. -/
def earlyCancel : List Event :=
  [.getRun false, .finish (.ok (.empty ["ping"])), .flush false, .askCancel, .setCancel, .readStatus, .readMessage,
    .update 9, .leave]

theorem early_cancel_consistent : ∃ x last,
    runSteps (Execution.step ⟨"r"⟩) (.begin pingRepo) earlyCancel = some x ∧
      x.repo.runs.get? ⟨"r"⟩ = some last ∧ ((last.status = .succeeded ↔ last.errorMessage = none) ↔
        Along (Execution.step ⟨"r"⟩) (fun y e => ¬ BetweenReads y e) (.begin pingRepo) earlyCancel) :=
  ⟨_, _, rfl, rfl, @final_record_consistent_iff ⟨"r"⟩ _ pingRepo pingRun rfl rfl earlyCancel rfl _ rfl (by decide)⟩

end Execution

end SmartTest.Load
