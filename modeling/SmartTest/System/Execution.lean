import SmartTest.System.Ownership

/-!
# `execute` under the rules of the calls

The phases of `RunnerManager.execute` among all other calls. A run that the manager must
end is over when it returns or raises, and without a scheduler the run is over whenever it
returns.
-/

open SmartTest.Lib SmartTest.Lib.Prog SmartTest.Run SmartTest.Run.RunRepository SmartTest.Plan

namespace SmartTest.System

variable {pid : Nat} {call : Call} {task : TaskEnvelope}

/-! ## Operations on the owned attempt -/

theorem leased_of_live {w : World} (hc : Consistent w) {a : UUID} {attempt : AttemptRecord}
    (hget : w.runs.attempts.get? a = some attempt) (hlive : attempt.state.terminal = false) :
    attempt.state.leased = true := by
  have hbegun := (hc.attempts a attempt hget).begun
  revert hlive hbegun
  cases attempt.state <;> simp [AttemptState.terminal, ATTEMPT_TERMINAL, AttemptState.leased, ATTEMPT_LEASED]

/-- A step of the owner that leaves runs and attempts alone. -/
theorem Owns.same {T : Prop → AttemptState → RunState → Nat → Prop} {label : Label} {x y : World × History}
    (hx : Owns pid call task T x) (hinv : Invariant x) (h : Acts pid call label x y)
    (hsame : SameTask (x.2.notes pid) (y.2.notes pid)) (hruns : y.1.runs.runs = x.1.runs.runs)
    (hattempts : y.1.runs.attempts = x.1.runs.attempts) : Owns pid call task T y := by
  refine hx.step hinv h hsame ?_
  intro attempt run attempt' run' hget hrun hwait hrel hget' hrun'
  rw [hruns, hrun] at hrun'
  cases hrun'
  rw [hattempts, hget] at hget'
  cases hget'
  exact ⟨hwait, hrel⟩

/-- The owner moves its attempt on. -/
theorem attemptWrite_moved {T : Prop → AttemptState → RunState → Nat → Prop} {x : World × History}
    (hinv : Invariant x) (hx : Owns pid call task T x) {attempt : AttemptRecord} {target : AttemptState}
    (hget : x.1.runs.attempts.get? task.attemptId = some attempt)
    (hmem : target ∈ ATTEMPT_TRANSITIONS attempt.state) (htarget : target ≠ .lost) :
    AttemptWrite (x.2.notes pid) task.attemptId attempt (attempt.moved target) := by
  obtain ⟨known, -, hknown, hrunId, -⟩ := hx.attempt
  rw [hget] at hknown
  cases hknown
  refine ⟨by rw [hrunId]; exact hx.begun, .inl hmem, htarget, attempt.moved_same target, fun _ => ?_⟩
  have hlive : attempt.state.terminal = false := by
    rw [← Bool.not_eq_true]
    exact fun hterm => attempt_transitions_terminal hterm hmem
  exact (hinv.consistent.attempts _ _ hget).lease (leased_of_live hinv.consistent hget hlive)

theorem transitionAttempt_owned {S : AttemptState → Prop} {target : AttemptState}
    (htarget : target.leased = true) : Triple (rules pid call) (Owns pid call task (Working S))
      (transitionAttempt task.attemptId target) (fun _ => Owns pid call task (Working (· = target)))
      fun _ => Owns pid call task (Working S) := by
  have hlost : target ≠ .lost := by
    rintro rfl
    cases htarget
  refine op_acts (owns_stable (working_persists S)) fun w history hinv hx => ?_
  rcases World.onRuns_cases (fun w => w.runs.transitionAttempt task.attemptId target) w with
    ⟨e, -, heq⟩ | ⟨updated, runs, hok, heq⟩
  · rw [heq]
    have hchange : Change (history.notes pid) (.transitionAttempt task.attemptId target) w w := change_same (by simp) w
    exact ⟨hchange, trivial, hx.same hinv ⟨hchange, rfl, trivial⟩ (sameTask_noting rfl _ _ _) rfl rfl⟩
  · obtain ⟨attempt, hget, hmem, rfl, rfl⟩ := transitionAttempt_ok hok
    rw [heq]
    have hchange : Change (history.notes pid) (.transitionAttempt task.attemptId target) w { w with
        runs := { w.runs with attempts := w.runs.attempts.set task.attemptId (attempt.moved target) } } :=
      .attempt task.attemptId attempt _ hget (attemptWrite_moved hinv hx hget hmem hlost) (.inl htarget)
    refine ⟨hchange, trivial, hx.step hinv ⟨hchange, rfl, trivial⟩ (sameTask_noting rfl _ _ _) ?_⟩
    intro known run attempt' run' hknown hrun hwait hrel hget' hrun'
    simp only at hrun'
    rw [hrun] at hrun'
    cases hrun'
    rw [Dict.get?_set_self] at hget'
    cases hget'
    refine ⟨hwait, .inr ⟨?_, rfl⟩⟩
    simp only [hget] at hknown
    cases hknown
    rcases hrel with hold | ⟨hdue, -⟩
    · rw [hold] at hmem
      cases hmem
    · exact hdue

/-! ## Taking the run -/

/-- A manager with the task of a run's spec, before it began. -/
structure Hired (pid : Nat) (call : Call) (task : TaskEnvelope) (x : World × History) : Prop where
  engaged : Engaged pid call task.runId x
  spec : ∃ spec, x.1.plans.specsByRun.get? task.runId = some spec ∧
    spec.executionPolicy = task.executionPolicy
  notDue : ¬ Due pid call task.runId x

theorem hired_stable : Stable (rules pid call) (Hired pid call task) := by
  refine stable_of_foreign fun x y h hx => ?_
  obtain ⟨spec, hspec, hpolicy⟩ := hx.spec
  exact ⟨hx.engaged.congr h.sameTask, ⟨spec, (lasting_spec _ _).foreign h hspec, hpolicy⟩,
    by rw [due_congr h.sameTask]; exact hx.notDue⟩

theorem Hired.settled {x : World × History} (hx : Hired pid call task x) : Settled pid call task.runId x :=
  ⟨hx.engaged, fun hdue => absurd hdue hx.notDue⟩

theorem beginAttempt_owned (manager : Manager) : Triple (rules pid call) (Hired pid call task)
    (beginAttempt task.runId task.attemptId manager.runnerId manager.leaseSeconds)
    (fun _ => Owns pid call task (Working (· = .claimed))) fun _ => Settled pid call task.runId := by
  refine op_acts hired_stable fun w history hinv hx => ?_
  refine and_left_comm.mp ⟨hx.engaged.completed, ?_⟩
  rcases World.onRuns_cases (fun w => w.runs.beginAttempt task.runId task.attemptId manager.runnerId
    manager.leaseSeconds w.clock) w with ⟨e, -, heq⟩ | ⟨answer, runs, hok, heq⟩
  · rw [heq]
    have hchange : Change (history.notes pid) (.beginAttempt task.runId task.attemptId) w w :=
      change_same (by simp) w
    refine ⟨hchange, hx.settled.step hinv ⟨hchange, rfl, hx.engaged.completed⟩ ?_⟩
    rw [notes_observe_self]
    refine ⟨?_, rfl, Bool.or_false _⟩
    simp only [Notes.observe, Notes.nextBegun]
    cases w.runs.attempts.get? task.attemptId <;> simp
  · obtain ⟨run, claimed, hrun, hstate, hnew, hid, hrunId, hclaimed, hlease, -, rfl⟩ := beginAttempt_ok hok
    rw [heq]
    obtain ⟨spec, hspec, hpolicy⟩ := hx.spec
    have hbegin : AttemptBegin w task.runId task.attemptId run claimed :=
      ⟨hrun, hstate, hnew, hid, hrunId, hclaimed, by simp [hlease], by simp [hspec]⟩
    refine ⟨.begin _ _ run claimed rfl hbegin, ?_⟩
    have hbegun : (((history.observe pid ⟨.beginAttempt task.runId task.attemptId, w, { w with
        runs := { w.runs with runs := w.runs.runs.set task.runId (run.moved .running)
                              attempts := w.runs.attempts.set task.attemptId claimed } }⟩).notes pid).begun) =
        some (task.runId, task.attemptId) := by
      simp [notes_observe_self, Notes.observe, Notes.nextBegun, hnew]
    refine ⟨⟨?_, ?_, ?_, ?_⟩, hbegun, ⟨spec, hspec, hpolicy⟩, claimed, run.moved .running, ?_, ?_, ?_, .inr ⟨?_, hclaimed⟩⟩
    · intro r a hb
      rw [hbegun] at hb
      cases hb
      rfl
    · rw [notes_observe_self]
      exact (Bool.or_false _).trans hx.engaged.completed
    · rw [notes_observe_self]
      exact hx.engaged.mine
    · rw [notes_observe_self]
      exact hx.engaged.only
    · simp [current_set_new hnew, hrunId]
    · simp
    · exact not_waiting_running
    · rw [Due, notes_observe_self]
      exact hx.notDue

theorem startAttempt_owned (manager : Manager) : Triple (rules pid call) (Hired pid call task)
    (manager.startAttempt task) (fun _ => Owns pid call task (Working (· = .running)))
    fun _ => Settled pid call task.runId := by
  have hmove : ∀ {S : AttemptState → Prop} {target : AttemptState}, target.leased = true →
      Triple (rules pid call) (Owns pid call task (Working S)) (transitionAttempt task.attemptId target)
        (fun _ => Owns pid call task (Working (· = target))) fun _ => Settled pid call task.runId :=
    fun h => (transitionAttempt_owned h).weaken (fun _ _ h => h) (fun _ _ _ h => h) fun _ _ hinv h => h.settled hinv
  refine Triple.bind (Q := fun _ => Hired pid call task)
    (get_acts hired_stable (fun _ _ _ h _ => h) fun _ _ _ h _ => h.settled) fun run => ?_
  split
  · exact Triple.raise fun _ _ h => h.settled
  · split
    · exact Triple.raise fun _ _ h => h.settled
    · refine Triple.bind (Q := fun _ => Owns pid call task (Working (· = .claimed))) ?_ fun attempt => ?_
      · refine Triple.bind ((beginAttempt_owned manager).handle fun e => ?_) fun p => Triple.ret fun _ _ h => h
        split <;> exact Triple.raise fun _ _ h => h
      · split
        · exact Triple.raise fun _ hinv h => h.settled hinv
        · refine (hmove rfl).bind fun _ => ?_
          exact (hmove rfl).bind fun _ => Triple.ret fun _ _ h => h

/-! ## Running the executor -/

theorem executorStep_owned {manager : Manager} {label : Label} {act : World → World}
    (hstep : ExecutorStep manager task label act) {S : AttemptState → Prop} {x : World × History}
    (hinv : Invariant x) (hx : Owns pid call task (Working S) x) :
    Acts pid call label x ((rules pid call).after label act x) ∧
      Owns pid call task (Working S) ((rules pid call).after label act x) := by
  obtain ⟨w, history⟩ := x
  cases hstep with
  | renew =>
    rcases renewLease_cases manager task.attemptId w with heq | ⟨old, new, hget, hleased, hstate, hsame, hlease, heq⟩
    · have hacts : Acts pid call (.renewAttemptLease task.attemptId) (w, history)
          ((rules pid call).after (.renewAttemptLease task.attemptId) (renewLease manager task.attemptId) (w, history)) :=
        ⟨by simp only [Rules.after, heq]; exact change_same (by simp) w, rfl, trivial⟩
      refine ⟨hacts, hx.same hinv hacts (sameTask_noting rfl _ _ _) ?_ ?_⟩ <;> simp only [Rules.after, heq]
    · obtain ⟨known, -, hknown, hrunId, -⟩ := hx.attempt
      simp only [hget] at hknown
      cases hknown
      have hwrite : AttemptWrite (history.notes pid) task.attemptId old new := by
        refine ⟨by rw [hrunId]; exact hx.begun, .inr ⟨hleased, hstate⟩, ?_, hsame, fun _ => hlease⟩
        rw [hstate]
        rintro hlost
        simp [hlost, AttemptState.leased, ATTEMPT_LEASED] at hleased
      have hacts : Acts pid call (.renewAttemptLease task.attemptId) (w, history)
          ((rules pid call).after (.renewAttemptLease task.attemptId) (renewLease manager task.attemptId) (w, history)) :=
        ⟨by simp only [Rules.after, heq]; exact .attempt _ old new hget hwrite (.inl (hstate ▸ hleased)), rfl, trivial⟩
      refine ⟨hacts, hx.step hinv hacts (sameTask_noting rfl _ _ _) ?_⟩
      intro attempt run attempt' run' hknown' hrun hwait hrel hget' hrun'
      simp only [Rules.after, heq] at hget' hrun'
      rw [hrun] at hrun'
      cases hrun'
      rw [Dict.get?_set_self] at hget'
      cases hget'
      simp only [hget] at hknown'
      cases hknown'
      rw [hstate]
      exact ⟨hwait, hrel⟩
  | append event =>
    obtain ⟨runs, heq, hruns, hattempts, -⟩ := storeEvent_cases event w
    have hacts : Acts pid call (.appendEvent event) (w, history)
        ((rules pid call).after (.appendEvent event) (storeEvent event) (w, history)) :=
      ⟨by simp only [Rules.after, heq]; exact .quiet hruns hattempts rfl rfl (.of_services rfl (by simp)), rfl, trivial⟩
    refine ⟨hacts, hx.same hinv hacts (sameTask_noting rfl _ _ _) ?_ ?_⟩ <;> simp only [Rules.after, heq]
    · exact hruns
    · exact hattempts

theorem runExecutor_owned (manager : Manager) (behaviour : Behaviour) : Triple (rules pid call)
    (Owns pid call task (Working (· = .running))) (manager.runExecutor task behaviour)
    (fun p x => Owns pid call task (Working (· = .running)) x ∧ Names task p.1)
    fun _ => Settled pid call task.runId := by
  have hstable : Stable (rules pid call) (Owns pid call task (Working (· = .running))) :=
    owns_stable (working_persists _)
  have hrun : Triple (rules pid call) (Owns pid call task (Working (· = .running)))
      (manager.runBehaviour task behaviour) (fun _ => Owns pid call task (Working (· = .running)))
      fun _ => Owns pid call task (Working (· = .running)) :=
    Triple.of_all (runBehaviour_all manager task behaviour) hstable
      fun label act hstep x hinv hx _ => executorStep_owned hstep hinv hx
  refine Triple.handle (E := fun _ => Owns pid call task (Working (· = .running))) ?_ fun e => ?_
  · refine hrun.bind fun result => ?_
    refine Triple.bind (Q := fun _ x => Owns pid call task (Working (· = .running)) x ∧ Names task result)
      ?_ fun _ => Triple.ret fun _ _ h => h
    unfold validateResult validateIdentity
    split
    · exact Triple.raise fun _ _ h => h
    · next hsame =>
      simp only [ne_eq, not_or, not_not] at hsame
      exact Triple.ret fun _ _ h => ⟨h, hsame.2.1, hsame.1⟩
  · unfold infraResult
    refine Triple.bind (Q := fun result x => Owns pid call task (Working (· = .running)) x ∧ Names task result)
      (Triple.bind ((read_skip hstable).weaken (fun _ _ h => h) (fun _ _ _ h => h)
        fun _ _ hinv h => h.settled hinv) fun now => Triple.ret fun _ _ h => ⟨h, rfl, rfl⟩)
      fun result => Triple.ret fun _ _ h => h

theorem noticeCancel_owned {result : ResultEnvelope} (hnames : Names task result) :
    Triple (rules pid call) (Owns pid call task (Working (· = .running))) (Manager.noticeCancel task result)
      (fun answer x => Owns pid call task (Working (· = .running)) x ∧ Names task answer)
      fun _ => Settled pid call task.runId := by
  unfold Manager.noticeCancel
  split
  · refine Triple.bind ((read_skip (owns_stable (working_persists _))).weaken (fun _ _ h => h) (fun _ _ _ h => h)
      fun _ _ hinv h => h.settled hinv) fun run => ?_
    split
    · exact Triple.ret fun _ _ h => ⟨h, rfl, rfl⟩
    · exact Triple.ret fun _ _ h => ⟨h, hnames⟩
  · exact Triple.ret fun _ _ h => ⟨h, hnames⟩

/-! ## Recording the result -/

/-- The attempt has the state of its result. A run that is due has one of the outcomes that lead on from
`CANCELLING`, too. -/
def Finished (task : TaskEnvelope) (result : ResultEnvelope) (scheduler : Bool) (due : Prop) (s : AttemptState)
    (t : RunState) (n : Nat) : Prop :=
  s = (RESULT_STATES result.outcome).1 ∧ (due → result.outcome ≠ .succeeded ∧
    (result.outcome = .cancelled → t = .cancelling ∨ t.terminal = true) ∧
    ¬ ((decideRetry task result n).shouldRetry = true ∧ scheduler = true))

theorem cancelling_or_terminal {t t' : RunState} (h : t = .cancelling ∨ t.terminal = true)
    (hmem : t' ∈ RUN_TRANSITIONS t) : t' = .cancelling ∨ t'.terminal = true := by
  rcases h with rfl | h
  · revert hmem
    cases t' <;> simp [RUN_TRANSITIONS, RunState.terminal, RUN_TERMINAL]
  · exact absurd hmem (run_transitions_terminal h)

theorem finished_persists (task : TaskEnvelope) (result : ResultEnvelope) (scheduler : Bool) :
    Persists (Finished task result scheduler) where
  run := by
    rintro due s t t' n ⟨hs, hdue⟩ hmem
    refine ⟨hs, fun h => ?_⟩
    obtain ⟨hsucc, hcancel, hretry⟩ := hdue h
    exact ⟨hsucc, fun ho => cancelling_or_terminal (hcancel ho) hmem, hretry⟩
  lost := by
    rintro due s t t' n ⟨rfl, -⟩ hleased -
    simp [terminal_not_leased (result_terminal _)] at hleased

theorem engaged_complete {x : World × History} (h : Engaged pid call task.runId x) (result : ResultEnvelope)
    (target : AttemptState) (scheduler : Bool) (w' : World) : Engaged pid call task.runId
      (w', x.2.observe pid ⟨.completeAttempt task result target scheduler, x.1, w'⟩) := by
  refine ⟨?_, ?_, ?_, ?_⟩ <;>
    simp only [notes_observe_self, Notes.observe, Notes.nextBegun, Notes.nextDuty]
  · exact h.begun
  · exact (Bool.or_false _).trans h.completed
  · refine h.mine.imp id fun hmem => ?_
    split
    · exact List.mem_append_left _ hmem
    · exact hmem
  · intro r hr
    split at hr
    · rcases List.mem_append.mp hr with hr | hr
      · exact h.only r hr
      · simpa using hr
    · exact h.only r hr

/-- What makes a run due when its attempt is completed. -/
theorem due_complete {x : World × History} {result : ResultEnvelope} {target : AttemptState} {scheduler : Bool}
    {w' : World} (h : Due pid call task.runId
      (w', x.2.observe pid ⟨.completeAttempt task result target scheduler, x.1, w'⟩))
    (hnot : ¬ Due pid call task.runId x) : endsRun x.1 task result scheduler = true := by
  simp only [Due, notes_observe_self, Notes.observe, Notes.nextDuty] at h hnot
  split at h
  · next hends => exact hends
  · exact absurd h hnot

theorem isCancelling_iff {w : World} {r : UUID} {run : RunRecord} (hrun : w.runs.runs.get? r = some run) :
    isCancelling w r = true ↔ run.state = .cancelling := by
  simp [isCancelling, runState?, hrun]

theorem completeAttempt_owned {result : ResultEnvelope} (hnames : Names task result) (scheduler : Bool) :
    Triple (rules pid call) (Owns pid call task (Working (· = .collecting)))
      (completeAttempt task result (RESULT_STATES result.outcome).1 scheduler)
      (fun _ => Owns pid call task (Finished task result scheduler))
      fun _ => Owns pid call task (Working fun _ => False) := by
  refine op_acts (owns_stable (working_persists _)) fun w history hinv hx => ?_
  have hknows : Knows call (history.notes pid) history w
      (.completeAttempt task result (RESULT_STATES result.outcome).1 scheduler) := ⟨hx.begun, hx.engaged.mine⟩
  refine and_left_comm.mp ⟨hknows, ?_⟩
  obtain ⟨attempt, run, hget, hrunId, hrun, hcurrent, hrel⟩ := hx.attempt
  simp only at hget hrun
  have hid := (hinv.consistent.attempts _ _ hget).id
  have hbegun : ∀ w', ((history.observe pid ⟨.completeAttempt task result (RESULT_STATES result.outcome).1
      scheduler, w, w'⟩).notes pid).begun = some (task.runId, task.attemptId) := by
    intro w'
    rw [notes_observe_self]
    exact hx.begun
  rcases hrel with hlost | ⟨hdue, hstate⟩
  · have hnot : (RESULT_STATES result.outcome).1 ∉ ATTEMPT_TRANSITIONS attempt.state := by
      simp [hlost, ATTEMPT_TRANSITIONS]
    obtain ⟨message, heq⟩ := completeAttempt_error hget (hnames.1.trans hid.symm) (hnames.2.trans hrunId.symm) hnot
    simp only [World.onRuns, heq]
    have hchange : Change (history.notes pid)
        (.completeAttempt task result (RESULT_STATES result.outcome).1 scheduler) w w := change_same (by simp) w
    refine ⟨hchange, hx.advance hinv ⟨hchange, rfl, hknows⟩ (engaged_complete hx.engaged ..) (hbegun _) ?_⟩
    intro known run' attempt' run'' hknown hrun' hwait _ hget' hrun''
    simp only [hget] at hknown hget'
    cases hknown
    cases hget'
    rw [hrun'] at hrun''
    cases hrun''
    exact ⟨hwait, .inl hlost⟩
  · have hmem : (RESULT_STATES result.outcome).1 ∈ ATTEMPT_TRANSITIONS attempt.state := by
      rw [hstate]
      cases result.outcome <;> decide
    obtain ⟨updated, hupdated, hsame, heq⟩ := completeAttempt_of_mem hget (hnames.1.trans hid.symm)
      (hnames.2.trans hrunId.symm) hmem
    simp only [World.onRuns, heq]
    have hwrite : AttemptWrite (history.notes pid) task.attemptId attempt updated := by
      refine ⟨by rw [hrunId]; exact hx.begun, .inl (hupdated ▸ hmem), ?_, hsame, ?_⟩
      · rw [hupdated]
        cases result.outcome <;> simp [RESULT_STATES]
      · simp [hupdated, terminal_not_leased (result_terminal _)]
    have hchange : Change (history.notes pid)
        (.completeAttempt task result (RESULT_STATES result.outcome).1 scheduler) w { w with
          runs := { w.runs with attempts := w.runs.attempts.set task.attemptId updated } } :=
      .attempt _ attempt updated hget hwrite (.inr ⟨_, _, _, _, rfl⟩)
    refine ⟨hchange, hx.advance hinv ⟨hchange, rfl, hknows⟩ (engaged_complete hx.engaged ..) (hbegun _) ?_⟩
    intro known run' attempt' run'' hknown hrun' hwait _ hget' hrun''
    simp only [Dict.get?_set_self] at hget'
    cases hget'
    simp only [hrun] at hrun' hrun''
    cases hrun'
    cases hrun''
    refine ⟨hwait, hupdated, fun hdue' => ?_⟩
    have hends := due_complete (x := (w, history)) hdue' hdue
    simp only [endsRun, Bool.and_eq_true, Bool.or_eq_true, decide_eq_true_eq, Bool.not_eq_true', ne_eq,
      isCancelling_iff hrun, attemptsOf_eq, List.length_map, Bool.and_eq_false_iff] at hends
    obtain ⟨⟨hsucc, hcancel⟩, hretry⟩ := hends
    refine ⟨hsucc, fun ho => .inl (hcancel.resolve_left (not_not.mpr ho)), ?_⟩
    rintro ⟨h, hs⟩
    rcases hretry with hretry | hretry
    · rw [h] at hretry
      cases hretry
    · rw [hs] at hretry
      cases hretry

/-- A lost attempt, seen by its owner. -/
theorem getAttempt_owned {S : AttemptState → Prop} : Triple (rules pid call) (Owns pid call task (Working S))
    (getAttempt task.attemptId) (fun attempt x => Owns pid call task (Working S) x ∧
      (attempt.state = .lost → isTerminal x.1 task.runId = true)) fun _ => Settled pid call task.runId := by
  refine read_acts (owns_stable (working_persists S)) fun x hinv hx => ?_
  obtain ⟨attempt, run, hget, -, -, hcurrent, -⟩ := hx.attempt
  simp only [RunRepository.getAttempt, getAttemptLocked_ok_iff.mpr hget]
  exact ⟨hx, hinv.lost hcurrent⟩

/-- What `recordResult` leaves. -/
def RecordedOrLost (pid : Nat) (call : Call) (task : TaskEnvelope) (result : ResultEnvelope)
    (scheduler recorded : Bool) (x : World × History) : Prop :=
  if recorded then Owns pid call task (Finished task result scheduler) x
  else Settled pid call task.runId x ∧ isTerminal x.1 task.runId = true

theorem recordResult_owned (manager : Manager) {result : ResultEnvelope} (hnames : Names task result) :
    Triple (rules pid call) (Owns pid call task (Working (· = .running))) (manager.recordResult task result)
      (RecordedOrLost pid call task result manager.retryScheduler.isSome)
      fun _ => Settled pid call task.runId := by
  refine getAttempt_owned.bind fun attempt => ?_
  split
  · next hlost => exact Triple.ret fun x hinv hx => ⟨hx.1.settled hinv, hx.2 hlost⟩
  · refine Triple.handle (E := fun _ => Owns pid call task (Working fun s => s = .running ∨ s = .collecting))
      (Triple.weaken (P := Owns pid call task (Working (· = .running))) ?_ (fun _ _ h => h.1)
        (fun _ _ _ h => h) fun _ _ _ h => h) fun e => ?_
    · have hwiden : ∀ {S : AttemptState → Prop} {x : World × History},
          (∀ s, S s → s = .running ∨ s = .collecting) → Owns pid call task (Working S) x →
          Owns pid call task (Working fun s => s = .running ∨ s = .collecting) x :=
        fun hS hx => hx.weaken fun _ _ _ _ h => h.imp id fun h => ⟨h.1, hS _ h.2⟩
      refine Triple.bind ((transitionAttempt_owned rfl).weaken (fun _ _ h => h) (fun _ _ _ h => h)
        fun _ _ _ h => hwiden (fun _ => .inl) h) fun _ => ?_
      refine Triple.bind ((completeAttempt_owned hnames _).weaken (fun _ _ h => h) (fun _ _ _ h => h)
        fun _ _ _ h => hwiden (fun _ => False.elim) h) fun _ => Triple.ret fun _ _ h => h
    · split
      · exact Triple.raise fun _ hinv h => h.settled hinv
      · refine getAttempt_owned.bind fun again => ?_
        split
        · next hlost => exact Triple.ret fun x hinv hx => ⟨hx.1.settled hinv, hx.2 hlost⟩
        · exact Triple.raise fun _ hinv h => h.1.settled hinv

/-! ## Ending the run -/

/-- The states of a completed attempt and of a run about to be ended with its result. -/
def Ending (result : ResultEnvelope) (due : Prop) (s : AttemptState) (t : RunState) (_ : Nat) : Prop :=
  s = (RESULT_STATES result.outcome).1 ∧ (due → result.outcome ≠ .succeeded ∧
    (result.outcome = .cancelled → t = .cancelling ∨ t.terminal = true))

theorem ending_persists (result : ResultEnvelope) : Persists (Ending result) where
  run := by
    rintro due s t t' n ⟨hs, hdue⟩ hmem
    exact ⟨hs, fun h => ⟨(hdue h).1, fun ho => cancelling_or_terminal ((hdue h).2 ho) hmem⟩⟩
  lost := by
    rintro due s t t' n ⟨rfl, -⟩ hleased -
    simp [terminal_not_leased (result_terminal _)] at hleased

theorem ending_guard {result : ResultEnvelope} {x : World × History} {run : RunRecord}
    (hx : Owns pid call task (Ending result) x) :
    MoveGuard (x.2.notes pid) x.1 task.runId run (RESULT_STATES result.outcome).2 := by
  obtain ⟨attempt, run, -, -, -, hcurrent, hstate, -⟩ := hx.attempt
  refine ⟨?_, ?_, fun hsucc => ⟨task.attemptId, attempt, hx.begun, hcurrent, ?_⟩, ?_⟩
  · cases result.outcome <;> simp [RESULT_STATES]
  · cases result.outcome <;> simp [RESULT_STATES]
  · rw [hstate]
    revert hsucc
    cases result.outcome <;> simp [RESULT_STATES]
  · cases result.outcome <;> simp [RESULT_STATES]

/-- An owner of a completed attempt may end the run. -/
theorem Owns.knows {T : Prop → AttemptState → RunState → Nat → Prop} {x : World × History} {target : RunState}
    (hx : Owns pid call task T x) (hT : ∀ due s t n, T due s t n → s.terminal = true)
    (htarget : target ≠ .retryWait) :
    KnowsRun call (x.2.notes pid) x.2 x.1 task.runId target .manager := by
  obtain ⟨attempt, run, -, -, -, hcurrent, hrel⟩ := hx.attempt
  exact ⟨task.attemptId, hx.begun, .inr ⟨htarget, attempt, hcurrent, hT _ _ _ _ hrel⟩⟩

theorem ending_terminal {result : ResultEnvelope} (due : Prop) (s : AttemptState) (t : RunState) (n : Nat)
    (h : Ending result due s t n) : s.terminal = true := h.1 ▸ result_terminal _

/-- A run that is held or over and cannot end so is over. -/
theorem terminal_of_refused {T : Prop → AttemptState → RunState → Nat → Prop} {x : World × History}
    {target : RunState} {e : Exn} (hx : Owns pid call task T x) (hrefused : Refused x.1 task.runId target e)
    (hT : ∀ due s t n, T due s t n → due → ¬ Waiting t → target ∉ RUN_TRANSITIONS t → t.terminal = true)
    (hdue : Due pid call task.runId x) : isTerminal x.1 task.runId = true := by
  obtain ⟨-, -, -, attempt, run, -, hrun, hwait, hrel⟩ := hx
  exact isTerminal_iff.mpr ⟨run, hrun, hT _ _ _ _ hrel hdue hwait (hrefused run hrun).1⟩

theorem passCancelling_owned {result : ResultEnvelope} : Triple (rules pid call)
    (Owns pid call task (Ending result)) (Manager.passCancelling task (RESULT_STATES result.outcome).2)
    (fun _ => Owns pid call task (Ending result)) fun _ => Settled pid call task.runId := by
  unfold Manager.passCancelling
  split
  · next hcancelled =>
    have houtcome : result.outcome = .cancelled := by
      revert hcancelled
      cases result.outcome <;> simp [RESULT_STATES]
    refine Triple.bind (Q := fun run x => Owns pid call task (Ending result) x ∧
      (run.state ≠ .cancelling → Settled pid call task.runId x)) (get_acts (owns_stable (ending_persists _)) ?_ ?_)
      fun current => ?_
    · intro x run _ hx hrun
      refine ⟨hx, fun hne => ⟨hx.engaged, fun hdue => ?_⟩⟩
      obtain ⟨attempt, run', -, -, hrun', -, -, hrel⟩ := hx.attempt
      rw [hrun] at hrun'
      cases hrun'
      exact isTerminal_iff.mpr ⟨run, hrun, ((hrel hdue).2 houtcome).resolve_left hne⟩
    · intro x e _ hx hnone
      obtain ⟨attempt, run', -, -, hrun', -⟩ := hx.attempt
      rw [hnone] at hrun'
      cases hrun'
    · split
      · next hne =>
        refine Triple.bind (Q := fun _ => Owns pid call task (Ending result)) ?_ fun _ => Triple.ret fun _ _ h => h
        refine Triple.weaken (P := fun x => Owns pid call task (Ending result) x ∧ Settled pid call task.runId x)
          ?_ (fun _ _ h => ⟨h.1, h.2 hne⟩) (fun _ _ _ h => h) fun _ _ _ h => h
        have hguard : ∀ x run, Invariant x → (Owns pid call task (Ending result) x ∧
            Settled pid call task.runId x) → x.1.runs.runs.get? task.runId = some run →
            .cancelling ∈ RUN_TRANSITIONS run.state →
            MoveGuard (x.2.notes pid) x.1 task.runId run .cancelling :=
          fun _ _ _ _ _ _ => moveGuard_plain (by simp)
        refine transition_acts (stable_and (owns_stable (ending_persists _)) (settled_stable _)) rfl
          (fun x _ h => h.1.knows ending_terminal (by simp)) hguard ?_ ?_
        · intro x run hinv hx hrun hmem
          have hbefore : isCancelling x.1 task.runId = false := by
            rw [← Bool.not_eq_true, isCancelling_iff hrun]
            intro hstate
            simp [hstate, RUN_TRANSITIONS] at hmem
          have hstored : (x.1.movedRun task.runId run .cancelling).runs.runs.get? task.runId =
              some (run.moved .cancelling) := by
            simp [World.movedRun]
          have hafter : isCancelling (x.1.movedRun task.runId run .cancelling) task.runId = true :=
            (isCancelling_iff hstored).mpr rfl
          have hacts : Acts pid call (.transition .manager task.runId .cancelling) x
              (x.1.movedRun task.runId run .cancelling,
                noting pid (.transition .manager task.runId .cancelling) x.2 x.1
                  (x.1.movedRun task.runId run .cancelling)) :=
            ⟨.move _ run _ (.inr ⟨_, rfl⟩) hrun hmem (hguard x run hinv hx hrun hmem), rfl, rfl,
              hx.1.knows ending_terminal (by simp)⟩
          have hduty : ((noting pid (.transition .manager task.runId .cancelling) x.2 x.1
              (x.1.movedRun task.runId run .cancelling)).notes pid).duty =
              (x.2.notes pid).duty ++ [task.runId] := by
            simp [noting, notes_observe_self, Notes.observe, Notes.nextDuty, hbefore, hafter]
          have hbegun : ((noting pid (.transition .manager task.runId .cancelling) x.2 x.1
              (x.1.movedRun task.runId run .cancelling)).notes pid).begun = (x.2.notes pid).begun := by
            simp [noting, notes_observe_self, Notes.observe, Notes.nextBegun]
          refine hx.1.advance hinv hacts ⟨?_, ?_, ?_, ?_⟩ (hbegun.trans hx.1.begun) ?_
          · rw [hbegun]
            exact hx.1.engaged.begun
          · rw [noting, notes_observe_self]
            exact (Bool.or_false _).trans hx.1.engaged.completed
          · rw [hduty]
            exact .inr (by simp)
          · rw [hduty]
            intro r hr
            rcases List.mem_append.mp hr with hr | hr
            · exact hx.1.engaged.only r hr
            · simpa using hr
          · intro attempt run' attempt' run'' hget hrun' hwait hrel hget' hrun''
            simp only [World.movedRun, Dict.get?_set_self] at hget' hrun''
            cases hrun''
            rw [hget] at hget'
            cases hget'
            exact ⟨by simp [Waiting, RunRecord.moved], hrel.1, fun _ => ⟨by simp [houtcome], fun _ => .inl rfl⟩⟩
        · intro x e hinv hx hrefused
          have hacts : Acts pid call (.transition .manager task.runId .cancelling) x
              (x.1, noting pid (.transition .manager task.runId .cancelling) x.2 x.1 x.1) :=
            ⟨change_same (by simp) _, rfl, rfl, hx.1.knows ending_terminal (by simp)⟩
          refine hx.2.step hinv hacts ?_
          rw [noting, notes_observe_self]
          refine ⟨rfl, ?_, Bool.or_false _⟩
          cases hc : isCancelling x.1 task.runId <;> simp [Notes.observe, Notes.nextDuty, hc]
      · exact Triple.ret fun _ _ h => h.1
  · exact Triple.ret fun _ _ h => h

section Settle

variable {manager : Manager}
  (hcelery : ∀ dispatcher, manager.completionCallback = some dispatcher → dispatcher.isCelery = true →
    call.usesCelery = true)

/-- The run is over, and the call knows what it had to end. -/
def Over (pid : Nat) (call : Call) (r : UUID) (x : World × History) : Prop :=
  Settled pid call r x ∧ isTerminal x.1 r = true

theorem over_aside (r : UUID) : Aside pid call (Over pid call r) :=
  ⟨stable_and (settled_stable r) (lasting_terminal r).stable, fun _ _ _ hinv h hsame hx =>
    ⟨hx.1.step hinv h hsame, (lasting_terminal r).acts hinv h hx.2⟩⟩

include hcelery

theorem notifyCompletion_over (r : UUID) : Triple (rules pid call) (Over pid call r)
    (manager.notifyCompletion r) (fun _ => Over pid call r) fun _ => Settled pid call r := by
  unfold Manager.notifyCompletion
  split
  · exact Triple.ret fun _ _ h => h
  · next dispatcher hcallback =>
    have hframe : Triple (rules pid call) (Over pid call r) (onRunFinished dispatcher r)
        (fun _ => Over pid call r) fun _ => Over pid call r :=
      onRunFinished_aside (hcelery dispatcher hcallback) r (over_aside r)
    exact Triple.handle (hframe.bind fun _ => Triple.ret fun _ _ h => h) fun _ => Triple.ret fun _ _ h => h

theorem endRun_over {P : World × History → Prop} {target : RunState} (hP : Stable (rules pid call) P)
    (hterm : target.terminal = true) (hengaged : ∀ x, P x → Engaged pid call task.runId x)
    (hknows : ∀ x, Invariant x → P x → KnowsRun call (x.2.notes pid) x.2 x.1 task.runId target .manager)
    (hguard : ∀ x run, Invariant x → P x → x.1.runs.runs.get? task.runId = some run →
      target ∈ RUN_TRANSITIONS run.state → MoveGuard (x.2.notes pid) x.1 task.runId run target)
    (hdue : ∀ x e, P x → Due pid call task.runId x → Refused x.1 task.runId target e →
      isTerminal x.1 task.runId = true) :
    Triple (rules pid call) P (manager.endRun task target) (fun _ => Over pid call task.runId)
      fun _ => Settled pid call task.runId := by
  have hplain : (Label.transition .manager task.runId target).plain = true := by
    revert hterm
    cases target <;> simp [Label.plain, RunState.terminal, RUN_TERMINAL]
  refine Triple.bind (Q := fun _ => Over pid call task.runId) (transition_acts hP ?_ hknows hguard ?_ ?_)
    fun _ => notifyCompletion_over hcelery task.runId
  · simp [Site.asks, hterm]
  · intro x run hinv hx hrun hmem
    have hover : isTerminal (x.1.movedRun task.runId run target) task.runId = true :=
      isTerminal_iff.mpr ⟨run.moved target, by simp [World.movedRun], hterm⟩
    exact ⟨⟨(hengaged x hx).congr (sameTask_noting hplain _ _ _), fun _ => hover⟩, hover⟩
  · intro x e hinv hx hrefused
    refine ⟨(hengaged x hx).congr (sameTask_noting hplain _ _ _), fun h => ?_⟩
    rw [noting, due_congr (sameTask_noting hplain _ _ _)] at h
    exact hdue x e hx h hrefused

theorem endRun_result {result : ResultEnvelope} : Triple (rules pid call) (Owns pid call task (Ending result))
    (manager.endRun task (RESULT_STATES result.outcome).2) (fun _ => Over pid call task.runId)
    fun _ => Settled pid call task.runId := by
  refine endRun_over hcelery (owns_stable (ending_persists _)) ?_ (fun _ h => h.engaged) ?_
    (fun _ _ _ h _ _ => ending_guard h) ?_
  · cases result.outcome <;> rfl
  · refine fun x _ h => h.knows ending_terminal ?_
    cases result.outcome <;> simp [RESULT_STATES]
  · intro x e hx hdue hrefused
    refine terminal_of_refused hx hrefused ?_ hdue
    rintro due s t n ⟨-, hends⟩ hdue' hwait hmem
    obtain ⟨hsucc, hcancel⟩ := hends hdue'
    revert hsucc hcancel hwait hmem
    cases result.outcome <;> cases t <;>
      simp [RESULT_STATES, RUN_TRANSITIONS, Waiting, RunState.terminal, RUN_TERMINAL]

/-- The retry was decided and the run is in `RETRY_WAIT`: the manager has nothing to end. -/
structure Dismissed (pid : Nat) (call : Call) (task : TaskEnvelope) (x : World × History) : Prop where
  engaged : Engaged pid call task.runId x
  begun : (x.2.notes pid).begun = some (task.runId, task.attemptId)
  notDue : ¬ Due pid call task.runId x

omit hcelery in
theorem dismissed_stable : Stable (rules pid call) (Dismissed pid call task) :=
  stable_of_foreign fun _ _ h hx => ⟨hx.engaged.congr h.sameTask, h.sameTask.begun.trans hx.begun,
    by rw [due_congr h.sameTask]; exact hx.notDue⟩

omit hcelery in
theorem Dismissed.settled {x : World × History} (h : Dismissed pid call task x) :
    Settled pid call task.runId x := ⟨h.engaged, fun hdue => absurd hdue h.notDue⟩

/-- A completed attempt after which a retry is due. -/
def Retrying (task : TaskEnvelope) (result : ResultEnvelope) (scheduler : Bool) (due : Prop) (s : AttemptState)
    (t : RunState) (n : Nat) : Prop :=
  Finished task result scheduler due s t n ∧ (decideRetry task result n).shouldRetry = true

omit hcelery in
theorem retrying_persists (task : TaskEnvelope) (result : ResultEnvelope) (scheduler : Bool) :
    Persists (Retrying task result scheduler) where
  run := fun _ _ _ _ _ h hmem => ⟨(finished_persists ..).run _ _ _ _ _ h.1 hmem, h.2⟩
  lost := fun _ _ _ _ _ h hleased hterm => ⟨(finished_persists ..).lost _ _ _ _ _ h.1 hleased hterm, h.2⟩

theorem retryLater_settled {result : ResultEnvelope} (schedule : UUID → Nat → Option Exn) (delay : Nat)
    (hsched : call.hasScheduler = true) : Triple (rules pid call)
    (Owns pid call task (Retrying task result true)) (manager.retryLater task schedule delay)
    (fun _ => Settled pid call task.runId) fun _ => Settled pid call task.runId := by
  have hnotDue : ∀ x, Owns pid call task (Retrying task result true) x → ¬ Due pid call task.runId x := by
    intro x hx hdue
    obtain ⟨attempt, run, -, -, -, -, ⟨-, hends⟩, hretry⟩ := hx.attempt
    exact (hends hdue).2.2 ⟨hretry, rfl⟩
  have hdismissed : ∀ (x : World × History) (w' : World), Owns pid call task (Retrying task result true) x →
      Dismissed pid call task (w', noting pid (.transition .manager task.runId .retryWait) x.2 x.1 w') := by
    intro x w' hx
    have hsame : SameTask (x.2.notes pid)
        ((noting pid (.transition .manager task.runId .retryWait) x.2 x.1 w').notes pid) :=
      sameTask_noting rfl _ _ _
    refine ⟨hx.engaged.congr hsame, hsame.begun.trans hx.begun, fun h => hnotDue x hx ?_⟩
    rwa [due_congr (x := x) hsame] at h
  refine Triple.bind (Q := fun _ => Dismissed pid call task) (transition_acts (owns_stable (retrying_persists ..))
    rfl (fun x _ h => ⟨task.attemptId, h.begun, .inl hsched⟩) ?_ (fun x run _ h _ _ => hdismissed x _ h)
    fun x _ _ h _ => (hdismissed x _ h).settled) fun _ => ?_
  · intro x run hinv hx hrun _
    refine ⟨by simp, by simp, by simp, fun _ => ?_⟩
    obtain ⟨attempt, run', -, -, -, hcurrent, ⟨hstate, -⟩, hretry⟩ := hx.attempt
    obtain ⟨spec, hspec, hpolicy⟩ := hx.spec
    refine ⟨task.attemptId, attempt, hx.begun, hcurrent, hstate ▸ result_terminal _, ?_⟩
    simp only [attemptLimit, hspec, Option.map_some, Option.getD_some, hpolicy]
    exact (decideRetry_shouldRetry hretry).1
  · refine Triple.handle (E := fun _ => Dismissed pid call task) (mute_acts rfl dismissed_stable ?_) fun e => ?_
    · intro x _ hx
      cases schedule task.runId delay with
      | none => exact hx.settled
      | some e => exact hx
    · refine (endRun_over hcelery dismissed_stable rfl (fun _ h => h.engaged)
        (fun _ _ h => ⟨task.attemptId, h.begun, .inl hsched⟩) (fun _ _ _ _ _ _ => moveGuard_plain (by simp))
        fun _ _ h hdue _ => absurd hdue h.notDue).weaken (fun _ _ h => h) (fun _ _ _ h => h.1) fun _ _ _ h => h

/-- What `execute` leaves when it returns. -/
def Executed (pid : Nat) (call : Call) (r : UUID) (x : World × History) : Prop :=
  Settled pid call r x ∧ (call.hasScheduler = false → isTerminal x.1 r = true)

variable (hsched : manager.retryScheduler.isSome = true → call.hasScheduler = true)

include hsched

theorem settle_settled (result : ResultEnvelope) (identityError : Option Exn) : Triple (rules pid call)
    (Owns pid call task (Finished task result manager.retryScheduler.isSome))
    (manager.settle task result identityError) (fun _ => Executed pid call task.runId)
    fun _ => Settled pid call task.runId := by
  refine Triple.bind (Q := fun attempts => Owns pid call task fun due s t n =>
    Finished task result manager.retryScheduler.isSome due s t n ∧ n = attempts.length)
    (read_acts (owns_stable (finished_persists ..)) ?_) fun attempts => ?_
  · intro x _ hx
    obtain ⟨attempt, run, -, -, hrun, -⟩ := hx.attempt
    obtain ⟨attempts, heq, hlength⟩ := listAttempts_of_run hrun
    simp only [heq]
    obtain ⟨hengaged, hbegun, hspec, attempt, run, hcurrent, hrun, hwait, hrel⟩ := hx
    refine ⟨hengaged, hbegun, hspec, attempt, run, hcurrent, hrun, hwait, hrel, ?_⟩
    rw [hlength, attemptsOf_eq, List.length_map]
  · dsimp only
    split
    · next hretry =>
      cases hscheduler : manager.retryScheduler with
      | none =>
        refine Triple.bind (Q := fun _ => Over pid call task.runId) ?_ fun _ =>
          Triple.ret fun _ _ h => ⟨h.1, fun _ => h.2⟩
        refine Triple.weaken (P := Owns pid call task (Finished task result false)) ?_
          (fun _ _ h => h.weaken fun _ _ _ _ h => h.1) (fun _ _ _ h => h) fun _ _ _ h => h
        refine endRun_over hcelery (owns_stable (finished_persists ..)) rfl (fun _ h => h.engaged)
          (fun _ _ h => h.knows (fun _ _ _ _ h => h.1 ▸ result_terminal _) (by simp))
          (fun _ _ _ _ _ _ => moveGuard_plain (by simp)) ?_
        intro x e hx hdue hrefused
        refine terminal_of_refused hx hrefused (fun _ _ t _ _ _ hwait hmem => ?_) hdue
        revert hwait hmem
        cases t <;> simp [RUN_TRANSITIONS, Waiting, RunState.terminal, RUN_TERMINAL]
      | some schedule =>
        have hsched' : call.hasScheduler = true := hsched (by simp [hscheduler])
        refine Triple.bind (Q := fun _ => Settled pid call task.runId) ?_ fun _ =>
          Triple.ret fun _ _ h => ⟨h, by simp [hsched']⟩
        refine Triple.weaken (P := Owns pid call task (Retrying task result true))
          (retryLater_settled hcelery schedule _ hsched') (fun _ _ h => h.weaken ?_) (fun _ _ _ h => h)
          fun _ _ _ h => h
        rintro due s t n ⟨hfinished, rfl⟩
        exact ⟨hfinished, hretry⟩
    · refine Triple.weaken (P := Owns pid call task (Ending result)) ?_ (fun _ _ h => h.weaken ?_)
        (fun _ _ _ h => h) fun _ _ _ h => h
      · refine passCancelling_owned.bind fun _ => (endRun_result hcelery).bind fun _ => ?_
        split
        · exact Triple.raise fun _ _ h => h.1
        · exact Triple.ret fun _ _ h => ⟨h.1, fun _ => h.2⟩
      · rintro due s t n ⟨⟨hs, hends⟩, -⟩
        exact ⟨hs, fun h => ⟨(hends h).1, (hends h).2.1⟩⟩

theorem execute_settled (behaviour : Behaviour) : Triple (rules pid call) (Hired pid call task)
    (manager.execute task behaviour) (fun _ => Executed pid call task.runId)
    fun _ => Settled pid call task.runId := by
  refine (startAttempt_owned manager).bind fun _ => ?_
  refine (runExecutor_owned manager behaviour).bind fun p => Triple.assume fun hnames => ?_
  refine (noticeCancel_owned hnames).bind fun result => Triple.assume fun hnames => ?_
  refine (recordResult_owned manager hnames).bind fun recorded => ?_
  split
  · next hrec =>
    subst hrec
    exact settle_settled hcelery hsched result p.2
  · next hrec =>
    rw [Bool.not_eq_true] at hrec
    subst hrec
    refine Triple.bind (Q := fun _ => Over pid call task.runId) ?_ fun now =>
      Triple.ret fun _ _ h => ⟨h.1, fun _ => h.2⟩
    exact (read_skip (over_aside _).1).weaken (fun _ _ h => h) (fun _ _ _ h => h) fun _ _ _ h => h.1

end Settle

end SmartTest.System
