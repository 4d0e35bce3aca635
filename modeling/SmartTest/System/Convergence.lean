import SmartTest.System.Interference

/-!
# How `execute` ends

The phases of `RunnerManager.execute` as pre- and postconditions, among cancels and lease
expiry. A step of the manager is disturbed when it asks for a state that `CANCELLING` does
not lead to, or has just scheduled a retry, while the run is in `CANCELLING`.
-/

open SmartTest.Lib SmartTest.Lib.Prog SmartTest.Run SmartTest.Run.RunRepository SmartTest.Plan

namespace SmartTest.System

/-! ## What is noted of the steps -/

/-- A step of `execute` that a cancel got ahead of. -/
def Disturbs (task : TaskEnvelope) (seen : Seen Label World) : Prop :=
  (∃ run, seen.before.runs.runs.get? task.runId = some run ∧ run.state = .cancelling) ∧
    (seen.label = .transition .manager task.runId .succeeded ∨
      seen.label = .transition .manager task.runId .retryWait ∨
      seen.label = .transition .manager task.runId .cancelling ∨ seen.label = .schedule task.runId false)

def Disturbed (task : TaskEnvelope) (trace : Trace) : Prop := ∃ seen ∈ trace, Disturbs task seen

/-- `begin_attempt` succeeded. -/
def Begins (task : TaskEnvelope) (seen : Seen Label World) : Prop :=
  seen.label = .beginAttempt task.runId task.attemptId ∧
    seen.before.runs.attempts.get? task.attemptId = none ∧
    (seen.after.runs.attempts.get? task.attemptId).isSome

def Begun (task : TaskEnvelope) (trace : Trace) : Prop := ∃ seen ∈ trace, Begins task seen

theorem disturbed_append {task : TaskEnvelope} {trace : Trace} {seen : Seen Label World} :
    Disturbed task (trace ++ [seen]) ↔ Disturbed task trace ∨ Disturbs task seen := by
  simp [Disturbed, or_and_right, exists_or]

theorem begun_append {task : TaskEnvelope} {trace : Trace} {seen : Seen Label World} :
    Begun task (trace ++ [seen]) ↔ Begun task trace ∨ Begins task seen := by
  simp [Begun, or_and_right, exists_or]

/-- The attempt was begun and no step was disturbed so far. -/
def Calm (task : TaskEnvelope) (A : World → Prop) (x : World × Trace) : Prop :=
  A x.1 ∧ Begun task x.2 ∧ ¬ Disturbed task x.2

/-- The outcome of an operation and the state it leaves. -/
def Outcome {α : Type} (Q : α → World → Prop) (E : Exn → World → Prop) (r : Except Exn α × World) : Prop :=
  match r.1 with
  | .ok a => Q a r.2
  | .error e => E e r.2

variable {expiry : Bool} {task : TaskEnvelope}

def KeptByOthers (expiry : Bool) (A : World → Prop) : Prop :=
  ∀ w w', Filed w.runs → Others expiry w w' → A w → A w'

theorem KeptByOthers.stable {A : World → Prop} {G : Trace → Prop} (h : KeptByOthers expiry A) :
    Stable (managerRules expiry) fun x => A x.1 ∧ G x.2 := by
  rintro x y hx - ⟨hothers, htrace⟩ ⟨hA, hG⟩
  exact ⟨h _ _ hx hothers hA, htrace ▸ hG⟩

/-- One operation that is not disturbed. -/
theorem op_calm {α : Type} {label : Label} {f : World → Except Exn α × World} {A : World → Prop}
    {Q : α → World → Prop} {E : Exn → World → Prop} (hA : KeptByOthers expiry A)
    (h : ∀ w, Filed w.runs → A w → Filed (f w).2.runs ∧ ¬ Disturbs task ⟨label, w, (f w).2⟩ ∧
      Outcome Q E (f w)) :
    Triple (managerRules expiry) (Calm task A) (.op label f) (fun a => Calm task (Q a))
      fun e => Calm task (E e) := by
  refine Triple.op (hA.stable (G := fun trace => Begun task trace ∧ ¬ Disturbed task trace)) ?_
  rintro ⟨w, trace⟩ hf ⟨hAw, hbegun, hcalm⟩ -
  obtain ⟨hfiled, hnot, hout⟩ := h w hf hAw
  refine ⟨hfiled, ?_⟩
  have htrace : Begun task (trace ++ [⟨label, w, (f w).2⟩]) ∧
      ¬ Disturbed task (trace ++ [⟨label, w, (f w).2⟩]) :=
    ⟨begun_append.mpr (.inl hbegun), by rw [disturbed_append]; exact not_or.mpr ⟨hcalm, hnot⟩⟩
  simp only [Outcome] at hout
  cases hr : (f w).1 with
  | ok a =>
    rw [hr] at hout
    exact ⟨hout, htrace⟩
  | error e =>
    rw [hr] at hout
    exact ⟨hout, htrace⟩

theorem not_disturbs_of_label {seen : Seen Label World}
    (h : (∀ target, seen.label ≠ .transition .manager task.runId target) ∧
      seen.label ≠ .schedule task.runId false) : ¬ Disturbs task seen := by
  rintro ⟨-, hl | hl | hl | hl⟩
  · exact h.1 _ hl
  · exact h.1 _ hl
  · exact h.1 _ hl
  · exact h.2 hl

/-- A read. -/
theorem reading_calm {α : Type} {f : World → Except Exn α} {A : World → Prop} {Q : α → World → Prop}
    {E : Exn → World → Prop} (hA : KeptByOthers expiry A)
    (h : ∀ w, Filed w.runs → A w → Outcome Q E (f w, w)) :
    Triple (managerRules expiry) (Calm task A) (.op .read (World.reading f)) (fun a => Calm task (Q a))
      fun e => Calm task (E e) := by
  refine op_calm hA fun w hf hAw => ⟨hf, ?_, h w hf hAw⟩
  exact not_disturbs_of_label (by simp)

/-! ## The phases -/

/-- The attempt is in a state of `S` with its run held, or lost. -/
def Running (expiry : Bool) (task : TaskEnvelope) (S : AttemptState → Prop) (w : World) : Prop :=
  At task S Held w ∨ expiry = true ∧ Lost task w

theorem held_cancelling (s : RunState) (_ : Held s) (_ : .cancelling ∈ RUN_TRANSITIONS s) :
    Held .cancelling := .inr rfl

theorem running_kept (S : AttemptState → Prop) : KeptByOthers expiry (Running expiry task S) :=
  fun _ _ hf hothers h => At.others held_cancelling (fun _ _ _ _ ht => ht) hf hothers h

theorem lost_kept : KeptByOthers expiry fun w => expiry = true ∧ Lost task w := by
  intro w w' hf hothers h
  have hkept := At.others (S := fun _ => False) held_cancelling (fun _ _ _ _ ht => ht) hf hothers (.inr h)
  rcases hkept with ⟨_, _, _, hS, _⟩ | hlost
  · exact hS.elim
  · exact hlost

/-- A relation between the state of the attempt, the state of the run and the number of its attempts. -/
def Rests (task : TaskEnvelope) (T : AttemptState → RunState → Nat → Prop) (w : World) : Prop :=
  ∃ attempt run, Mine task w attempt run ∧ T attempt.state run.state (w.runs.attemptsOf task.runId).length

/-- An expiry keeps the number of attempts of a run. -/
theorem length_attemptsOf_expires {repo repo' : RunRepository} {cutoff : Instant}
    (h : ExpiresOne cutoff repo repo') (runId : UUID) :
    (repo'.attemptsOf runId).length = (repo.attemptsOf runId).length := by
  obtain ⟨b, old, new, hexp⟩ := h.expiry
  simp [attemptsOf_eq, hexp.attempts, entriesOf_set_old hexp.found hexp.same.runId]

/-- Once the attempt is over, others only cancel the run. -/
theorem rests_kept {T : AttemptState → RunState → Nat → Prop} (hterm : ∀ s t n, T s t n → s.terminal = true)
    (hcancel : ∀ s t n, T s t n → .cancelling ∈ RUN_TRANSITIONS t → T s .cancelling n) :
    KeptByOthers expiry (Rests task T) := by
  intro w w' hf hothers h
  refine (others_induct (P := Rests task T) ?_ ?_ ?_ hf hothers h).2
  · rintro w runId old - hold hmem ⟨attempt, run, hmine, hT⟩
    rcases hmine.cancelled hold hmem with hsame | ⟨hmem', hmoved⟩
    · exact ⟨attempt, run, hsame, hT⟩
    · exact ⟨attempt, _, hmoved, hcancel _ _ _ hT hmem'⟩
  · rintro w clock ⟨attempt, run, hmine, hT⟩
    exact ⟨attempt, run, hmine.congr rfl hmine.held, hT⟩
  · rintro w repo cutoff - hf hone ⟨attempt, run, hmine, hT⟩
    have hleased := terminal_not_leased (hterm _ _ _ hT)
    rcases hmine.expires hf hone with hsame | ⟨_, _, hl, -⟩
    · exact ⟨attempt, run, hsame, by rw [length_attemptsOf_expires hone]; exact hT⟩
    · simp [hleased] at hl

theorem filed_of_write {w : World} {runs : RunRepository} (hf : Filed w.runs) (h : runs.runs = w.runs.runs) :
    Filed runs := by
  intro r run hget
  rw [h] at hget
  exact hf r run hget

/-- The attempt moves on, unless it is lost. -/
theorem transitionAttempt_calm {S : AttemptState → Prop} {target : AttemptState}
    (hS : ∀ s, S s → target ∈ ATTEMPT_TRANSITIONS s) :
    Triple (managerRules expiry) (Calm task (Running expiry task S)) (transitionAttempt task.attemptId target)
      (fun _ => Calm task (Running expiry task (· = target)))
      fun e => Calm task fun w => e.kind = .invalidTransition ∧ expiry = true ∧ Lost task w := by
  refine op_calm (running_kept S) fun w hf hrun => ?_
  simp only [World.onRuns]
  rcases hrun with ⟨attempt, run, hmine, hs, hheld⟩ | ⟨hexp, attempt, run, hmine, hs, hheld⟩
  · rw [transitionAttempt_eq hmine.begun (hS _ hs)]
    refine ⟨filed_of_write hf rfl, not_disturbs_of_label (by simp), .inl ⟨attempt.moved target, run, ?_, rfl, hheld⟩⟩
    exact hmine.update (attempt.moved_same target) rfl hmine.held
  · obtain ⟨message, herr⟩ := transitionAttempt_error hmine.begun
      (show target ∉ ATTEMPT_TRANSITIONS attempt.state by simp [hs, ATTEMPT_TRANSITIONS])
    rw [herr]
    exact ⟨hf, not_disturbs_of_label (by simp), rfl, hexp, attempt, run, hmine, hs, hheld⟩

/-! ## Taking the run -/

/-- A run that waits to be executed has no attempt going. -/
def Ready (task : TaskEnvelope) (w : World) : Prop :=
  ∀ run, w.runs.runs.get? task.runId = some run → run.state = .dispatching →
    ∀ b other, w.runs.attempts.get? b = some other → other.runId = task.runId → other.state.terminal = true

theorem ready_kept : KeptByOthers expiry (Ready task) := by
  intro w w' hf hothers h
  refine (others_induct (P := Ready task) ?_ ?_ ?_ hf hothers h).2
  · intro w runId old _ hold hmem hready run hrun hstate
    simp only [Dict.get?_set] at hrun
    split at hrun
    · cases hrun
      cases hstate
    · exact hready run hrun hstate
  · exact fun w clock hready => hready
  · rintro w repo cutoff - hf hone hready run hrun hstate c third hc hrunId
    obtain ⟨b, old, new, hexp⟩ := hone.expiry
    have hbefore : w.runs.runs.get? task.runId = some run := by
      rcases hexp.runs with ⟨heq, -⟩ | ⟨run', hget', -, heq⟩
      · rwa [heq] at hrun
      · simp only [heq, Dict.get?_set] at hrun
        split at hrun
        · cases hrun
          cases hstate
        · exact hrun
    simp only [hexp.attempts, Dict.get?_set] at hc
    split at hc
    · cases hc
      simp [hexp.lost, AttemptState.terminal, ATTEMPT_TERMINAL]
    · exact hready run hbefore hstate c third hc hrunId

/-- Nothing was begun yet. -/
def Before (task : TaskEnvelope) (x : World × Trace) : Prop :=
  Ready task x.1 ∧ ¬ Begun task x.2 ∧ ¬ Disturbed task x.2

/-- What an exception of the first part of `execute` leaves. -/
def NotStarted (expiry : Bool) (task : TaskEnvelope) (x : World × Trace) : Prop :=
  ¬ Begun task x.2 ∨ Calm task (fun w => expiry = true ∧ Lost task w) x

theorem before_stable : Stable (managerRules expiry) (Before task) :=
  ready_kept.stable (G := fun trace => ¬ Begun task trace ∧ ¬ Disturbed task trace)

theorem get_before : Triple (managerRules expiry) (Before task) (get task.runId) (fun _ => Before task)
    fun _ => NotStarted expiry task := by
  refine Triple.op before_stable ?_
  rintro ⟨w, trace⟩ hf ⟨hready, hbegun, hcalm⟩ -
  have hnot : ¬ Begun task (trace ++ [⟨.read, w, w⟩]) := by
    rw [begun_append]
    exact not_or.mpr ⟨hbegun, by simp [Begins]⟩
  have hundisturbed : ¬ Disturbed task (trace ++ [⟨.read, w, w⟩]) := by
    rw [disturbed_append]
    exact not_or.mpr ⟨hcalm, not_disturbs_of_label (by simp)⟩
  refine ⟨hf, ?_⟩
  dsimp only [World.reading]
  cases w.runs.get task.runId with
  | ok run => exact ⟨hready, hnot, hundisturbed⟩
  | error e => exact .inl hnot

theorem mine_of_begun {w : World} {run : RunRecord} {claimed : AttemptRecord} {runs : RunRepository}
    (hready : Ready task w) (hrun : w.runs.runs.get? task.runId = some run) (hstate : run.state = .dispatching)
    (hnew : w.runs.attempts.get? task.attemptId = none) (hid : claimed.id = task.attemptId)
    (hrunId : claimed.runId = task.runId)
    (hattempts : runs.attempts = w.runs.attempts.set task.attemptId claimed)
    (hruns : runs.runs = w.runs.runs.set task.runId (run.moved .running)) :
    Mine task { w with runs := runs } claimed (run.moved .running) where
  begun := by simp [hattempts]
  id := hid
  runId := hrunId
  last := by simp [hattempts, current_set_new hnew, hrunId]
  held := by simp [hruns]
  others := by
    intro b other hget hother hne
    rw [hattempts, Dict.get?_set_ne _ _ hne] at hget
    exact hready run hrun hstate b other hget hother

theorem beginAttempt_before (manager : Manager) : Triple (managerRules expiry) (Before task)
    (beginAttempt task.runId task.attemptId manager.runnerId manager.leaseSeconds)
    (fun p x => Calm task (Running expiry task (· = .claimed)) x ∧ p.2.id = task.attemptId ∧
      p.2.runId = task.runId)
    fun _ => NotStarted expiry task := by
  refine Triple.op before_stable ?_
  rintro ⟨w, trace⟩ hf ⟨hready, hbegun, hcalm⟩ -
  rcases World.onRuns_cases (fun w => w.runs.beginAttempt task.runId task.attemptId manager.runnerId
    manager.leaseSeconds w.clock) w with ⟨e, -, heq⟩ | ⟨p, runs, hok, heq⟩
  · simp only [heq, Rules.after]
    refine ⟨hf, .inl ?_⟩
    show ¬ Begun task (trace ++ [_])
    rw [begun_append]
    refine not_or.mpr ⟨hbegun, ?_⟩
    rintro ⟨-, hnone, hsome⟩
    simp [hnone] at hsome
  · simp only [heq, Rules.after]
    obtain ⟨run, claimed, hrun, hstate, hnew, hid, hrunId, hclaimed, -, hanswer, rfl⟩ := beginAttempt_ok hok
    have hmine : Mine task { w with runs := { w.runs with
        runs := w.runs.runs.set task.runId (run.moved .running)
        attempts := w.runs.attempts.set task.attemptId claimed } } claimed (run.moved .running) :=
      mine_of_begun hready hrun hstate hnew hid hrunId rfl rfl
    refine ⟨?_, ⟨.inl ⟨claimed, _, hmine, hclaimed, .inl rfl⟩, ?_, ?_⟩, by rw [hanswer]; exact hid,
      by rw [hanswer]; exact hrunId⟩
    · have hwrite : RunWrite w.runs (w.runs.runs.set task.runId (run.moved .running)) :=
        .move task.runId run .running hrun (by simp [hstate, RUN_TRANSITIONS])
      exact RunWrite.filed hwrite hf
    · exact begun_append.mpr (.inr ⟨rfl, hnew, by simp⟩)
    · show ¬ Disturbed task (trace ++ [_])
      rw [disturbed_append]
      exact not_or.mpr ⟨hcalm, not_disturbs_of_label (by simp)⟩

theorem transitionAttempt_started {current target : AttemptState} (h : target ∈ ATTEMPT_TRANSITIONS current) :
    Triple (managerRules expiry) (Calm task (Running expiry task (· = current)))
      (transitionAttempt task.attemptId target) (fun _ => Calm task (Running expiry task (· = target)))
      fun _ => NotStarted expiry task := by
  refine (transitionAttempt_calm ?_).weaken (fun _ _ h => h) (fun _ _ _ h => h) fun _ x _ hx => .inr ⟨hx.1.2, hx.2⟩
  rintro _ rfl
  exact h

theorem startAttempt_triple (manager : Manager) : Triple (managerRules expiry) (Before task)
    (manager.startAttempt task) (fun _ => Calm task (Running expiry task (· = .running)))
    fun _ => NotStarted expiry task := by
  refine get_before.bind fun run => ?_
  have hraise : ∀ e : Exn, Triple (α := Unit) (managerRules expiry) (Before task) (throw e)
      (fun _ => Calm task (Running expiry task (· = .running))) fun _ => NotStarted expiry task :=
    fun e => Triple.raise fun x _ hx => .inl hx.2.1
  split
  · exact hraise _
  · split
    · exact hraise _
    · have hclaim : Triple (managerRules expiry) (Before task) (manager.claimRun task)
          (fun attempt x => Calm task (Running expiry task (· = .claimed)) x ∧
            attempt.id = task.attemptId ∧ attempt.runId = task.runId) fun _ => NotStarted expiry task := by
        refine Triple.bind ((beginAttempt_before manager).handle fun e => ?_) fun p => ?_
        · split <;> exact Triple.raise fun x _ hx => hx
        · exact Triple.ret fun x _ hx => hx
      refine hclaim.bind fun attempt => ?_
      split
      · next hne =>
        intro x _ hx
        rcases hne with h | h
        · exact absurd hx.2.1 h
        · exact absurd hx.2.2 h
      · refine Triple.weaken (P := Calm task (Running expiry task (· = .claimed))) ?_ (fun _ _ h => h.1)
          (fun _ _ _ h => h) fun _ _ _ h => h
        refine (transitionAttempt_started (by decide)).bind fun _ => ?_
        exact (transitionAttempt_started (by decide)).bind fun _ => Triple.ret fun _ _ h => h

/-! ## Running the executor -/

/-- The steps of an executor leave the states of the attempt and of the run alone. -/
theorem executorStep_calm {manager : Manager} {S : AttemptState → Prop} {label : Label} {act : World → World}
    (hstep : ExecutorStep manager task label act) {y : World × Trace} (hf : Filed y.1.runs)
    (hy : Calm task (Running expiry task S) y) :
    Filed (act y.1).runs ∧
      Calm task (Running expiry task S) ((managerRules expiry).after label act y) := by
  obtain ⟨w, trace⟩ := y
  obtain ⟨hrun, hbegun, hcalm⟩ := hy
  have htrace : ¬ Disturbs task ⟨label, w, act w⟩ →
      Begun task (trace ++ [⟨label, w, act w⟩]) ∧ ¬ Disturbed task (trace ++ [⟨label, w, act w⟩]) := by
    intro hnot
    exact ⟨begun_append.mpr (.inl hbegun), by rw [disturbed_append]; exact not_or.mpr ⟨hcalm, hnot⟩⟩
  cases hstep with
  | renew =>
    refine ⟨?_, ?_, htrace (not_disturbs_of_label (by simp))⟩
    · rcases renewLease_cases manager task.attemptId w with heq | ⟨_, _, -, -, -, -, -, heq⟩
      · simpa only [heq] using hf
      · simp only [heq]
        exact filed_of_write hf rfl
    · show Running expiry task S (renewLease manager task.attemptId w)
      rcases renewLease_cases manager task.attemptId w with heq | ⟨old, new, hget, -, hstate, hsame, -, heq⟩
      · rwa [heq]
      · rw [heq]
        rcases hrun with ⟨attempt, run, hmine, hs, hr⟩ | ⟨hexp, attempt, run, hmine, hs, hr⟩
        all_goals
          rw [hmine.begun] at hget
          cases hget
        · exact .inl ⟨new, run, hmine.update hsame rfl hmine.held, hstate ▸ hs, hr⟩
        · exact .inr ⟨hexp, new, run, hmine.update hsame rfl hmine.held, hstate ▸ hs, hr⟩
  | append event =>
    obtain ⟨runs, heq, hruns, hattempts, -⟩ := storeEvent_cases event w
    refine ⟨?_, ?_, htrace (not_disturbs_of_label (by simp))⟩
    · simp only [heq]
      exact filed_of_write hf hruns
    · show Running expiry task S (storeEvent event w)
      rw [heq]
      rcases hrun with ⟨attempt, run, hmine, hs, hr⟩ | ⟨hexp, attempt, run, hmine, hs, hr⟩
      · exact .inl ⟨attempt, run, hmine.congr hattempts (by rw [hruns]; exact hmine.held), hs, hr⟩
      · exact .inr ⟨hexp, attempt, run, hmine.congr hattempts (by rw [hruns]; exact hmine.held), hs, hr⟩

/-- The result names the task. -/
def Names (task : TaskEnvelope) (result : ResultEnvelope) : Prop :=
  result.attemptId = task.attemptId ∧ result.runId = task.runId

theorem calm_stable (S : AttemptState → Prop) :
    Stable (managerRules expiry) (Calm task (Running expiry task S)) :=
  (running_kept S).stable (G := fun trace => Begun task trace ∧ ¬ Disturbed task trace)

theorem utcnow_calm (S : AttemptState → Prop) : Triple (managerRules expiry) (Calm task (Running expiry task S))
    utcnow (fun _ => Calm task (Running expiry task S)) fun _ _ => False := by
  refine (reading_calm (Q := fun _ => Running expiry task S) (E := fun _ _ => False) (running_kept S)
    fun w _ h => ?_).weaken (fun _ _ h => h) (fun _ _ _ h => h) fun _ _ _ h => h.1
  exact h

theorem runExecutor_triple (manager : Manager) (behaviour : Behaviour) : Triple (managerRules expiry)
    (Calm task (Running expiry task (· = .running))) (manager.runExecutor task behaviour)
    (fun p x => Calm task (Running expiry task (· = .running)) x ∧ Names task p.1) fun _ _ => False := by
  have hrun : Triple (managerRules expiry) (Calm task (Running expiry task (· = .running)))
      (manager.runBehaviour task behaviour) (fun _ => Calm task (Running expiry task (· = .running)))
      fun _ => Calm task (Running expiry task (· = .running)) :=
    Triple.of_all (runBehaviour_all manager task behaviour) (calm_stable _)
      fun label act hstep y hf hy _ => executorStep_calm hstep hf hy
  refine Triple.handle (E := fun _ => Calm task (Running expiry task (· = .running))) ?_ fun e => ?_
  · refine hrun.bind fun result => ?_
    refine Triple.bind (Q := fun _ x => Calm task (Running expiry task (· = .running)) x ∧ Names task result)
      ?_ fun _ => Triple.ret fun _ _ h => h
    unfold validateResult validateIdentity
    split
    · exact Triple.raise fun _ _ h => h
    · next hsame =>
      simp only [ne_eq, not_or, not_not] at hsame
      exact Triple.ret fun _ _ h => ⟨h, hsame.2.1, hsame.1⟩
  · unfold infraResult
    refine Triple.bind (Triple.bind (utcnow_calm _) fun now => Triple.ret
      (Q := fun result x => Calm task (Running expiry task (· = .running)) x ∧ Names task result)
      fun _ _ h => ⟨h, rfl, rfl⟩) fun result => Triple.ret fun _ _ h => h

theorem noticeCancel_triple {result : ResultEnvelope} (hnames : Names task result) :
    Triple (managerRules expiry) (Calm task (Running expiry task (· = .running)))
      (Manager.noticeCancel task result)
      (fun answer x => Calm task (Running expiry task (· = .running)) x ∧ Names task answer)
      fun _ _ => False := by
  unfold Manager.noticeCancel
  split
  · refine Triple.bind (Q := fun _ => Calm task (Running expiry task (· = .running))) ?_ fun run => ?_
    · refine (reading_calm (Q := fun _ => Running expiry task (· = .running)) (E := fun _ _ => False)
        (running_kept _) fun w _ h => ?_).weaken (fun _ _ h => h) (fun _ _ _ h => h) fun _ _ _ h => h.1
      have hget : ∃ run, w.runs.runs.get? task.runId = some run := by
        rcases h with ⟨_, run, hmine, -⟩ | ⟨-, _, run, hmine, -⟩ <;> exact ⟨run, hmine.held⟩
      obtain ⟨run, hrun⟩ := hget
      simpa only [Outcome, RunRepository.get, getLocked_ok_iff.mpr hrun] using h
    · split
      · exact Triple.ret fun _ _ h => ⟨h, rfl, rfl⟩
      · exact Triple.ret fun _ _ h => ⟨h, hnames⟩
  · exact Triple.ret fun _ _ h => ⟨h, hnames⟩

/-! ## Recording the result -/

/-- The attempt was completed with this result. -/
def Recorded (task : TaskEnvelope) (result : ResultEnvelope) (scheduler : Bool) (trace : Trace) : Prop :=
  ∃ seen ∈ trace, seen.label = .completeAttempt task result (RESULT_STATES result.outcome).1 scheduler

/-- The attempt has the state of its result; the run is still held. -/
def Completed (result : ResultEnvelope) (s : AttemptState) (t : RunState) (_ : Nat) : Prop :=
  s = (RESULT_STATES result.outcome).1 ∧ Held t

theorem result_terminal (outcome : ResultOutcome) : (RESULT_STATES outcome).1.terminal = true := by
  cases outcome <;> rfl

theorem completeAttempt_triple {result : ResultEnvelope} (hnames : Names task result) (scheduler : Bool) :
    Triple (managerRules expiry) (Calm task (Running expiry task (· = .collecting)))
      (completeAttempt task result (RESULT_STATES result.outcome).1 scheduler)
      (fun _ x => Calm task (Rests task (Completed result)) x ∧ Recorded task result scheduler x.2)
      fun e => Calm task fun w => e.kind = .invalidTransition ∧ expiry = true ∧ Lost task w := by
  refine Triple.op (calm_stable _) ?_
  rintro ⟨w, trace⟩ hf ⟨hrun, hbegun, hcalm⟩ -
  have htrace : ∀ seen : Seen Label World,
      seen.label = .completeAttempt task result (RESULT_STATES result.outcome).1 scheduler →
      Begun task (trace ++ [seen]) ∧ ¬ Disturbed task (trace ++ [seen]) := by
    intro seen hlabel
    refine ⟨begun_append.mpr (.inl hbegun), ?_⟩
    rw [disturbed_append]
    exact not_or.mpr ⟨hcalm, not_disturbs_of_label (by simp [hlabel])⟩
  simp only [World.onRuns, Rules.after]
  rcases hrun with ⟨attempt, run, hmine, hs, hr⟩ | ⟨hexp, attempt, run, hmine, hs, hr⟩
  · have hmem : (RESULT_STATES result.outcome).1 ∈ ATTEMPT_TRANSITIONS attempt.state := by
      rw [hs]
      cases result.outcome <;> decide
    obtain ⟨updated, hstate, hsame, heq⟩ := completeAttempt_of_mem hmine.begun
      (hnames.1.trans hmine.id.symm) (hnames.2.trans hmine.runId.symm) hmem
    rw [heq]
    refine ⟨filed_of_write hf rfl, ⟨?_, htrace _ rfl⟩, ?_⟩
    · exact ⟨updated, run, hmine.update hsame rfl hmine.held, hstate, hr⟩
    · exact ⟨_, List.mem_append_right _ (List.mem_singleton.mpr rfl), rfl⟩
  · have hnot : (RESULT_STATES result.outcome).1 ∉ ATTEMPT_TRANSITIONS attempt.state := by
      simp [hs, ATTEMPT_TRANSITIONS]
    obtain ⟨message, heq⟩ := completeAttempt_error hmine.begun (hnames.1.trans hmine.id.symm)
      (hnames.2.trans hmine.runId.symm) hnot
    rw [heq]
    exact ⟨hf, ⟨rfl, hexp, attempt, run, hmine, hs, hr⟩, htrace _ rfl⟩

/-- `get_attempt` sees whether the attempt is lost. -/
theorem getAttempt_calm (S : AttemptState → Prop) (hS : ¬ S .lost) :
    Triple (managerRules expiry) (Calm task (Running expiry task S)) (getAttempt task.attemptId)
      (fun attempt => Calm task fun w => Running expiry task S w ∧
        (attempt.state = .lost → expiry = true ∧ Lost task w)) fun _ _ => False := by
  refine (reading_calm (Q := fun attempt w => Running expiry task S w ∧
      (attempt.state = .lost → expiry = true ∧ Lost task w)) (E := fun _ _ => False) (running_kept S)
    fun w _ h => ?_).weaken (fun _ _ h => h) (fun _ _ _ h => h) fun _ _ _ h => h.1
  rcases h with ⟨attempt, run, hmine, hs, hr⟩ | ⟨hexp, attempt, run, hmine, hs, hr⟩
  · simp only [Outcome, RunRepository.getAttempt, getAttemptLocked_ok_iff.mpr hmine.begun]
    refine ⟨.inl ⟨attempt, run, hmine, hs, hr⟩, fun hlost => absurd hs ?_⟩
    rwa [hlost]
  · simp only [Outcome, RunRepository.getAttempt, getAttemptLocked_ok_iff.mpr hmine.begun]
    exact ⟨.inr ⟨hexp, attempt, run, hmine, hs, hr⟩, fun _ => ⟨hexp, attempt, run, hmine, hs, hr⟩⟩

/-- A lost attempt is seen as such. -/
theorem getAttempt_lost : Triple (managerRules expiry) (Calm task fun w => expiry = true ∧ Lost task w)
    (getAttempt task.attemptId)
    (fun attempt x => Calm task (fun w => expiry = true ∧ Lost task w) x ∧ attempt.state = .lost)
    fun _ _ => False := by
  refine (reading_calm (Q := fun attempt w => (expiry = true ∧ Lost task w) ∧ attempt.state = .lost)
    (E := fun _ _ => False) lost_kept fun w _ h => ?_).weaken (fun _ _ h => h)
      (fun _ _ _ h => ⟨⟨h.1.1, h.2⟩, h.1.2⟩) fun _ _ _ h => h.1
  obtain ⟨hexp, attempt, run, hmine, hs, hr⟩ := h
  simp only [Outcome, RunRepository.getAttempt, getAttemptLocked_ok_iff.mpr hmine.begun]
  exact ⟨⟨hexp, attempt, run, hmine, hs, hr⟩, hs⟩

/-- What `recordResult` leaves: the attempt completed, or lost. -/
def AfterRecord (expiry : Bool) (task : TaskEnvelope) (result : ResultEnvelope) (scheduler recorded : Bool)
    (x : World × Trace) : Prop :=
  if recorded then
    Calm task (Rests task (Completed result)) x ∧ Recorded task result scheduler x.2
  else Calm task (fun w => expiry = true ∧ Lost task w) x

theorem recordResult_triple (manager : Manager) {result : ResultEnvelope} (hnames : Names task result) :
    Triple (managerRules expiry) (Calm task (Running expiry task (· = .running)))
      (manager.recordResult task result)
      (AfterRecord expiry task result manager.retryScheduler.isSome) fun _ _ => False := by
  refine (getAttempt_calm (· = .running) (by decide)).bind fun current => ?_
  split
  · next hlost => exact Triple.ret fun x _ hx => ⟨hx.1.2 hlost, hx.2⟩
  · refine Triple.handle
      (E := fun e => Calm task fun w => e.kind = .invalidTransition ∧ expiry = true ∧ Lost task w)
      (Triple.weaken (P := Calm task (Running expiry task (· = .running))) ?_ (fun x _ h => ⟨h.1.1, h.2⟩)
        (fun _ _ _ h => h) fun _ _ _ h => h) fun e => ?_
    · refine (transitionAttempt_calm (S := (· = .running)) (by rintro _ rfl; decide)).bind fun _ => ?_
      exact (completeAttempt_triple hnames _).bind fun _ => Triple.ret fun x _ hx => hx
    · split
      · next hkind => exact Triple.raise fun x _ hx => hkind hx.1.1
      · refine Triple.weaken (P := Calm task fun w => expiry = true ∧ Lost task w) ?_
          (fun x _ h => ⟨h.1.2, h.2⟩) (fun _ _ _ h => h) fun _ _ _ h => h
        refine getAttempt_lost.bind fun again => Triple.assume fun hagain => ?_
        rw [if_pos hagain]
        exact Triple.ret fun x _ hx => hx

/-! ## Settling the run -/

/-- The states that `_RESULT_STATES` pairs, and `LOST` with `INFRA_ERROR`. -/
def Agrees (attempt : AttemptState) (run : RunState) : Prop :=
  (∃ outcome, RESULT_STATES outcome = (attempt, run)) ∨ attempt = .lost ∧ run = .infraError

/-- A retry was due after `n` attempts, and no scheduler took it. -/
def RetryUnscheduled (task : TaskEnvelope) (n : Nat) (trace : Trace) : Prop :=
  ∃ result scheduler, Recorded task result scheduler trace ∧
    (decideRetry task result n).shouldRetry = true ∧
    (scheduler = false ∨ ∃ seen ∈ trace, seen.label = .schedule task.runId true)

/-- How `execute` may leave the attempt and the run. -/
def EndsWell (task : TaskEnvelope) (trace : Trace) (s : AttemptState) (t : RunState) (n : Nat) : Prop :=
  s.terminal = true ∧ ((t.terminal = true ∨ t = .retryWait) ↔ ¬ Disturbed task trace) ∧
    (t.terminal = true → Agrees s t ∨ t = .infraError ∧ RetryUnscheduled task n trace)

def Ended (task : TaskEnvelope) (x : World × Trace) : Prop := Rests task (EndsWell task x.2) x.1

theorem recorded_append {result : ResultEnvelope} {scheduler : Bool} {trace : Trace} {seen : Seen Label World}
    (h : Recorded task result scheduler trace) : Recorded task result scheduler (trace ++ [seen]) := by
  obtain ⟨s, hs, hlabel⟩ := h
  exact ⟨s, List.mem_append_left _ hs, hlabel⟩

theorem retryUnscheduled_append {n : Nat} {trace : Trace} {seen : Seen Label World}
    (h : RetryUnscheduled task n trace) : RetryUnscheduled task n (trace ++ [seen]) := by
  obtain ⟨result, scheduler, hrec, hretry, hsched⟩ := h
  refine ⟨result, scheduler, recorded_append hrec, hretry, ?_⟩
  rcases hsched with h | ⟨s, hs, hlabel⟩
  · exact .inl h
  · exact .inr ⟨s, List.mem_append_left _ hs, hlabel⟩

/-- A transition that `CANCELLING` may stand in the way of. -/
theorem transition_settles {T : AttemptState → RunState → Nat → Prop} {G : Trace → Prop} {target : RunState}
    (hkept : KeptByOthers expiry (Rests task T)) (hG : ∀ trace seen, G trace → G (trace ++ [seen]))
    (hT : ∀ s t n, T s t n → s.terminal = true ∧ (target ∈ RUN_TRANSITIONS t ∨ t = .cancelling ∧
      (target = .succeeded ∨ target = .retryWait ∨ target = .cancelling))) :
    Triple (managerRules expiry) (fun x => Calm task (Rests task T) x ∧ G x.2)
      (transition .manager task.runId target)
      (fun _ x => Calm task (Rests task fun s t n => t = target ∧ ∃ t', T s t' n) x ∧ G x.2)
      fun _ => Ended task := by
  have hstable : Stable (managerRules expiry) fun x => Calm task (Rests task T) x ∧ G x.2 := by
    rintro x y hx - ⟨hothers, htrace⟩ ⟨⟨hA, hB⟩, hGx⟩
    exact ⟨⟨hkept _ _ hx hothers hA, htrace ▸ hB⟩, htrace ▸ hGx⟩
  refine Triple.op hstable ?_
  rintro ⟨w, trace⟩ hf ⟨⟨⟨attempt, run, hmine, hTs⟩, hbegun, hcalm⟩, hGt⟩ -
  obtain ⟨hterm, hcases⟩ := hT _ _ _ hTs
  simp only [World.onRuns, Rules.after]
  by_cases hmem : target ∈ RUN_TRANSITIONS run.state
  · rw [transition_eq hmine.held hmem]
    have hnot : ∀ w', ¬ Disturbs task ⟨.transition .manager task.runId target, w, w'⟩ := by
      rintro w' ⟨⟨run', hrun', hcancelling⟩, hlabel⟩
      rw [hmine.held] at hrun'
      cases hrun'
      rw [hcancelling] at hmem
      simp only [Label.transition.injEq, true_and, reduceCtorEq, or_false] at hlabel
      rcases hlabel with rfl | rfl | rfl <;> simp [RUN_TRANSITIONS] at hmem
    refine ⟨?_, ⟨⟨attempt, run.moved target, hmine.congr rfl (by simp), rfl, run.state, hTs⟩, ?_, ?_⟩,
      hG _ _ hGt⟩
    · have hwrite : RunWrite w.runs (w.runs.runs.set task.runId (run.moved target)) :=
        .move task.runId run target hmine.held hmem
      exact RunWrite.filed hwrite hf
    · exact begun_append.mpr (.inl hbegun)
    · exact fun hd => (disturbed_append.mp hd).elim hcalm (hnot _)
  · obtain ⟨hcancelling, htarget⟩ := hcases.resolve_left hmem
    rw [transition_error hmine.held hmem]
    refine ⟨hf, attempt, run, hmine, hterm, ?_, ?_⟩
    · have hd : Disturbed task (trace ++ [⟨.transition .manager task.runId target, w, w⟩]) :=
        disturbed_append.mpr (.inr ⟨⟨run, hmine.held, hcancelling⟩, by
          rcases htarget with rfl | rfl | rfl <;> simp⟩)
      simp only [hcancelling]
      exact ⟨by simp [RunState.terminal, RUN_TERMINAL], fun h => absurd hd h⟩
    · simp [hcancelling, RunState.terminal, RUN_TERMINAL]

/-- Attempt and run are over, and no step was disturbed. -/
def Final (task : TaskEnvelope) (trace : Trace) (s : AttemptState) (t : RunState) (n : Nat) : Prop :=
  s.terminal = true ∧ t.terminal = true ∧ (Agrees s t ∨ t = .infraError ∧ RetryUnscheduled task n trace)

theorem ended_of_final {x : World × Trace} (h : Calm task (Rests task (Final task x.2)) x) : Ended task x := by
  obtain ⟨⟨attempt, run, hmine, hs, ht, hwhy⟩, -, hcalm⟩ := h
  exact ⟨attempt, run, hmine, hs, ⟨fun _ => hcalm, fun _ => .inl ht⟩, fun _ => hwhy⟩

theorem final_kept (trace : Trace) : KeptByOthers expiry (Rests task (Final task trace)) :=
  rests_kept (fun _ _ _ h => h.1) fun _ _ _ h hmem => absurd hmem (run_transitions_terminal h.2.1)

/-- A coordinator leaves a run that is over alone. -/
theorem coordinatorStep_mine {label : Label} {act : World → World} (hstep : CoordinatorStep label act)
    {w : World} (hf : Filed w.runs) {attempt : AttemptRecord} {run : RunRecord}
    (hmine : Mine task w attempt run) (hterm : run.state.terminal = true) :
    Filed (act w).runs ∧ (act w).runs.attempts = w.runs.attempts ∧ Mine task (act w) attempt run := by
  cases hstep with
  | read => exact ⟨hf, rfl, hmine⟩
  | send runId => exact ⟨hf, rfl, hmine⟩
  | finished runId => exact ⟨hf, rfl, hmine⟩
  | move site hsite runId target htarget =>
    rcases moveRun_cases runId target w with heq | ⟨old, hold, hmem, heq⟩
    · rw [heq]
      exact ⟨hf, rfl, hmine⟩
    · rw [heq]
      have hwrite : RunWrite w.runs (w.runs.runs.set runId (old.moved target)) := .move runId old target hold hmem
      refine ⟨RunWrite.filed hwrite hf, rfl, hmine.congr rfl ?_⟩
      have hne : task.runId ≠ runId := by
        rintro rfl
        rw [hmine.held] at hold
        cases hold
        simp [not_terminal_of_mem hmem] at hterm
      simpa [hne] using hmine.held
  | claim batchId =>
    rcases claimBatch_cases batchId hf with heq | ⟨table, heq, htable⟩
    · rw [heq]
      exact ⟨hf, rfl, hmine⟩
    · rw [heq]
      refine ⟨?_, rfl, hmine.congr rfl ?_⟩
      · intro r record hget
        rcases htable r with hsame | ⟨old, hold, -, hmoved⟩
        · exact hf r record (hsame ▸ hget)
        · rw [hmoved] at hget
          cases hget
          exact hf r old hold
      · rcases htable task.runId with hsame | ⟨old, hold, hcreated, -⟩
        · exact hsame.trans hmine.held
        · rw [hmine.held] at hold
          cases hold
          rw [hcreated] at hterm
          cases hterm

theorem notifyCompletion_triple (manager : Manager) (runId : UUID) :
    Triple (managerRules expiry) (fun x => Calm task (Rests task (Final task x.2)) x)
      (manager.notifyCompletion runId) (fun _ => Ended task) fun _ _ => False := by
  have hfinish : ∀ dispatcher, Triple (managerRules expiry)
      (fun x => Calm task (Rests task (Final task x.2)) x) (onRunFinished dispatcher runId)
      (fun _ x => Calm task (Rests task (Final task x.2)) x)
      fun _ x => Calm task (Rests task (Final task x.2)) x := by
    intro dispatcher
    refine Triple.of_all (onRunFinished_all dispatcher runId) ?_ ?_
    · rintro x y hx - ⟨hothers, htrace⟩ ⟨hrests, hcalm⟩
      rw [Calm, htrace]
      exact ⟨final_kept x.2 _ _ hx hothers hrests, hcalm⟩
    · rintro label act hstep ⟨w, trace⟩ hf ⟨⟨attempt, run, hmine, hs, ht, hwhy⟩, hbegun, hcalm⟩ -
      obtain ⟨hf', hattempts, hmine'⟩ := coordinatorStep_mine hstep hf hmine ht
      have hnot : ¬ Disturbs task ⟨label, w, act w⟩ := by
        apply not_disturbs_of_label
        cases hstep with
        | read => simp
        | send runId => simp
        | finished runId => simp
        | move site hsite runId target htarget => rcases hsite with rfl | rfl <;> simp
        | claim batchId => simp
      refine ⟨hf', ⟨attempt, run, hmine', hs, ht, ?_⟩, begun_append.mpr (.inl hbegun), ?_⟩
      · simp only [Rules.after, attemptsOf_eq, hattempts] at hwhy ⊢
        exact hwhy.imp id fun h => ⟨h.1, retryUnscheduled_append h.2⟩
      · exact fun hd => (disturbed_append.mp hd).elim hcalm hnot
  unfold Manager.notifyCompletion
  split
  · exact Triple.ret fun x _ hx => ended_of_final hx
  · next dispatcher hcallback =>
    refine Triple.handle ((hfinish dispatcher).bind fun _ => Triple.ret fun x _ hx => ended_of_final hx)
      fun e => Triple.ret fun x _ hx => ended_of_final hx

/-- The last transition of a run. `G` is what the trace holds by then. -/
theorem endRun_triple (manager : Manager) {T : AttemptState → RunState → Nat → Prop} {G : Trace → Prop}
    {target : RunState} (hkept : KeptByOthers expiry (Rests task T))
    (hG : ∀ trace seen, G trace → G (trace ++ [seen])) (hterminal : target.terminal = true)
    (hT : ∀ s t n, T s t n → s.terminal = true ∧ (target ∈ RUN_TRANSITIONS t ∨ t = .cancelling ∧
      target = .succeeded))
    (hwhy : ∀ s t n trace, T s t n → G trace → Agrees s target ∨
      target = .infraError ∧ RetryUnscheduled task n trace) :
    Triple (managerRules expiry) (fun x => Calm task (Rests task T) x ∧ G x.2) (manager.endRun task target)
      (fun _ => Ended task) fun _ => Ended task := by
  refine Triple.bind (transition_settles hkept hG fun s t n h => ?_) fun _ => ?_
  · exact ⟨(hT s t n h).1, (hT s t n h).2.imp id fun h => ⟨h.1, .inl h.2⟩⟩
  · refine (notifyCompletion_triple manager task.runId).weaken ?_ (fun _ _ _ h => h) fun _ _ _ h => h.elim
    rintro x - ⟨⟨⟨attempt, run, hmine, ht, t', hTs⟩, hcalm⟩, hGx⟩
    refine ⟨⟨attempt, run, hmine, (hT _ _ _ hTs).1, ht ▸ hterminal, ?_⟩, hcalm⟩
    rw [ht]
    exact hwhy _ _ _ _ hTs hGx

theorem recorded_frame {α : Type} {p : Proc α} {P : World × Trace → Prop} {Q : α → World × Trace → Prop}
    {E : Exn → World × Trace → Prop} {result : ResultEnvelope} {scheduler : Bool}
    (h : Triple (managerRules expiry) P p Q E) : Triple (managerRules expiry)
      (fun x => P x ∧ Recorded task result scheduler x.2) p
      (fun a x => Q a x ∧ Recorded task result scheduler x.2)
      fun e x => E e x ∧ Recorded task result scheduler x.2 := by
  refine h.frame (All.any p) ?_ fun label act _ y _ _ _ hy => recorded_append hy
  rintro x y - - ⟨-, htrace⟩ hx
  rw [htrace]
  exact hx

theorem completed_kept {result : ResultEnvelope} {R : RunState → Prop} {N : Nat → Prop}
    (hcancel : ∀ t, R t → .cancelling ∈ RUN_TRANSITIONS t → R .cancelling) :
    KeptByOthers expiry
      (Rests task fun s t n => s = (RESULT_STATES result.outcome).1 ∧ R t ∧ N n) := by
  refine rests_kept ?_ fun s t n h hmem => ⟨h.1, hcancel t h.2.1 hmem, h.2.2⟩
  rintro s t n ⟨rfl, -⟩
  exact result_terminal _

/-- `list_attempts` counts the attempts of the run. -/
theorem listAttempts_triple {result : ResultEnvelope} {scheduler : Bool} : Triple (managerRules expiry)
    (fun x => Calm task (Rests task (Completed result)) x ∧ Recorded task result scheduler x.2)
    (listAttempts task.runId)
    (fun attempts x => Calm task (Rests task fun s t n => s = (RESULT_STATES result.outcome).1 ∧ Held t ∧
      n = attempts.length) x ∧ Recorded task result scheduler x.2) fun _ _ => False := by
  refine (recorded_frame (reading_calm (E := fun _ _ => False) (rests_kept ?_ ?_) ?_)).weaken
    (fun _ _ h => h) (fun _ _ _ h => h) fun _ _ _ h => h.1.1
  · rintro s t n ⟨rfl, -⟩
    exact result_terminal _
  · exact fun s t n h _ => ⟨h.1, .inr rfl⟩
  · rintro w - ⟨attempt, run, hmine, hs, hheld⟩
    obtain ⟨attempts, heq, hlength⟩ := listAttempts_of_run hmine.held
    simp only [Outcome, heq]
    exact ⟨attempt, run, hmine, hs, hheld, hlength.symm⟩

/-- The scheduler took the retry, or the run ends without it. -/
theorem scheduleRetry_triple (schedule : UUID → Nat → Option Exn) (delay : Nat) (result : ResultEnvelope)
    (k : Nat) : Triple (managerRules expiry)
    (fun x => Calm task (Rests task fun s t n => s = (RESULT_STATES result.outcome).1 ∧
      (t = .retryWait ∨ t = .cancelling) ∧ n = k) x ∧ Recorded task result true x.2)
    (Manager.scheduleRetry schedule task.runId delay) (fun _ => Ended task)
    fun _ x => Calm task (Rests task fun s t n => s = (RESULT_STATES result.outcome).1 ∧
      (t = .retryWait ∨ t = .cancelling) ∧ n = k) x ∧
        (Recorded task result true x.2 ∧ ∃ seen ∈ x.2, seen.label = .schedule task.runId true) := by
  have hkept : KeptByOthers expiry (Rests task fun s t n => s = (RESULT_STATES result.outcome).1 ∧
      (t = .retryWait ∨ t = .cancelling) ∧ n = k) := completed_kept fun t _ _ => .inr rfl
  refine Triple.op ?_ ?_
  · rintro x y hx - ⟨hothers, htrace⟩ ⟨⟨hA, hB⟩, hG⟩
    exact ⟨⟨hkept _ _ hx hothers hA, htrace ▸ hB⟩, htrace ▸ hG⟩
  · rintro ⟨w, trace⟩ hf ⟨⟨⟨attempt, run, hmine, hs, ht, hn⟩, hbegun, hcalm⟩, hrec⟩ -
    refine ⟨hf, ?_⟩
    dsimp only [World.reading, Rules.after, managerRules]
    cases hsched : schedule task.runId delay with
    | some e =>
      refine ⟨⟨⟨attempt, run, hmine, hs, ht, hn⟩, begun_append.mpr (.inl hbegun), ?_⟩, recorded_append hrec,
        _, List.mem_append_right _ (List.mem_singleton.mpr rfl), rfl⟩
      exact fun hd => (disturbed_append.mp hd).elim hcalm (not_disturbs_of_label (by simp))
    | none =>
      refine ⟨attempt, run, hmine, hs ▸ result_terminal _, ?_, ?_⟩
      · simp only [disturbed_append, hcalm, false_or]
        rcases ht with ht | ht
        · simp only [ht, or_true, true_iff]
          rintro ⟨⟨run', hrun', hcancelling⟩, -⟩
          rw [hmine.held] at hrun'
          cases hrun'
          rw [ht] at hcancelling
          cases hcancelling
        · have hd : Disturbs task ⟨.schedule task.runId false, w, w⟩ :=
            ⟨⟨run, hmine.held, ht⟩, by simp⟩
          simpa [ht, RunState.terminal, RUN_TERMINAL] using hd
      · rcases ht with ht | ht <;> simp [ht, RunState.terminal, RUN_TERMINAL]

theorem retryLater_triple (manager : Manager) (schedule : UUID → Nat → Option Exn) (delay : Nat)
    {result : ResultEnvelope} {k : Nat} (hretry : (decideRetry task result k).shouldRetry = true) :
    Triple (managerRules expiry)
      (fun x => Calm task (Rests task fun s t n => s = (RESULT_STATES result.outcome).1 ∧ Held t ∧ n = k) x ∧
        Recorded task result true x.2)
      (manager.retryLater task schedule delay) (fun _ => Ended task) fun _ => Ended task := by
  refine Triple.bind (transition_settles (completed_kept held_cancelling) (fun _ _ => recorded_append) ?_)
    fun _ => ?_
  · rintro s t n ⟨rfl, ht | ht, -⟩
    · exact ⟨result_terminal _, .inl (by simp [ht, RUN_TRANSITIONS])⟩
    · exact ⟨result_terminal _, .inr ⟨ht, by simp⟩⟩
  · refine Triple.handle ((scheduleRetry_triple schedule delay result k).weaken ?_ (fun _ _ _ h => h) fun _ _ _ h => h)
      fun e => ?_
    · rintro x - ⟨⟨⟨attempt, run, hmine, ht, t', hs, -, hn⟩, hcalm⟩, hrec⟩
      exact ⟨⟨⟨attempt, run, hmine, hs, .inl ht, hn⟩, hcalm⟩, hrec⟩
    · refine endRun_triple manager (G := fun trace => Recorded task result true trace ∧
        ∃ seen ∈ trace, seen.label = .schedule task.runId true) ?_ ?_ ?_ ?_ ?_
      · exact completed_kept fun t _ _ => .inr rfl
      · rintro trace seen ⟨hrec, s, hs, hlabel⟩
        exact ⟨recorded_append hrec, s, List.mem_append_left _ hs, hlabel⟩
      · rfl
      · rintro s t n ⟨rfl, ht | ht, -⟩ <;> exact ⟨result_terminal _, .inl (by simp [ht, RUN_TRANSITIONS])⟩
      · rintro s t n trace ⟨-, -, rfl⟩ ⟨hrec, hfail⟩
        exact .inr ⟨rfl, result, true, hrec, hretry, .inr hfail⟩

theorem passCancelling_triple {result : ResultEnvelope} : Triple (managerRules expiry)
    (Calm task (Rests task (Completed result)))
    (Manager.passCancelling task (RESULT_STATES result.outcome).2)
    (fun _ => Calm task (Rests task fun s t _ => s = (RESULT_STATES result.outcome).1 ∧ Held t ∧
      ((RESULT_STATES result.outcome).2 = .cancelled → t = .cancelling)))
    fun _ => Ended task := by
  have hkept : KeptByOthers expiry (Rests task (Completed result)) := by
    refine rests_kept ?_ fun s t n h _ => ⟨h.1, .inr rfl⟩
    rintro s t n ⟨rfl, -⟩
    exact result_terminal _
  unfold Manager.passCancelling
  split
  · refine Triple.bind (Q := fun run => Calm task (Rests task fun s t n => Completed result s t n ∧
      (run.state = .cancelling → t = .cancelling))) ?_ fun run => ?_
    · refine (reading_calm (Q := fun run => Rests task fun s t n => Completed result s t n ∧
        (run.state = .cancelling → t = .cancelling)) (E := fun _ _ => False) hkept ?_).weaken (fun _ _ h => h)
          (fun _ _ _ h => h) fun _ _ _ h => h.1.elim
      rintro w - ⟨attempt, run, hmine, hdone⟩
      simp only [Outcome, RunRepository.get, getLocked_ok_iff.mpr hmine.held]
      exact ⟨attempt, run, hmine, hdone, id⟩
    · split
      · refine Triple.bind (Q := fun _ => Calm task (Rests task fun s t n => t = .cancelling ∧
          ∃ t', Completed result s t' n)) ?_ fun _ => Triple.ret ?_
        · refine (transition_settles (G := fun _ => True) hkept (fun _ _ _ => trivial) ?_).weaken ?_
            (fun _ _ _ h => h.1) fun _ _ _ h => h
          · rintro s t n ⟨rfl, ht | ht⟩
            · exact ⟨result_terminal _, .inl (by simp [ht, RUN_TRANSITIONS])⟩
            · exact ⟨result_terminal _, .inr ⟨ht, by simp⟩⟩
          · rintro x - ⟨⟨attempt, run, hmine, hdone, -⟩, hcalm⟩
            exact ⟨⟨⟨attempt, run, hmine, hdone⟩, hcalm⟩, trivial⟩
        · rintro x - ⟨⟨attempt, run, hmine, ht, t', hs, -⟩, hcalm⟩
          exact ⟨⟨attempt, run, hmine, hs, .inr ht, fun _ => ht⟩, hcalm⟩
      · next hstate =>
        refine Triple.ret ?_
        rintro x - ⟨⟨attempt, run, hmine, hdone, ht⟩, hcalm⟩
        exact ⟨⟨attempt, run, hmine, hdone.1, hdone.2, fun _ => ht (not_not.mp hstate)⟩, hcalm⟩
  · next hne =>
    refine Triple.ret ?_
    rintro x - ⟨⟨attempt, run, hmine, hs, ht⟩, hcalm⟩
    exact ⟨⟨attempt, run, hmine, hs, ht, fun h => absurd h hne⟩, hcalm⟩

theorem settle_triple (manager : Manager) (result : ResultEnvelope) (identityError : Option Exn) :
    Triple (managerRules expiry)
      (fun x => Calm task (Rests task (Completed result)) x ∧
        Recorded task result manager.retryScheduler.isSome x.2)
      (manager.settle task result identityError) (fun _ => Ended task) fun _ => Ended task := by
  refine Triple.bind (listAttempts_triple.weaken (fun _ _ h => h) (fun _ _ _ h => h) fun _ _ _ h => h.elim)
    fun attempts => ?_
  dsimp only
  split
  · next hretry =>
    cases hsched : manager.retryScheduler with
    | none =>
      refine Triple.bind (endRun_triple manager (completed_kept held_cancelling) (fun _ _ => recorded_append)
        rfl ?_ ?_) fun _ => Triple.ret fun _ _ h => h
      · rintro s t n ⟨rfl, ht | ht, -⟩ <;> exact ⟨result_terminal _, .inl (by simp [ht, RUN_TRANSITIONS])⟩
      · rintro s t n trace ⟨-, -, rfl⟩ hrec
        exact .inr ⟨rfl, result, _, hrec, hretry, .inl rfl⟩
    | some schedule =>
      exact (retryLater_triple manager schedule _ hretry).bind fun _ => Triple.ret fun _ _ h => h
  · refine Triple.bind (passCancelling_triple.weaken ?_ (fun _ _ _ h => h) fun _ _ _ h => h) fun _ =>
      Triple.bind (Q := fun _ => Ended task) ?_ fun _ => ?_
    · rintro x - ⟨⟨⟨attempt, run, hmine, hs, ht, -⟩, hcalm⟩, -⟩
      exact ⟨⟨attempt, run, hmine, hs, ht⟩, hcalm⟩
    · refine Triple.weaken (endRun_triple manager (G := fun _ => True) ?_ (fun _ _ _ => trivial) ?_ ?_ ?_)
        (fun x _ h => ⟨h, trivial⟩) (fun _ _ _ h => h) fun _ _ _ h => h
      · refine rests_kept ?_ fun s t n h _ => ⟨h.1, .inr rfl, fun _ => rfl⟩
        rintro s t n ⟨rfl, -⟩
        exact result_terminal _
      · cases result.outcome <;> rfl
      · rintro s t n ⟨rfl, ht, hcancelled⟩
        refine ⟨result_terminal _, ?_⟩
        rcases ht with rfl | rfl <;> cases houtcome : result.outcome <;>
          simp_all [RESULT_STATES, RUN_TRANSITIONS]
      · rintro s t n trace ⟨rfl, -⟩ -
        exact .inl (.inl ⟨result.outcome, rfl⟩)
    · split
      · exact Triple.raise fun _ _ h => h
      · exact Triple.ret fun _ _ h => h

/-! ## The whole call -/

theorem ended_of_lost {x : World × Trace} (h : Calm task (fun w => expiry = true ∧ Lost task w) x) :
    Ended task x := by
  obtain ⟨⟨-, attempt, run, hmine, hs, ht⟩, -, hcalm⟩ := h
  refine ⟨attempt, run, hmine, ?_⟩
  rw [hs, ht]
  exact ⟨rfl, ⟨fun _ => hcalm, fun _ => .inl rfl⟩, fun _ => .inl (.inr ⟨rfl, rfl⟩)⟩

/-- What `execute` leaves when it returns or raises. -/
def Left (task : TaskEnvelope) (x : World × Trace) : Prop := Begun task x.2 → Ended task x

theorem execute_triple (manager : Manager) (behaviour : Behaviour) : Triple (managerRules expiry) (Before task)
    (manager.execute task behaviour) (fun _ => Left task) fun _ => Left task := by
  have hended : ∀ x, Ended task x → Left task x := fun x h _ => h
  refine Triple.bind ((startAttempt_triple manager).weaken (fun _ _ h => h) (fun _ _ _ h => h) ?_) fun _ => ?_
  · rintro e x - (hnot | hlost) hbegun
    · exact absurd hbegun hnot
    · exact ended_of_lost hlost
  · refine Triple.bind ((runExecutor_triple manager behaviour).weaken (fun _ _ h => h) (fun _ _ _ h => h)
      fun _ _ _ h => h.elim) fun p => Triple.assume fun hnames => ?_
    refine Triple.bind ((noticeCancel_triple hnames).weaken (fun _ _ h => h) (fun _ _ _ h => h)
      fun _ _ _ h => h.elim) fun result => Triple.assume fun hnames => ?_
    refine Triple.bind ((recordResult_triple manager hnames).weaken (fun _ _ h => h) (fun _ _ _ h => h)
      fun _ _ _ h => h.elim) fun recorded => ?_
    split
    · next hrec =>
      subst hrec
      exact (settle_triple manager result p.2).weaken (fun _ _ h => h) (fun _ x _ h => hended x h)
        fun _ x _ h => hended x h
    · next hrec =>
      rw [Bool.not_eq_true] at hrec
      subst hrec
      refine Triple.bind (Q := fun _ => Calm task fun w => expiry = true ∧ Lost task w) ?_ fun now =>
        Triple.ret fun x _ h => hended x (ended_of_lost h)
      refine (reading_calm (Q := fun _ w => expiry = true ∧ Lost task w) (E := fun _ _ => False) lost_kept
        fun w _ h => ?_).weaken (fun _ _ h => h) (fun _ _ _ h => h) fun _ _ _ h => h.1.elim
      exact h

end SmartTest.System
