import SmartTest.Plan.Idempotency
import SmartTest.System.Execution

/-!
# Every call keeps the rules

The routes, the worker tasks and the local runner. When a call has ended, every run it had
taken on itself is over.
-/

open SmartTest.Lib SmartTest.Lib.Prog SmartTest.Run SmartTest.Run.RunRepository SmartTest.Plan

namespace SmartTest.System

variable {pid : Nat} {call : Call} {P : World × History → Prop}

/-! ## Creating runs -/

/-- The runs of a plan start in `CREATED`, each with its spec. -/
theorem expand_pairs {refs : References} {drawn : Drawn} {now : Instant} {plan : TestPlanRecord}
    {override : Option (String × String)} {pairs : List (RunRecord × RunSpecRecord)}
    (h : expand refs drawn now plan override = .ok pairs) : ∀ p ∈ pairs,
      p.1.state = .created ∧ p.2.runId = p.1.id ∧ p.2.batchId = drawn.batchId := by
  have hrow : ∀ {item script snapshot index row p},
      expandRow refs drawn now plan override item script snapshot index row = .ok p →
      p.1.state = .created ∧ p.2.runId = p.1.id ∧ p.2.batchId = drawn.batchId := by
    intro item script snapshot index row p h
    simp only [expandRow, bind_eq_ok_iff, pure_eq_ok_iff] at h
    obtain ⟨_, -, rfl⟩ := h
    exact ⟨rfl, rfl, rfl⟩
  have hrows : ∀ {item script snapshot} (rows : List TestPlanDataRow) {index pairs},
      expandRows refs drawn now plan override item script snapshot index rows = .ok pairs → ∀ p ∈ pairs,
      p.1.state = .created ∧ p.2.runId = p.1.id ∧ p.2.batchId = drawn.batchId := by
    intro item script snapshot rows
    induction rows with
    | nil =>
      intro index pairs h p hp
      cases h
      cases hp
    | cons row rest ih =>
      intro index pairs h p hp
      simp only [expandRows, bind_eq_ok_iff, pure_eq_ok_iff] at h
      obtain ⟨first, hfirst, others, hothers, rfl⟩ := h
      rcases List.mem_cons.mp hp with rfl | hp
      · exact hrow hfirst
      · exact ih hothers p hp
  have hitems : ∀ (items : List TestPlanItem) {index pairs},
      expandItems refs drawn now plan override index items = .ok pairs → ∀ p ∈ pairs,
      p.1.state = .created ∧ p.2.runId = p.1.id ∧ p.2.batchId = drawn.batchId := by
    intro items
    induction items with
    | nil =>
      intro index pairs h p hp
      cases h
      cases hp
    | cons item rest ih =>
      intro index pairs h p hp
      simp only [expandItems, bind_eq_ok_iff, pure_eq_ok_iff] at h
      obtain ⟨script, -, snapshot, -, rows, hrows', others, hothers, rfl⟩ := h
      rcases List.mem_append.mp hp with hp | hp
      · exact hrows _ hrows' p hp
      · exact ih hothers p hp
  exact hitems _ h

/-- How `execute` of a plan changes the tables. -/
theorem storePlanRuns_cases (refs : References) (planCall : PlanCall) (who : Notes) (w : World) :
    Change who (.executePlan planCall.drawn.batchId) w (storePlanRuns refs planCall w).2 := by
  have hsame : Change who (.executePlan planCall.drawn.batchId) w w := change_same (by simp) w
  simp only [storePlanRuns]
  split
  · exact hsame
  · next batch replayed plans runs hok =>
    obtain ⟨key, plan, -, -, ⟨_, -, -, -, hstate⟩ | ⟨pairs, -, hpairs, hanswer, hstate⟩⟩ := execute_ok hok
    · cases hstate
      split
      · exact hsame
      · exact hsame
    · cases hanswer
      split
      · exact hsame
      · next hunused =>
        cases hstate
        refine .batch (batchOf planCall.drawn plan key pairs) pairs rfl ?_ rfl fun p hp => ?_
        · simpa using hunused
        · exact expand_pairs hpairs p hp

theorem createOrGet_acts {fingerprint : Engine → Dict String Json → String} {newId : UUID} {engine : Engine}
    {parameters : Dict String Json} {key : Option String} : Triple (rules pid call) (fun _ => True)
    (createOrGet fingerprint newId engine parameters key)
    (fun p x => p.2 = false → Single p.1.id x.1) fun _ _ => True := by
  refine op_acts stable_true fun w history _ _ => ?_
  refine and_left_comm.mp ⟨trivial, ?_⟩
  rcases World.onRuns_cases (fun w => if (w.runs.runs.get? newId).isSome || (w.plans.specsByRun.get? newId).isSome
    then Except.error usedIdentifier
    else RunRepository.createOrGet fingerprint w.runs newId w.clock engine parameters key) w with
    ⟨e, -, heq⟩ | ⟨answer, runs, hok, heq⟩
  · rw [heq]
    exact ⟨change_same (by simp) w, trivial⟩
  · rw [heq]
    simp only [ite_error_eq_ok_iff, Bool.or_eq_true, not_or, Option.not_isSome_iff_eq_none] at hok
    obtain ⟨⟨hnew, hspec⟩, hok⟩ := hok
    rcases createOrGet_ok hok with ⟨rfl, hreplayed⟩ | ⟨idempotency, rfl, rfl⟩
    · exact ⟨change_same (by simp) w, fun h => by rw [hreplayed] at h; cases h⟩
    · refine ⟨.create ⟨newId, engine, parameters, .created, w.clock, 0⟩ hnew hspec rfl rfl rfl, fun _ => ?_⟩
      exact ⟨by simp, hspec⟩

theorem dispatch_keeps (dispatcher : Dispatcher) (r : UUID) :
    Keeps pid call (fun _ => True) (dispatch dispatcher r) := by
  cases dispatcher with
  | database =>
    refine Triple.bind (Q := fun _ _ => True) ?_ fun _ => Triple.ret fun _ _ _ => trivial
    exact (advance_triple (.inl rfl) _ r False).weaken (fun _ _ _ h => h.elim) (fun _ _ _ h => h)
      fun _ _ _ _ => trivial
  | celery fails =>
    refine mute_acts rfl stable_true fun x _ _ => ?_
    cases fails r <;> trivial

theorem createRun_keeps {fingerprint : Engine → Dict String Json → String} (newId : UUID) (engine : Engine)
    (parameters : Dict String Json) (key : Option String) (autoDispatch : Bool) (dispatcher : Dispatcher) :
    Keeps pid call (fun _ => True)
      (createRun fingerprint newId engine parameters key autoDispatch dispatcher) := by
  unfold createRun
  split
  · exact Triple.raise fun _ _ _ => trivial
  · refine createOrGet_acts.bind fun ⟨run, replayed⟩ => ?_
    dsimp only
    split
    · next hnew =>
      rw [Bool.not_eq_true] at hnew
      refine Triple.bind (Q := fun _ _ => True) ?_ fun queued => Triple.bind (Q := fun _ _ => True) ?_ fun _ =>
        Triple.ret fun _ _ _ => trivial
      · refine Triple.weaken (P := fun x => Single run.id x.1) ?_ (fun _ _ h => h hnew.1) (fun _ _ _ h => h)
          fun _ _ _ h => h
        refine transition_acts (lasting_single _).stable rfl (fun _ _ _ => trivial) ?_
          (fun _ _ _ _ _ _ => trivial) fun _ _ _ _ _ => trivial
        exact fun x run' _ hx _ _ => ⟨by simp, fun _ => .inr hx.2, by simp, by simp⟩
      · refine Triple.handle (dispatch_keeps dispatcher _) fun e => ?_
        refine Triple.bind (Q := fun _ _ => True) ?_ fun _ => Triple.raise fun _ _ _ => trivial
        exact transition_acts stable_true rfl (fun _ _ _ => trivial)
          (fun _ _ _ _ _ _ => moveGuard_plain (by simp)) (fun _ _ _ _ _ _ => trivial) fun _ _ _ _ _ => trivial
    · exact Triple.ret fun _ _ _ => trivial

theorem executeTestPlan_keeps {refs : References} (planCall : PlanCall) (autoDispatch : Bool)
    {dispatcher : Dispatcher} (hcelery : dispatcher.isCelery = true → call.usesCelery = true) :
    Keeps pid call (fun _ => True) (executeTestPlan refs planCall autoDispatch dispatcher) := by
  unfold executeTestPlan
  split
  · exact Triple.raise fun _ _ _ => trivial
  · refine Triple.bind (Q := fun _ _ => True) (op_acts stable_true fun w history _ _ =>
      ⟨storePlanRuns_cases refs planCall _ w, trivial, ?_⟩) fun ⟨batch, replayed⟩ => ?_
    · cases (storePlanRuns refs planCall w).1 <;> trivial
    · dsimp only
      split
      · refine Triple.bind (dispatchAvailable_keeps hcelery _) fun result => ?_
        split
        · exact Triple.raise fun _ _ _ => trivial
        · exact Triple.ret fun _ _ _ => trivial
      · exact Triple.ret fun _ _ _ => trivial

/-! ## Cancelling, retrying and expiry -/

theorem cancel_keeps (r : UUID) (hcall : call = .cancel r) : Keeps pid call (fun _ => True) (cancel r) := by
  refine op_acts stable_true fun w history hinv _ => and_left_comm.mp ⟨hcall, ?_⟩
  rcases World.onRuns_cases (fun w => w.runs.cancel r) w with ⟨e, -, heq⟩ | ⟨updated, runs, hok, heq⟩
  · rw [heq]
    exact ⟨change_same (by simp) w, trivial⟩
  · rw [heq]
    refine ⟨?_, trivial⟩
    obtain ⟨run, hrun, -, ⟨-, rfl⟩ | ⟨hmem, rfl⟩⟩ := cancel_ok hok
    · exact change_same (by simp) w
    · exact .move r run .cancelling (.inl ⟨rfl, rfl⟩) hrun hmem (moveGuard_plain (by simp))

theorem prepareRun_keeps (r : UUID) : Keeps pid call (fun _ => True) (prepareRun r) :=
  (advance_triple (.inr rfl) _ r False).weaken (fun _ _ _ h => h.elim) (fun _ _ _ h => h) fun _ _ _ _ => trivial

theorem retryRun_keeps (r : UUID) : Keeps pid call (fun _ => True) (retryRun r) := by
  refine Triple.bind (Q := fun run x => run.state = .retryWait → Started r x.1)
    (get_acts stable_true (fun x run _ _ hget hstate => ⟨run, hget, by simp [hstate]⟩) fun _ _ _ _ _ => trivial)
    fun run => ?_
  split
  · exact Triple.ret fun _ _ _ => trivial
  · next hstate =>
    refine Triple.bind (Q := fun _ _ => True) ?_ fun _ => prepareRun_keeps r
    refine Triple.weaken (P := fun x => Started r x.1) ?_ (fun _ _ h => h (not_not.mp hstate)) (fun _ _ _ h => h)
      fun _ _ _ h => h
    refine transition_acts (lasting_started r).stable rfl (fun _ _ _ => trivial) ?_
      (fun _ _ _ _ _ _ => trivial) fun _ _ _ _ _ => trivial
    rintro x run' _ ⟨known, hknown, hcreated⟩ hrun hmem
    rw [hrun] at hknown
    cases hknown
    refine ⟨by simp, fun _ => .inl ?_, by simp, by simp⟩
    revert hmem hcreated
    cases run'.state <;> simp [RUN_TRANSITIONS]

theorem recoverLostAttempts_keeps (now : Option Instant) (hcall : call = .recoverLostAttempts now) :
    Keeps pid call (fun _ => True) (recoverLostAttempts now) := by
  have hexpire : ∀ cutoff, Keeps pid call (fun _ => True) (expireAttemptLeases cutoff) := by
    intro cutoff
    refine op_acts stable_true fun w history _ _ =>
      ⟨.expire cutoff rfl (expireAttemptLeases_steps w.runs cutoff), ⟨now, hcall⟩, ?_⟩
    dsimp only
    cases (w.runs.expireAttemptLeases cutoff).1 <;> trivial
  have hrest : ∀ cutoff, Keeps pid call (fun _ => True)
      (expireAttemptLeases cutoff >>= fun lost => pure lost.length) :=
    fun cutoff => (hexpire cutoff).bind fun _ => Triple.ret fun _ _ _ => trivial
  cases now with
  | some instant => exact hrest instant
  | none => exact Triple.bind (read_skip stable_true) hrest

/-! ## The local runner -/

section Service

theorem serviceOf_onService {α : Type} (w : World) (name : String) (f : Service → α × Service) (other : String) :
    serviceOf (w.onService name f).2 other =
      if other = name then (f (serviceOf w name)).2 else serviceOf w other := by
  simp only [World.onService, serviceOf, Dict.get?_set]
  split
  · rfl
  · rfl

/-- A change of what a service has submitted. -/
theorem change_submitted {α : Type} {who : Notes} {label : Label} (w : World) (name : String)
    (f : Service → α × Service) (hjobs : ∀ s, (f s).2.jobs = s.jobs)
    (hlabel : ∀ name r, label ≠ .submit name r false) : Change who label w (w.onService name f).2 := by
  have hsame : ∀ other, (serviceOf (w.onService name f).2 other).jobs = (serviceOf w other).jobs := by
    intro other
    rw [serviceOf_onService]
    split
    · next h => rw [h, hjobs]
    · rfl
  refine .quiet rfl rfl rfl rfl ⟨?_, ?_, fun name r h => absurd h (hlabel name r)⟩
  · intro other r hr
    rw [hsame] at hr
    exact .inl hr
  · intro other r hr
    rw [hsame]
    exact .inl hr

variable {service : LocalRunnerService}
  (hcelery : service.dispatcher.isCelery = true → call.usesCelery = true)

/-- From any state but `CREATED` a run that is not over can be moved to `INFRA_ERROR`. -/
theorem terminal_of_not_infraError {s : RunState} (hcreated : s ≠ .created)
    (h : .infraError ∉ RUN_TRANSITIONS s) : s.terminal = true := by
  revert hcreated h
  cases s <;> simp [RUN_TRANSITIONS, RunState.terminal, RUN_TERMINAL]

theorem convergeState_over {F : World × History → Prop} (hF : Aside pid call F) (r : UUID) :
    Triple (rules pid call) (fun x => Started r x.1 ∧ F x) (LocalRunnerService.convergeState r)
      (fun _ x => isTerminal x.1 r = true ∧ F x) fun _ x => isTerminal x.1 r = true ∧ F x := by
  have hstable := stable_and (lasting_started r).stable hF.1
  refine Triple.bind (Q := fun run x => Started r x.1 ∧ F x ∧
      if ¬ run.state.terminal ∧ run.state ≠ .created then (x.2.notes pid).converging = some r
      else isTerminal x.1 r = true) (op_acts hstable fun w history hinv hx => ?_) fun run => ?_
  · obtain ⟨⟨run, hrun, hcreated⟩, hFx⟩ := hx
    have hchange : Change (history.notes pid) (.converge r) w w := change_same (by simp) w
    refine ⟨hchange, trivial, ?_⟩
    simp only [World.reading, RunRepository.get, getLocked_ok_iff.mpr hrun]
    refine ⟨⟨run, hrun, hcreated⟩, hF.2 _ _ _ hinv ⟨hchange, rfl, trivial⟩ (sameTask_noting rfl _ _ _) hFx, ?_⟩
    split
    · next hgo =>
      rw [notes_observe_self]
      simp only [Bool.not_eq_true] at hgo
      simp [Notes.observe, Notes.nextConverging, runState?, hrun, hgo]
    · next hstop =>
      refine isTerminal_iff.mpr ⟨run, hrun, ?_⟩
      by_contra hterm
      exact hstop ⟨hterm, hcreated⟩
  · split
    · next hgo =>
      refine Triple.bind (Q := fun _ x => isTerminal x.1 r = true ∧ F x) ?_ fun _ => Triple.ret fun _ _ h => h
      have hconverging : Stable (rules pid call) fun x => (x.2.notes pid).converging = some r :=
        stable_of_foreign fun x y h hx => by rw [h.notes]; exact hx
      have hguard : ∀ (x : World × History) (run : RunRecord),
          MoveGuard (x.2.notes pid) x.1 r run .infraError := fun _ _ => moveGuard_plain (by simp)
      refine transition_acts (stable_and (lasting_started r).stable (stable_and hF.1 hconverging)) rfl
        (fun _ _ h => h.2.2) (fun x run _ _ _ _ => hguard x run) ?_ ?_
      · intro x run hinv hx hrun hmem
        refine ⟨isTerminal_iff.mpr ⟨run.moved .infraError, by simp [World.movedRun], rfl⟩, ?_⟩
        exact hF.2 _ _ _ hinv ⟨.move r run _ (.inr ⟨_, rfl⟩) hrun hmem (hguard x run), rfl, rfl, hx.2.2⟩
          (sameTask_noting rfl _ _ _) hx.2.1
      · intro x e hinv hx hrefused
        obtain ⟨run, hrun, hcreated⟩ := hx.1
        refine ⟨isTerminal_iff.mpr ⟨run, hrun, terminal_of_not_infraError hcreated (hrefused run hrun).1⟩, ?_⟩
        exact hF.2 _ _ _ hinv ⟨change_same (by simp) _, rfl, rfl, hx.2.2⟩ (sameTask_noting rfl _ _ _) hx.2.1
    · exact Triple.ret fun _ _ h => ⟨h.2.2, h.2.1⟩

include hcelery

theorem convergeInfraError_over {F : World × History → Prop} (hF : Aside pid call F) (r : UUID) :
    Triple (rules pid call) (fun x => Started r x.1 ∧ F x) (service.convergeInfraError r)
      (fun _ x => isTerminal x.1 r = true ∧ F x) fun _ _ => False := by
  have haside : Aside pid call fun x => isTerminal x.1 r = true ∧ F x :=
    ⟨stable_and (lasting_terminal r).stable hF.1, fun label x y hinv h hsame hx =>
      ⟨(lasting_terminal r).acts hinv h hx.1, hF.2 label x y hinv h hsame hx.2⟩⟩
  refine Triple.bind (Q := fun _ x => isTerminal x.1 r = true ∧ F x)
    (Triple.handle (convergeState_over hF r) fun _ => Triple.ret fun _ _ h => h) fun _ => ?_
  refine Triple.handle (E := fun _ x => isTerminal x.1 r = true ∧ F x) ?_ fun _ => Triple.ret fun _ _ h => h
  exact (onRunFinished_aside hcelery r haside).bind fun _ => Triple.ret fun _ _ h => h

end Service

/-! ## Duties -/

/-- Every run the call had taken on itself is over. -/
def Discharged (pid : Nat) (x : World × History) : Prop :=
  ∀ r ∈ (x.2.notes pid).duty, isTerminal x.1 r = true

/-- One run is left. -/
def Pending (pid : Nat) (r : UUID) (x : World × History) : Prop :=
  ∀ r' ∈ (x.2.notes pid).duty, isTerminal x.1 r' = true ∨ r' = r

theorem pending_step {r : UUID} {who : Notes} {label : Label} {x y : World × History} (hc : Consistent x.1)
    (hchange : Change who label x.1 y.1) (hduty : (y.2.notes pid).duty = (x.2.notes pid).duty)
    (hx : Pending pid r x) : Pending pid r y := by
  intro r' hr'
  rw [hduty] at hr'
  exact (hx r' hr').imp (lasting_terminal r' _ _ _ _ hc hchange) id

theorem discharged_step {who : Notes} {label : Label} {x y : World × History} (hc : Consistent x.1)
    (hchange : Change who label x.1 y.1) (hduty : (y.2.notes pid).duty = (x.2.notes pid).duty)
    (hx : Discharged pid x) : Discharged pid y := by
  intro r hr
  rw [hduty] at hr
  exact lasting_terminal r _ _ _ _ hc hchange (hx r hr)

theorem discharged_aside : Aside pid call (Discharged pid) := by
  refine ⟨stable_of_foreign fun x y h hx => ?_, fun label x y hinv h hsame hx =>
    discharged_step hinv.consistent h.change hsame.duty hx⟩
  obtain ⟨who, label, hchange, -⟩ := h.change
  exact discharged_step h.before.consistent hchange h.sameTask.duty hx

theorem pending_aside (r : UUID) : Aside pid call (Pending pid r) := by
  refine ⟨stable_of_foreign fun x y h hx => ?_, fun label x y hinv h hsame hx =>
    pending_step hinv.consistent h.change hsame.duty hx⟩
  obtain ⟨who, label, hchange, -⟩ := h.change
  exact pending_step h.before.consistent hchange h.sameTask.duty hx

theorem Discharged.pending {x : World × History} (h : Discharged pid x) (r : UUID) : Pending pid r x :=
  fun r' hr' => .inl (h r' hr')

section Poll

variable {service : LocalRunnerService}
  (hcelery : service.dispatcher.isCelery = true → call.usesCelery = true)

theorem mark_pending (r : UUID) : Triple (rules pid call) (fun x => Started r x.1 ∧ Discharged pid x)
    (service.mark r) (fun marked x => Started r x.1 ∧ if marked then Pending pid r x else Discharged pid x)
    fun _ _ => False := by
  refine op_acts (stable_and (lasting_started r).stable discharged_aside.1) fun w history hinv hx => ?_
  have hchange : Change (history.notes pid) (.mark service.name r) w (w.onService service.name fun s =>
      if r ∈ s.submitted then (false, s) else (true, { s with submitted := s.submitted ++ [r] })).2 := by
    refine change_submitted w service.name _ (fun s => ?_) (by simp)
    split <;> rfl
  refine ⟨hchange, trivial, lasting_started r _ _ _ _ hinv.consistent hchange hx.1, ?_⟩
  have hanswer : (w.onService service.name fun s => if r ∈ s.submitted then (false, s)
      else (true, { s with submitted := s.submitted ++ [r] })).1 =
      decide (r ∉ (serviceOf w service.name).submitted) := by
    by_cases hmem : r ∈ (serviceOf w service.name).submitted
    · have hmem' : r ∈ ((w.services.get? service.name).getD ⟨[], []⟩).submitted := hmem
      simp [World.onService, hmem, hmem']
    · have hmem' : r ∉ ((w.services.get? service.name).getD ⟨[], []⟩).submitted := hmem
      simp [World.onService, hmem, hmem']
  dsimp only
  rw [hanswer]
  split
  · next hfresh =>
    intro r' hr'
    simp only [notes_observe_self, Notes.observe, Notes.nextDuty, if_neg (of_decide_eq_true hfresh),
      List.mem_append, List.mem_singleton] at hr'
    exact hr'.imp (fun hr' => lasting_terminal r' _ _ _ _ hinv.consistent hchange (hx.2 r' hr')) id
  · next hknown =>
    refine discharged_step (x := (w, history)) hinv.consistent hchange ?_ hx.2
    have hmem : r ∈ (serviceOf w service.name).submitted := by simpa using hknown
    simp [notes_observe_self, Notes.observe, Notes.nextDuty, hmem]

theorem submit_discharges (r : UUID) (failure : Option Exn) : Triple (rules pid call)
    (fun x => Started r x.1 ∧ Pending pid r x) (service.submit r failure) (fun _ => Discharged pid)
    fun _ x => Started r x.1 ∧ Pending pid r x := by
  refine op_acts (stable_and (lasting_started r).stable (pending_aside r).1) fun w history hinv hx => ?_
  cases failure with
  | some e =>
    have hchange : Change (history.notes pid) (.submit service.name r true) w w := change_same (by simp) w
    refine ⟨hchange, trivial, hx.1, ?_⟩
    refine pending_step (x := (w, history)) hinv.consistent hchange ?_ hx.2
    simp [notes_observe_self, Notes.observe, Notes.nextDuty]
  | none =>
    have hjobs : ∀ other, (serviceOf (w.onService service.name fun s =>
        ((), { s with jobs := s.jobs ++ [r] })).2 other).jobs =
        if other = service.name then (serviceOf w service.name).jobs ++ [r] else (serviceOf w other).jobs := by
      intro other
      rw [serviceOf_onService]
      split <;> rfl
    have hchange : Change (history.notes pid) (.submit service.name r false) w (w.onService service.name fun s =>
        ((), { s with jobs := s.jobs ++ [r] })).2 := by
      refine .quiet rfl rfl rfl rfl ⟨?_, ?_, ?_⟩
      · intro other r' hr'
        rw [hjobs] at hr'
        split at hr'
        · next hname =>
          rw [hname]
          rcases List.mem_append.mp hr' with hr' | hr'
          · exact .inl hr'
          · rw [List.mem_singleton.mp hr']
            exact .inr hx.1
        · exact .inl hr'
      · intro other r' hr'
        rw [hjobs]
        split
        · next hname => exact .inl (List.mem_append_left _ (hname ▸ hr'))
        · exact .inl hr'
      · rintro name r' hlabel
        cases hlabel
        rw [hjobs]
        simp
    refine ⟨hchange, trivial, ?_⟩
    intro r' hr'
    simp only [notes_observe_self, Notes.observe, Notes.nextDuty, Option.isSome_none, Bool.false_eq_true,
      if_false, List.mem_filter, decide_eq_true_eq] at hr'
    exact lasting_terminal r' _ _ _ _ hinv.consistent hchange ((hx.2 r' hr'.1).resolve_right hr'.2)

include hcelery

theorem pollRun_discharges (fails : UUID → Option Exn) (r : UUID) : Triple (rules pid call)
    (fun x => Started r x.1 ∧ Discharged pid x) (service.pollRun fails r) (fun _ => Discharged pid)
    fun _ _ => False := by
  refine (mark_pending r).bind fun marked => ?_
  split
  · next hmarked =>
    subst hmarked
    refine Triple.handle ((submit_discharges r _).bind fun _ => Triple.ret fun _ _ h => h) fun e => ?_
    refine Triple.bind (Q := fun _ x => Started r x.1 ∧ Pending pid r x) ?_ fun _ => ?_
    · refine op_acts (stable_and (lasting_started r).stable (pending_aside r).1) fun w history hinv hx => ?_
      have hchange : Change (history.notes pid) (.unmark service.name r) w (w.onService service.name fun s =>
          ((), { s with submitted := s.submitted.filter (· ≠ r) })).2 :=
        change_submitted w service.name _ (fun _ => rfl) (by simp)
      refine ⟨hchange, trivial, lasting_started r _ _ _ _ hinv.consistent hchange hx.1, ?_⟩
      exact pending_step (x := (w, history)) hinv.consistent hchange (sameTask_noting rfl _ _ _).duty hx.2
    · refine Triple.bind (convergeInfraError_over hcelery (pending_aside r) r) fun _ => Triple.ret ?_
      intro x _ hx r' hr'
      rcases hx.2 r' hr' with hterm | rfl
      · exact hterm
      · exact hx.1
  · next hmarked =>
    rw [Bool.not_eq_true] at hmarked
    subst hmarked
    exact Triple.ret fun _ _ h => h.2

theorem pollRuns_discharges (fails : UUID → Option Exn) (runIds : List UUID) : Triple (rules pid call)
    (fun x => (∀ r ∈ runIds, Started r x.1) ∧ Discharged pid x) (service.pollRuns fails runIds)
    (fun _ => Discharged pid) fun _ _ => False := by
  induction runIds with
  | nil => exact Triple.ret fun _ _ h => h.2
  | cons r rest ih =>
    have hrest : Lasting fun w => ∀ r ∈ rest, Started r w := Lasting.all fun r => (lasting_started r).imp
    have hone : Triple (rules pid call) (fun x => Started r x.1 ∧ Discharged pid x) (service.pollRun fails r)
        (fun _ => Discharged pid) fun _ _ => False := pollRun_discharges hcelery fails r
    have hboth := hone.frame (F := fun x => ∀ r ∈ rest, Started r x.1) (All.any _) hrest.stable
      fun label act _ y hinv _ hguar hy => hrest.acts hinv hguar hy
    refine Triple.bind (hboth.weaken ?_ (fun _ _ _ h => ⟨h.2, h.1⟩) fun _ _ _ h => h.1) fun submitted =>
      Triple.bind ih fun others => Triple.ret fun _ _ h => h
    exact fun x _ h => ⟨⟨h.1 r (by simp), h.2⟩, fun r' hr' => h.1 r' (by simp [hr'])⟩

theorem pollOnce_discharges (fails : UUID → Option Exn) : Triple (rules pid call) (Discharged pid)
    (service.pollOnce fails) (fun _ => Discharged pid) fun _ _ => False := by
  refine Triple.bind (Q := fun runs x => (∀ r ∈ (runs.filter (·.state = .dispatching)).map (·.id),
    Started r x.1) ∧ Discharged pid x) (read_acts discharged_aside.1 ?_) fun runs =>
    pollRuns_discharges hcelery fails _
  intro x hinv hx
  refine ⟨fun r hr => ?_, hx⟩
  obtain ⟨run, hrun, rfl⟩ := List.mem_map.mp hr
  obtain ⟨hmem, hstate⟩ := List.mem_filter.mp hrun
  obtain ⟨r, hget⟩ := (Dict.mem_values_iff _ _).mp ((List.mem_insertionSort _).mp hmem)
  rw [decide_eq_true_eq] at hstate
  exact ⟨run, by rw [hinv.consistent.filed r run hget]; exact hget, by simp [hstate]⟩

end Poll

/-! ## Jobs and managers -/

/-- Nothing is noted of the call yet. -/
def Unnoted (pid : Nat) (x : World × History) : Prop := x.2.notes pid = .fresh

theorem unnoted_stable : Stable (rules pid call) (Unnoted pid) :=
  stable_of_foreign fun _ _ h hx => h.notes.trans hx

theorem Unnoted.discharged {x : World × History} (h : Unnoted pid x) : Discharged pid x := by
  intro r hr
  rw [h] at hr
  cases hr

theorem engaged_aside (r : UUID) : Aside pid call (Engaged pid call r) :=
  ⟨stable_of_foreign fun _ _ h hx => hx.congr h.sameTask, fun _ _ _ _ _ hsame hx => hx.congr hsame⟩

/-- The task of a run is made from its spec. -/
theorem materialize_ok {repo : TestPlanRepository} {r a : UUID} {task : TaskEnvelope}
    (h : materialize repo r a = .ok task) : task.runId = r ∧ ∃ spec, repo.specsByRun.get? r = some spec ∧
      spec.executionPolicy = task.executionPolicy := by
  simp only [materialize, bind_eq_ok_iff, getRunSpec_ok_iff, pure_eq_ok_iff] at h
  obtain ⟨spec, hspec, rfl⟩ := h
  exact ⟨rfl, spec, hspec, rfl⟩

section Job

variable {service : LocalRunnerService}
  (hcelery : service.dispatcher.isCelery = true → call.usesCelery = true)

theorem take_engaged (r : UUID) : Triple (rules pid call) (Unnoted pid) (service.take r)
    (fun taken x => if taken then Started r x.1 ∧ Engaged pid call r x else Discharged pid x)
    fun _ _ => False := by
  refine op_acts unnoted_stable fun w history hinv hx => ?_
  have hfresh : history.notes pid = .fresh := hx
  have hjobs : ∀ other, (serviceOf (w.onService service.name fun s =>
      if r ∈ s.jobs then (true, { s with jobs := s.jobs.erase r }) else (false, s)).2 other).jobs =
      if other = service.name then (serviceOf w service.name).jobs.erase r else (serviceOf w other).jobs := by
    intro other
    rw [serviceOf_onService]
    by_cases hmem : r ∈ (serviceOf w service.name).jobs
    · simp only [if_pos hmem]
      split <;> rfl
    · simp only [if_neg hmem, List.erase_of_not_mem hmem]
      split <;> rfl
  have hchange : Change (history.notes pid) (.take service.name r) w (w.onService service.name fun s =>
      if r ∈ s.jobs then (true, { s with jobs := s.jobs.erase r }) else (false, s)).2 := by
    refine .quiet rfl rfl rfl rfl ⟨?_, ?_, by simp⟩
    · intro other r' hr'
      rw [hjobs] at hr'
      split at hr'
      · next hname => exact .inl (hname ▸ List.mem_of_mem_erase hr')
      · exact .inl hr'
    · intro other r' hr'
      rw [hjobs]
      split
      · next hname =>
        by_cases hr : r' = r
        · exact .inr (by rw [hr, hname])
        · exact .inl ((List.mem_erase_of_ne hr).mpr (hname ▸ hr'))
      · exact .inl hr'
  have hanswer : (w.onService service.name fun s =>
      if r ∈ s.jobs then (true, { s with jobs := s.jobs.erase r }) else (false, s)).1 =
      decide (r ∈ (serviceOf w service.name).jobs) := by
    by_cases hmem : r ∈ (serviceOf w service.name).jobs
    · have hmem' : r ∈ ((w.services.get? service.name).getD ⟨[], []⟩).jobs := hmem
      simp [World.onService, hmem, hmem']
    · have hmem' : r ∉ ((w.services.get? service.name).getD ⟨[], []⟩).jobs := hmem
      simp [World.onService, hmem, hmem']
  refine ⟨hchange, trivial, ?_⟩
  dsimp only
  rw [hanswer]
  dsimp only [Meets]
  split
  · next htaken =>
    have hmem := of_decide_eq_true htaken
    refine ⟨lasting_started r _ _ _ _ hinv.consistent hchange (hinv.consistent.jobs _ r hmem), ?_⟩
    refine ⟨?_, ?_, .inr ?_, ?_⟩ <;>
      simp [notes_observe_self, Notes.observe, Notes.nextBegun, Notes.nextDuty, hfresh, Notes.fresh, hmem]
  · next hleft =>
    have hmem : r ∉ (serviceOf w service.name).jobs := by simpa using hleft
    refine discharged_step (x := (w, history)) hinv.consistent hchange ?_ (Unnoted.discharged hx)
    simp [notes_observe_self, Notes.observe, Notes.nextDuty, hmem]

include hcelery

theorem runJob_over (hmanage : call.isManage = false) (hscheduler : call.hasScheduler = false) (r a : UUID)
    (source : SourceStage) : Triple (rules pid call) (fun x => Started r x.1 ∧ Engaged pid call r x)
    (service.runJob r a source) (fun _ x => isTerminal x.1 r = true ∧ Engaged pid call r x)
    fun _ x => Started r x.1 ∧ Engaged pid call r x := by
  have hstable : Stable (rules pid call) fun x => Started r x.1 ∧ Engaged pid call r x :=
    stable_and (lasting_started r).stable (engaged_aside r).1
  refine Triple.bind (read_skip hstable) fun spec => ?_
  split
  · exact Triple.raise fun _ _ h => h
  · split
    · exact Triple.raise fun _ _ h => h
    · next executor _ =>
      refine Triple.bind (Q := fun task x => (Hired pid call task x ∧ Started r x.1) ∧ task.runId = r)
        (read_acts hstable fun x _ hx => ?_) fun task => Triple.assume fun htask => ?_
      · cases hres : materialize x.1.plans r a with
        | error e => exact hx
        | ok task =>
          obtain ⟨hrun, hspec⟩ := materialize_ok hres
          exact ⟨⟨⟨hrun ▸ hx.2, hrun ▸ hspec, fun hdue => by simp [Due, hmanage] at hdue⟩, hx.1⟩, hrun⟩
      · have hexecute : Triple (rules pid call) (Hired pid call task)
            (service.manager.execute task (executor task)) (fun _ => Executed pid call task.runId)
            fun _ => Settled pid call task.runId :=
          execute_settled (fun dispatcher h => by cases h; exact hcelery) (fun h => by cases h) _
        have hboth := hexecute.frame (F := fun x => Started r x.1) (All.any _) (lasting_started r).stable
          fun label act _ y hinv _ hguar hy => (lasting_started r).acts hinv hguar hy
        refine Triple.bind (hboth.weaken (fun _ _ h => h) (fun _ _ _ h => h) ?_) fun _ => Triple.ret ?_
        · exact fun _ _ _ h => ⟨h.2, htask ▸ h.1.1⟩
        · exact fun _ _ h => ⟨htask ▸ h.1.2 hscheduler, htask ▸ h.1.1.1⟩

theorem worker_discharges (hmanage : call.isManage = false) (hscheduler : call.hasScheduler = false) (r a : UUID)
    (source : SourceStage) : Triple (rules pid call) (Unnoted pid) (service.worker r a source)
    (fun _ => Discharged pid) fun _ => Discharged pid := by
  refine Triple.bind ((take_engaged r).weaken (fun _ _ h => h) (fun _ _ _ h => h) fun _ _ _ h => h.elim)
    fun taken => ?_
  split
  · next htaken =>
    subst htaken
    refine Triple.bind (Q := fun _ x => isTerminal x.1 r = true ∧ Engaged pid call r x) ?_ fun _ => ?_
    · refine Triple.handle (runJob_over hcelery hmanage hscheduler r a source) fun e => ?_
      exact (convergeInfraError_over hcelery (engaged_aside r) r).weaken (fun _ _ h => h) (fun _ _ _ h => h)
        fun _ _ _ h => h.elim
    · refine op_acts (stable_and (lasting_terminal r).stable (engaged_aside r).1) fun w history hinv hx => ?_
      have hchange : Change (history.notes pid) (.completed service.name r) w (w.onService service.name fun s =>
          ((), { s with submitted := s.submitted.filter (· ≠ r) })).2 :=
        change_submitted w service.name _ (fun _ => rfl) (by simp)
      refine ⟨hchange, ⟨hx.1, hx.2.begun⟩, ?_⟩
      intro r' hr'
      rw [notes_observe_self] at hr'
      rw [hx.2.only r' hr']
      exact lasting_terminal r _ _ _ _ hinv.consistent hchange hx.1
  · next htaken =>
    rw [Bool.not_eq_true] at htaken
    subst htaken
    exact Triple.ret fun _ _ h => h

end Job

theorem Settled.discharged {r : UUID} {x : World × History} (hmanage : call.isManage = true)
    (h : Settled pid call r x) : Discharged pid x := by
  intro r' hr'
  have hr : r' = r := h.1.only r' hr'
  subst hr
  exact h.2 ⟨hmanage, hr'⟩

theorem manage_discharges {manager : Manager} (hmanage : call.isManage = true)
    (hsched : manager.retryScheduler.isSome = true → call.hasScheduler = true)
    (hcelery : ∀ dispatcher, manager.completionCallback = some dispatcher → dispatcher.isCelery = true →
      call.usesCelery = true) (r a : UUID) (executor : TaskEnvelope → Behaviour) :
    Triple (rules pid call) (Unnoted pid) (manage manager r a executor) (fun _ => Discharged pid)
      fun _ => Discharged pid := by
  refine Triple.bind (Q := fun task => Hired pid call task) (read_acts unnoted_stable fun x _ hx => ?_)
    fun task => ?_
  · cases hres : materialize x.1.plans r a with
    | error e => exact hx.discharged
    | ok task =>
      obtain ⟨hrun, hspec⟩ := materialize_ok hres
      have hfresh : x.2.notes pid = .fresh := hx
      refine ⟨⟨?_, ?_, .inl hmanage, ?_⟩, hrun ▸ hspec, ?_⟩ <;> simp [Due, hfresh, Notes.fresh]
  · exact (execute_settled hcelery hsched _).weaken (fun _ _ h => h) (fun _ _ _ h => h.1.discharged hmanage)
      fun _ _ _ h => h.discharged hmanage

/-! ## All calls -/

theorem plain_op {α : Type} {label : Label} {f : World → Except Exn α × World} (h : label.plain = true) :
    Plain (.op label f) := All.op h

theorem advance_plain {site : Site} (message : String) (r : UUID) : Plain (advance site message r) := by
  refine All.bind (plain_op rfl) fun current => ?_
  split
  · exact All.raise _
  · split
    · exact All.ret _
    · refine All.handle (plain_op rfl) fun e => ?_
      split
      · exact All.raise _
      · refine All.bind (plain_op rfl) fun current => ?_
        split
        · exact All.ret _
        · exact All.raise _

theorem dispatch_plain (dispatcher : Dispatcher) (r : UUID) : Plain (dispatch dispatcher r) :=
  (dispatch_all dispatcher r).mono fun _ _ => plain_of_coordinator

theorem createRun_plain {fingerprint : Engine → Dict String Json → String} (newId : UUID) (engine : Engine)
    (parameters : Dict String Json) (key : Option String) (autoDispatch : Bool) (dispatcher : Dispatcher) :
    Plain (createRun fingerprint newId engine parameters key autoDispatch dispatcher) := by
  unfold createRun
  split
  · exact All.raise _
  · refine All.bind (plain_op rfl) fun ⟨run, replayed⟩ => ?_
    dsimp only
    split
    · refine All.bind (plain_op rfl) fun queued => All.bind ?_ fun _ => All.ret _
      exact (dispatch_plain dispatcher _).handle fun e => All.bind (plain_op rfl) fun _ => All.raise _
    · exact All.ret _

theorem executeTestPlan_plain {refs : References} (planCall : PlanCall) (autoDispatch : Bool)
    (dispatcher : Dispatcher) : Plain (executeTestPlan refs planCall autoDispatch dispatcher) := by
  unfold executeTestPlan
  split
  · exact All.raise _
  · refine All.bind (plain_op rfl) fun ⟨batch, replayed⟩ => ?_
    dsimp only
    split
    · refine ((dispatchAvailable_all dispatcher _).mono fun _ _ => plain_of_coordinator).bind fun result => ?_
      split
      · exact All.raise _
      · exact All.ret _
    · exact All.ret _

theorem retryRun_plain (r : UUID) : Plain (retryRun r) := by
  refine All.bind (plain_op rfl) fun current => ?_
  split
  · exact All.ret _
  · exact All.bind (plain_op rfl) fun _ => advance_plain _ r

theorem recoverLostAttempts_plain (now : Option Instant) : Plain (recoverLostAttempts now) := by
  have hrest : ∀ cutoff, Plain (expireAttemptLeases cutoff >>= fun lost => pure lost.length) :=
    fun cutoff => All.bind (plain_op rfl) fun _ => All.ret _
  cases now with
  | some instant => exact hrest instant
  | none => exact All.bind (plain_op rfl) hrest

/-- A call that takes no run on itself. -/
theorem discharges_of_plain {α : Type} {p : Proc α} (hkeeps : Keeps pid call (fun _ => True) p)
    (hplain : Plain p) : Triple (rules pid call) (Unnoted pid) (silent p) (fun _ => Discharged pid)
      fun _ => Discharged pid := by
  refine Triple.bind (Q := fun _ => Discharged pid) ?_ fun _ => Triple.ret fun _ _ h => h
  exact (hkeeps.aside hplain discharged_aside).weaken (fun _ _ h => ⟨trivial, h.discharged⟩) (fun _ _ _ h => h)
    fun _ _ _ h => h

/-- Every call keeps the rules, and when it has ended its runs are over. -/
theorem call_discharges (fingerprint : Engine → Dict String Json → String) (refs : References) (pid : Nat)
    (call : Call) : Triple (rules pid call) (Unnoted pid) (call.program fingerprint refs)
      (fun _ => Discharged pid) fun _ => Discharged pid := by
  cases call with
  | createRun newId engine parameters key autoDispatch dispatcher =>
    exact discharges_of_plain (createRun_keeps newId engine parameters key autoDispatch dispatcher)
      (createRun_plain newId engine parameters key autoDispatch dispatcher)
  | executeTestPlan planCall autoDispatch dispatcher =>
    exact discharges_of_plain (executeTestPlan_keeps _ _ id) (executeTestPlan_plain planCall autoDispatch dispatcher)
  | cancel r => exact discharges_of_plain (cancel_keeps r rfl) (plain_op rfl)
  | dispatch dispatcher r =>
    exact ((dispatch_keeps dispatcher r).aside (dispatch_plain dispatcher r) discharged_aside).weaken
      (fun _ _ h => ⟨trivial, h.discharged⟩) (fun _ _ _ h => h) fun _ _ _ h => h
  | prepareRun r => exact discharges_of_plain (prepareRun_keeps r) (advance_plain _ r)
  | retryRun r => exact discharges_of_plain (retryRun_keeps r) (retryRun_plain r)
  | recoverLostAttempts now =>
    exact discharges_of_plain (recoverLostAttempts_keeps now rfl) (recoverLostAttempts_plain now)
  | dispatchAvailable dispatcher batchId =>
    exact discharges_of_plain (dispatchAvailable_keeps id batchId)
      ((dispatchAvailable_all dispatcher batchId).mono fun _ _ => plain_of_coordinator)
  | onRunFinished dispatcher r =>
    exact discharges_of_plain (onRunFinished_keeps id r)
      ((onRunFinished_all dispatcher r).mono fun _ _ => plain_of_coordinator)
  | pollOnce service fails =>
    refine Triple.bind (Q := fun _ => Discharged pid) ?_ fun _ => Triple.ret fun _ _ h => h
    exact (pollOnce_discharges id fails).weaken (fun _ _ h => h.discharged) (fun _ _ _ h => h)
      fun _ _ _ h => h.elim
  | worker service r a source => exact worker_discharges id rfl rfl r a source
  | manage manager r a executor =>
    refine Triple.bind (Q := fun _ => Discharged pid) ?_ fun _ => Triple.ret fun _ _ h => h
    exact manage_discharges rfl id (fun dispatcher h hc => by simp [Call.usesCelery, h, hc]) r a executor

end SmartTest.System
