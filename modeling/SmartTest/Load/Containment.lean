import SmartTest.Load.Perform
import SmartTest.Load.Progress
import SmartTest.Load.Scenarios

/-!
# Failures stay in their scenario

Whatever a step of a scenario meets, the worker counts it, hands its response over and goes
on, except in the two cases in which an exception passes its handlers: then the worker is
lost, and with it the run.
-/

open SmartTest.Lib SmartTest.Run

namespace SmartTest.Load

namespace Running

/-! ## Every step counts once -/

/-- How many steps the scenarios have executed. -/
def stepsExecuted (shared : ScenarioShared) : Nat :=
  ((List.range' 1 shared.sequence).map fun s => (shared.history s).length).sum

def reporting : Worker ScenarioControl → Nat
  | .counting _ _ _ => 1
  | _ => 0

/-- A worker may stop: the run is cancelled, every scenario is claimed, or the deadline has passed. -/
def Over (definition : LoadTestRecord) (deadline : Prop) (cancelled : Bool) (sequence : Nat) : Prop :=
  cancelled = true ∨ definition.mode = .count ∧ definition.requestCount ≤ sequence ∨
    definition.mode = .duration ∧ deadline

/-- Each step that was executed is counted, or about to be, each that is counted has its response record, and a worker
has stopped only when it may. -/
structure Recorded (definition : LoadTestRecord) (deadline : Prop) (x : Running ScenarioShared ScenarioControl) :
    Prop where
  claimed : ∀ w ∈ x.crew, ∀ s, (point w).bind scenarioOf = some s → 1 ≤ s ∧ s ≤ x.shared.sequence
  fresh : ∀ s, x.shared.sequence < s → x.shared.history s = []
  total : x.metrics.totalRequests + crewSum reporting x.crew = stepsExecuted x.shared
  sequences : x.recorded.map (·.sequence) = List.range' 1 x.metrics.totalRequests
  stopped : ∀ w ∈ x.crew, w = .returned → Over definition deadline x.service.cancelled x.shared.sequence

/-- One of the scenarios has executed one more step. -/
theorem sum_update {l : List Nat} (hnodup : l.Nodup) {s : Nat} (hs : s ∈ l) (history : Nat → List (Nat × Bool))
    (e : Nat × Bool) :
    (l.map fun r => (Function.update history s (history s ++ [e]) r).length).sum =
      (l.map fun r => (history r).length).sum + 1 := by
  induction l with
  | nil => simp at hs
  | cons first rest ih =>
    obtain ⟨hfirst, hrest⟩ := List.nodup_cons.mp hnodup
    simp only [List.map_cons, List.sum_cons]
    by_cases heq : s = first
    · subst heq
      have hothers : (rest.map fun r => (Function.update history s (history s ++ [e]) r).length) =
          rest.map fun r => (history r).length := by
        apply List.map_congr_left
        intro r hr
        have hne : r ≠ s := by
          rintro rfl
          exact hfirst hr
        rw [Function.update_of_ne hne]
      rw [hothers, Function.update_self, List.length_append, List.length_singleton]
      omega
    · have hmem : s ∈ rest := (List.mem_cons.mp hs).resolve_left heq
      rw [ih hrest hmem, Function.update_of_ne (Ne.symm heq)]
      omega

theorem stepsExecuted_claim {shared : ScenarioShared} (hfresh : shared.history (shared.sequence + 1) = []) :
    stepsExecuted { shared with sequence := shared.sequence + 1 } = stepsExecuted shared := by
  simp [stepsExecuted, List.range'_1_concat, Nat.add_comm 1, hfresh]

theorem stepsExecuted_execute {shared : ScenarioShared} {s : Nat} (hs : 1 ≤ s ∧ s ≤ shared.sequence)
    (e : Nat × Bool) :
    stepsExecuted { shared with history := Function.update shared.history s (shared.history s ++ [e]) } =
      stepsExecuted shared + 1 := by
  have hmem : s ∈ List.range' 1 shared.sequence := by
    rw [List.mem_range'_1]
    omega
  exact sum_update List.nodup_range' hmem shared.history e

section Control

variable {definition : LoadTestRecord} {deadline : Prop} {δ : Type} {runId : UUID}
  {perform : LoadTestTarget → Dict String Json → Nat → δ → Except Raised (Answer × Dict String Json)}
  {x y : Running ScenarioShared ScenarioControl} {crew : List (Worker ScenarioControl)} {i : Nat}
  {w w' : Worker ScenarioControl}

theorem Over.mono {cancelled cancelled' : Bool} {sequence sequence' : Nat}
    (h : Over definition deadline cancelled sequence) (hcancelled : cancelled = true → cancelled' = true)
    (hle : sequence ≤ sequence') : Over definition deadline cancelled' sequence' := by
  rcases h with hset | ⟨hmode, hcount⟩ | hlate
  · exact .inl (hcancelled hset)
  · exact .inr (.inl ⟨hmode, hcount.trans hle⟩)
  · exact .inr (.inr hlate)

theorem crew_eq (h : x.workers = some crew) : x.crew = crew := by
  rw [Running.crew, h, Option.getD_some]

/-- A worker moves without executing a step or claiming a scenario. -/
theorem Recorded.stay (h : Recorded definition deadline x) (hcrew : x.workers = some crew) (hw : crew[i]? = some w)
    (hworkers : y.workers = some (crew.set i w')) (hshared : y.shared = x.shared)
    (hcancelled : y.service.cancelled = x.service.cancelled)
    (htotal : y.metrics.totalRequests + reporting w' = x.metrics.totalRequests + reporting w)
    (hsequences : y.recorded.map (·.sequence) = List.range' 1 y.metrics.totalRequests)
    (hscenario : ∀ s, (point w').bind scenarioOf = some s → (point w).bind scenarioOf = some s)
    (hstopped : w' = .returned → Over definition deadline x.service.cancelled x.shared.sequence) :
    Recorded definition deadline y := by
  obtain ⟨hclaimed, hfresh, hbefore, -, hreturned⟩ := h
  rw [crew_eq hcrew] at hclaimed hbefore hreturned
  have hsum := crewSum_set hw reporting w'
  refine ⟨?_, ?_, ?_, hsequences, ?_⟩
  · rw [crew_eq hworkers, hshared]
    apply forall_mem_set hclaimed
    intro s hs
    exact hclaimed w (List.mem_of_getElem? hw) s (hscenario s hs)
  · rw [hshared]
    exact hfresh
  · rw [crew_eq hworkers, hshared]
    omega
  · rw [crew_eq hworkers, hshared, hcancelled]
    exact forall_mem_set hreturned hstopped

theorem Recorded.claim (h : Recorded definition deadline x) (hcrew : x.workers = some crew)
    (hw : crew[i]? = some (.own .claiming)) (vars : Dict String Json) :
    Recorded definition deadline
      { x.put crew i (.own (.target (x.shared.sequence + 1) 0 vars true)) with
        shared := { x.shared with sequence := x.shared.sequence + 1 } } := by
  obtain ⟨hclaimed, hfresh, hbefore, hsequences, hreturned⟩ := h
  rw [crew_eq hcrew] at hclaimed hbefore hreturned
  have hsum := crewSum_set hw reporting (.own (.target (x.shared.sequence + 1) 0 vars true))
  refine ⟨?_, ?_, ?_, hsequences, ?_⟩
  · apply forall_mem_set
    · intro w hw s hs
      obtain ⟨hpos, hle⟩ := hclaimed w hw s hs
      exact ⟨hpos, Nat.le_succ_of_le hle⟩
    · rintro s ⟨⟩
      exact ⟨Nat.succ_pos _, le_rfl⟩
  · intro s hs
    exact hfresh s (Nat.lt_of_succ_lt hs)
  · rw [stepsExecuted_claim (hfresh _ (Nat.lt_succ_self _)), ← hbefore]
    exact congrArg _ hsum
  · apply forall_mem_set
    · intro w hw hw'
      exact (hreturned w hw hw').mono id (Nat.le_succ _)
    · rintro ⟨⟩

theorem Recorded.execute {s t : Nat} {vars vars' : Dict String Json} {success success' : Bool}
    (h : Recorded definition deadline x) (hcrew : x.workers = some crew)
    (hw : crew[i]? = some (.own (.request s t vars success))) (target : String) (answer : Answer) :
    Recorded definition deadline
      { x.put crew i (.counting target answer (.reported s t vars' success' answer.success)) with
        shared := { x.shared with
          history := Function.update x.shared.history s (x.shared.history s ++ [(t, answer.success)]) } } := by
  obtain ⟨hclaimed, hfresh, hbefore, hsequences, hreturned⟩ := h
  rw [crew_eq hcrew] at hclaimed hbefore hreturned
  obtain ⟨hpos, hle⟩ := hclaimed _ (List.mem_of_getElem? hw) s rfl
  refine ⟨?_, ?_, ?_, hsequences, ?_⟩
  · apply forall_mem_set hclaimed
    rintro r ⟨⟩
    exact ⟨hpos, hle⟩
  · intro r hr
    have hne : r ≠ s := by
      rintro rfl
      exact absurd hle (Nat.not_le_of_lt hr)
    simpa [Function.update_of_ne hne] using hfresh r hr
  · rw [stepsExecuted_execute ⟨hpos, hle⟩, ← hbefore]
    exact congrArg (x.metrics.totalRequests + ·) (crewSum_set hw reporting _)
  · apply forall_mem_set hreturned
    rintro ⟨⟩

/-- A step of the control that lets no exception through. -/
theorem Recorded.own (h : Recorded definition deadline x) (hcrew : x.workers = some crew) {k : ScenarioControl}
    (hw : crew[i]? = some (.own k)) {choice : ScenarioChoice δ} (hlate : choice.late = true → deadline)
    {shared : ScenarioShared} {next : Next ScenarioControl} (hescape : ∀ e, next ≠ .escape e)
    (hstep : (scenarioControl definition perform).step i x.service.cancelled x.shared k choice = some (shared, next)) :
    Recorded definition deadline { x.put crew i next.worker with shared := shared } := by
  have hgoto : ∀ k', shared = x.shared → next = .goto k' →
      (∀ s, scenarioOf k' = some s → scenarioOf k = some s) →
      Recorded definition deadline { x.put crew i next.worker with shared := shared } := by
    rintro k' rfl rfl hscenario
    exact h.stay hcrew hw rfl rfl rfl rfl h.sequences hscenario (by rintro ⟨⟩)
  have hdone : shared = x.shared → next = .done →
      Over definition deadline x.service.cancelled x.shared.sequence →
      Recorded definition deadline { x.put crew i next.worker with shared := shared } := by
    rintro rfl rfl hover
    exact h.stay hcrew hw rfl rfl rfl rfl h.sequences (by rintro s ⟨⟩) (fun _ => hover)
  cases k with
  | top =>
    simp only [scenarioControl] at hstep
    obtain ⟨rfl, rfl⟩ := Prod.mk.inj (Option.some.inj hstep)
    by_cases hcancelled : x.service.cancelled = true
    · exact hdone rfl (if_pos hcancelled) (.inl hcancelled)
    · exact hgoto .claiming rfl (if_neg hcancelled) (by rintro s ⟨⟩)
  | claiming =>
    simp only [scenarioControl] at hstep
    split at hstep
    · next hcount =>
      obtain ⟨rfl, rfl⟩ := Prod.mk.inj (Option.some.inj hstep)
      exact hdone rfl rfl (.inr (.inl hcount))
    · split at hstep
      · next hduration =>
        obtain ⟨rfl, rfl⟩ := Prod.mk.inj (Option.some.inj hstep)
        exact hdone rfl rfl (.inr (.inr ⟨hduration.1, hlate hduration.2⟩))
      · obtain ⟨rfl, rfl⟩ := Prod.mk.inj (Option.some.inj hstep)
        exact h.claim hcrew hw _
  | target s t vars success =>
    simp only [scenarioControl] at hstep
    split at hstep
    · obtain ⟨rfl, rfl⟩ := Prod.mk.inj (Option.some.inj hstep)
      exact hgoto _ rfl rfl (fun _ hs => hs)
    · split at hstep
      all_goals
        obtain ⟨rfl, rfl⟩ := Prod.mk.inj (Option.some.inj hstep)
        exact hgoto _ rfl rfl (fun _ hs => hs)
  | request s t vars success =>
    simp only [scenarioControl, Option.bind_eq_bind, Option.bind_eq_some_iff] at hstep
    obtain ⟨target, -, hstep⟩ := hstep
    split at hstep
    · next e _ =>
      obtain ⟨rfl, rfl⟩ := Prod.mk.inj (Option.some.inj hstep)
      exact absurd rfl (hescape e)
    · next answer extracted _ =>
      obtain ⟨rfl, rfl⟩ := Prod.mk.inj (Option.some.inj hstep)
      exact h.execute hcrew hw target.name answer
  | reported s t vars success answered =>
    simp only [scenarioControl, Option.bind_eq_bind, Option.bind_eq_some_iff] at hstep
    obtain ⟨target, -, hstep⟩ := hstep
    split at hstep
    · obtain ⟨rfl, rfl⟩ := Prod.mk.inj (Option.some.inj hstep)
      exact hgoto _ rfl rfl (fun _ hs => hs)
    · split at hstep
      · obtain ⟨rfl, rfl⟩ := Prod.mk.inj (Option.some.inj hstep)
        exact hgoto _ rfl rfl (fun _ hs => hs)
      · split at hstep
        all_goals
          obtain ⟨rfl, rfl⟩ := Prod.mk.inj (Option.some.inj hstep)
          exact hgoto _ rfl rfl (fun _ hs => hs)
  | ending s success completed =>
    simp only [scenarioControl] at hstep
    split at hstep
    · obtain ⟨rfl, rfl⟩ := Prod.mk.inj (Option.some.inj hstep)
      have hstay := h.stay (y := x.put crew i (.closing success .recheck)) hcrew hw rfl rfl rfl rfl h.sequences
        (by rintro s ⟨⟩) (by rintro ⟨⟩)
      exact ⟨hstay.claimed, hstay.fresh, hstay.total, hstay.sequences, hstay.stopped⟩
    · obtain ⟨rfl, rfl⟩ := Prod.mk.inj (Option.some.inj hstep)
      exact h.stay hcrew hw rfl rfl rfl rfl h.sequences (by rintro s ⟨⟩) (by rintro ⟨⟩)
  | recheck =>
    simp only [scenarioControl] at hstep
    split at hstep
    · next hcancelled =>
      obtain ⟨rfl, rfl⟩ := Prod.mk.inj (Option.some.inj hstep)
      exact hdone rfl rfl (.inl hcancelled)
    · split at hstep
      · next hcount =>
        obtain ⟨rfl, rfl⟩ := Prod.mk.inj (Option.some.inj hstep)
        exact hdone rfl rfl (.inr (.inl hcount))
      · obtain ⟨rfl, rfl⟩ := Prod.mk.inj (Option.some.inj hstep)
        exact hgoto _ rfl rfl (by rintro s ⟨⟩)
  | delay =>
    simp only [scenarioControl] at hstep
    split at hstep
    · next hcancelled =>
      obtain ⟨rfl, rfl⟩ := Prod.mk.inj (Option.some.inj hstep)
      exact hdone rfl rfl (.inl hcancelled.2.2)
    · obtain ⟨rfl, rfl⟩ := Prod.mk.inj (Option.some.inj hstep)
      exact hgoto _ rfl rfl (by rintro s ⟨⟩)

/-- What a report counts. -/
theorem Moved.request_total {γ ι : Type} {control : Control γ ScenarioControl ι} {x y : Running γ ScenarioControl}
    {m : Move ι} (h : Moved control runId x crew m w y) (hw : ∀ k, w ≠ .own k)
    (hworkers : y.workers = some (crew.set m.worker w')) (hi : m.worker < crew.length) :
    y.metrics.totalRequests + reporting w' = x.metrics.totalRequests + reporting w ∧
    (x.recorded.map (·.sequence) = List.range' 1 x.metrics.totalRequests →
      y.recorded.map (·.sequence) = List.range' 1 y.metrics.totalRequests) := by
  have hw' : ∀ v, y.workers = some (crew.set m.worker v) → w' = v := by
    intro v hv
    have hset := Option.some.inj (hworkers.symm.trans hv)
    have hget := congrArg (fun l => l[m.worker]?) hset
    simpa [List.getElem?_set_self hi] using hget
  cases h with
  | own h => exact absurd rfl (hw _)
  | count target answer k metrics h =>
    obtain rfl := hw' _ rfl
    subst h
    refine ⟨rfl, ?_⟩
    intro hsequences
    simp [hsequences, responseRecord, List.range'_1_concat, Nat.add_comm 1]
  | respond item k service h =>
    obtain rfl := hw' _ rfl
    refine ⟨?_, id⟩
    split <;> rfl
  | close success k =>
    obtain rfl := hw' _ rfl
    exact ⟨rfl, id⟩
  | poll k =>
    obtain rfl := hw' _ rfl
    refine ⟨?_, id⟩
    split <;> rfl
  | snap metrics k service h =>
    obtain rfl := hw' _ rfl
    refine ⟨?_, id⟩
    split <;> rfl
  | write k service h =>
    obtain rfl := hw' _ rfl
    refine ⟨?_, id⟩
    split <;> rfl

theorem Recorded.move (h : Recorded definition deadline x) {m : Move (ScenarioChoice δ)}
    (hlate : m.choice.late = true → deadline)
    (hmove : x.move (scenarioControl definition perform) runId m = some y) (hy : Contained y) :
    Recorded definition deadline y := by
  obtain ⟨crew, w, hcrew, hw, hmoved⟩ := move_cases hmove
  have hi : m.worker < crew.length := (List.getElem?_eq_some_iff.mp hw).1
  by_cases hown : ∃ k, w = .own k
  · obtain ⟨k, rfl⟩ := hown
    cases hmoved with
    | @own _ shared next hstep =>
      refine h.own hcrew hw hlate ?_ hstep
      rintro e rfl
      exact hy e (List.mem_of_getElem? (List.getElem?_set_self hi))
  · have hreport : ∀ k, w ≠ .own k := fun k hk => hown ⟨k, hk⟩
    obtain ⟨w', hworkers, hpoint, hreturned⟩ := hmoved.resumes hreport hy hi
    obtain ⟨hcancelled, hshared, -⟩ := hmoved.scenario_total hreport hworkers hi
    obtain ⟨htotal, hsequences⟩ := hmoved.request_total hreport hworkers hi
    refine h.stay hcrew hw hworkers hshared hcancelled htotal (hsequences h.sequences) ?_ (fun hr => absurd hr hreturned)
    rw [hpoint]
    exact fun s hs => hs

end Control

/-! ## The steps of the whole -/

section Whole

variable {γ κ ι : Type} {control : Control γ κ ι} {runId : UUID} {workers : Nat} {x y : Running γ κ}

/-- The pool is made, a worker moves, or the service takes a step. -/
inductive Stepped (control : Control γ κ ι) (runId : UUID) (workers : Nat) (x : Running γ κ) :
    Label ι → Running γ κ → Prop
  | launch (hworkers : x.workers = none) : Stepped control runId workers x .launch
      { x with workers := some (List.replicate workers (.own control.start)) }
  | worker (m : Move ι) {y : Running γ κ} (h : x.move control runId m = some y) :
      Stepped control runId workers x (.worker m) y
  | service {label : Label ι} (e : Event) {service : Execution} (h : x.service.step runId e = some service) :
      Stepped control runId workers x label { x with service := service }

theorem step_cases {label : Label ι} (h : x.step control runId workers label = some y) :
    Stepped control runId workers x label y := by
  have hserved : ∀ e, x.onService runId e = some y → Stepped control runId workers x label y := by
    intro e he
    simp only [onService, Option.map_eq_some_iff] at he
    obtain ⟨service, hservice, rfl⟩ := he
    exact .service e hservice
  cases label with
  | launch =>
    simp only [Running.step] at h
    split at h
    · next hworkers =>
      obtain rfl := Option.some.inj h
      exact .launch hworkers
    · cases h
  | worker m => exact .worker m h
  | fail e =>
    simp only [Running.step] at h
    split at h
    · exact hserved _ h
    · cases h
  | join =>
    simp only [Running.step, Option.bind_eq_bind, Option.bind_eq_some_iff] at h
    obtain ⟨crew, -, h⟩ := h
    split at h
    · exact hserved _ h
    · cases h
  | main e =>
    simp only [Running.step] at h
    split at h
    · exact hserved _ h
    · cases h

/-- An exception that has gone through a worker is there for good. -/
theorem Contained.of_step {label : Label ι} (hy : Contained y) (h : x.step control runId workers label = some y) :
    Contained x := by
  cases step_cases h with
  | launch hworkers =>
    intro e
    simp [hworkers]
  | worker m hmove => exact hy.of_move hmove
  | service e hservice => exact hy

theorem Contained.of_run {labels : List (Label ι)} (hy : Contained y)
    (h : runSteps (Running.step control runId workers) x labels = some y) : Contained x := by
  by_contra hx
  exact runSteps_keeps (I := fun x => ¬ Contained x) (fun s label t hs hstep ht => hs (ht.of_step hstep)) hx h hy

end Whole

/-! ## What keeps an exception in -/

section Steps

variable {web : Web} {config : Option LoadTestAuthConfiguration} {token : Option String} {definition : LoadTestRecord}
  {deadline : Prop} {runId : UUID} {workers : Nat} {x y : Running ScenarioShared ScenarioControl}
  {label : Label (ScenarioChoice StepDraws)}

/-- The worker that moves does not send a step whose URL is a number, and meets no variable and no response that nests
too deep. -/
def Benign (web : Web) (config : Option LoadTestAuthConfiguration) (token : Option String) (definition : LoadTestRecord)
    (x : Running ScenarioShared ScenarioControl) : Label (ScenarioChoice StepDraws) → Prop
  | .worker m => ∀ s i vars success target, x.crew[m.worker]? = some (.own (.request s i vars success)) →
      definition.targets[i]? = some target →
      ¬ NumberUrl web target vars s m.choice.draws ∧ ¬ DeepVariable m.choice.draws.room target vars ∧
        ¬ DeepResponse web config token target vars s m.choice.draws
  | _ => True

/-- Only a step that raises leaves the control. -/
theorem scenarioControl_escape {δ : Type}
    {perform : LoadTestTarget → Dict String Json → Nat → δ → Except Raised (Answer × Dict String Json)} {i : Nat}
    {cancelled : Bool} {shared shared' : ScenarioShared} {k : ScenarioControl} {choice : ScenarioChoice δ} {e : Raised}
    (h : (scenarioControl definition perform).step i cancelled shared k choice = some (shared', .escape e)) :
    ∃ s t vars success target, k = .request s t vars success ∧ definition.targets[t]? = some target ∧
      perform target vars s choice.draws = .error e := by
  cases k with
  | request s t vars success =>
    simp only [scenarioControl, Option.bind_eq_bind, Option.bind_eq_some_iff] at h
    obtain ⟨target, htarget, h⟩ := h
    split at h
    · next e' herror =>
      obtain ⟨-, hescape⟩ := Prod.mk.inj (Option.some.inj h)
      obtain rfl := Next.escape.inj hescape
      exact ⟨s, t, vars, success, target, rfl, htarget, herror⟩
    · cases h
  | reported s t vars success answered =>
    simp only [scenarioControl, Option.bind_eq_bind, Option.bind_eq_some_iff] at h
    obtain ⟨target, -, h⟩ := h
    repeat' split at h
    all_goals cases h
  | _ =>
    simp only [scenarioControl] at h
    repeat' split at h
    all_goals cases h

theorem perform_exception {target : LoadTestTarget} {vars : Dict String Json} {sequence : Nat} {draws : StepDraws}
    {e : Raised} (h : perform web config token target vars sequence draws = .error e) : e = .exception := by
  unfold perform at h
  dsimp only at h
  split at h
  all_goals cases h
  all_goals rfl

theorem Contained.step (h : Contained x) (hsteady : Execution.Steady runId x.service)
    (hbenign : Benign web config token definition x label)
    (hstep : x.step (scenarioControl definition (perform web config token)) runId workers label = some y) :
    Contained y := by
  obtain ⟨run, hrun⟩ := hsteady.exists_run
  cases step_cases hstep with
  | launch hworkers =>
    intro e he
    simp at he
  | service e hservice => exact h
  | worker m hmove =>
    obtain ⟨crew, w, hcrew, hw, hmoved⟩ := move_cases hmove
    have hbefore : ∀ v ∈ crew, ∀ e, v ≠ .escaped e := by
      rintro v hv e rfl
      apply h e
      rw [hcrew]
      exact hv
    have hplaced : ∀ w', y.workers = some (crew.set m.worker w') → (∀ e, w' ≠ .escaped e) → Contained y := by
      intro w' hworkers hw' e he
      rw [hworkers] at he
      exact forall_mem_set hbefore hw' _ he e rfl
    cases hmoved with
    | @own k shared next hcontrol =>
      apply hplaced _ rfl
      intro e he
      cases next with
      | escape e' =>
        obtain ⟨s, t, vars, success, target, rfl, htarget, herror⟩ := scenarioControl_escape hcontrol
        rw [← crew_eq hcrew] at hw
        obtain ⟨hnumber, hvariable, hresponse⟩ := hbenign s t vars success target hw htarget
        rcases perform_raises_iff.mp ⟨e', herror⟩ with hbad | hbad | hbad
        · exact hnumber hbad
        · exact hvariable hbad
        · exact hresponse hbad
      | _ => cases he
    | count target answer k metrics hmetrics => exact hplaced _ rfl (by rintro e ⟨⟩)
    | respond item k service hservice =>
      apply hplaced _ rfl
      rw [Execution.respondRaises_stored hrun]
      rintro e ⟨⟩
    | close success k => exact hplaced _ rfl (by rintro e ⟨⟩)
    | poll k =>
      apply hplaced _ rfl
      intro e
      split <;> simp
    | snap metrics k service hservice =>
      apply hplaced _ rfl
      intro e
      split <;> simp
    | write k service hservice =>
      apply hplaced _ rfl
      rw [Execution.snapshotRaises_stored hrun]
      rintro e ⟨⟩

/-- A step that is not benign loses its worker. -/
theorem escapes_of_not_benign (hbad : ¬ Benign web config token definition x label)
    (hstep : x.step (scenarioControl definition (perform web config token)) runId workers label = some y) :
    ¬ Contained y := by
  cases label with
  | worker m =>
    simp only [Benign, not_forall] at hbad
    obtain ⟨s, t, vars, success, target, hw, htarget, hbad⟩ := hbad
    obtain ⟨crew, w, hcrew, hw', hmoved⟩ := move_cases (m := m) hstep
    rw [crew_eq hcrew] at hw
    obtain rfl := Option.some.inj (hw.symm.trans hw')
    have hbreaks : NumberUrl web target vars s m.choice.draws ∨ DeepVariable m.choice.draws.room target vars ∨
        DeepResponse web config token target vars s m.choice.draws := by
      by_contra hnone
      exact hbad (by simpa only [not_or] using hnone)
    obtain ⟨e, herror⟩ := perform_raises_iff.mpr hbreaks
    cases hmoved with
    | @own _ shared next hcontrol =>
      simp only [scenarioControl, htarget, herror, Option.bind_eq_bind, Option.bind_some] at hcontrol
      obtain ⟨rfl, rfl⟩ := Prod.mk.inj (Option.some.inj hcontrol)
      intro hy
      exact hy e (List.mem_of_getElem? (List.getElem?_set_self (List.getElem?_eq_some_iff.mp hw).1))
  | _ => exact absurd trivial hbad

/-- The flag is never taken back. -/
theorem cancelled_service {x y : Execution} {e : Event} (h : x.step runId e = some y) (hx : x.cancelled = true) :
    y.cancelled = true := by
  cases e with
  | respond item fails => rw [(respond_step h).1, hx]
  | checkSnapshot metrics => rw [(checkSnapshot_step h).1, hx]
  | writeSnapshot => rw [(writeSnapshot_step h).1, hx]
  | flush fails =>
    have hflush : (x.flush runId fails).2.cancelled = true := by
      obtain ⟨repo, pending, heq, -⟩ := Execution.flush_eq runId x fails
      rw [heq, hx]
    simp only [Execution.step] at h
    split at h
    · split at h
      all_goals
        next heq =>
        obtain rfl := Option.some.inj h
        rw [heq] at hflush
        exact hflush
    · split at h
      all_goals
        next heq =>
        obtain rfl := Option.some.inj h
        rw [heq] at hflush
        exact hflush
    · cases h
  | update now =>
    simp only [Execution.step, Execution.update] at h
    split at h
    · split at h <;> obtain rfl := Option.some.inj h <;> exact hx
    · split at h <;> obtain rfl := Option.some.inj h <;> exact hx
    · cases h
  | setCancel =>
    simp only [Execution.step] at h
    split at h
    · cases h
    · obtain rfl := Option.some.inj h
      simp [hx]
  | _ =>
    simp only [Execution.step] at h
    repeat' split at h
    all_goals cases h
    all_goals exact hx

theorem Recorded.step (h : Recorded definition deadline x)
    (hlate : ∀ m, label = .worker m → m.choice.late = true → deadline)
    (hstep : x.step (scenarioControl definition (perform web config token)) runId workers label = some y)
    (hy : Contained y) : Recorded definition deadline y := by
  cases step_cases hstep with
  | launch hworkers =>
    have hstart : ∀ w ∈ List.replicate workers (Worker.own ScenarioControl.top), w = .own .top :=
      fun w hw => List.eq_of_mem_replicate hw
    have hidle : crewSum reporting (List.replicate workers (.own .top)) = crewSum reporting x.crew := by
      rw [Running.crew, hworkers, crewSum_replicate]
      rfl
    refine ⟨?_, h.fresh, ?_, h.sequences, ?_⟩
    · intro w hw s hs
      rw [hstart w hw] at hs
      cases hs
    · rw [← h.total, ← hidle]
      rfl
    · intro w hw hreturned
      rw [hstart w hw] at hreturned
      cases hreturned
  | worker m hmove => exact h.move (hlate m rfl) hmove hy
  | service e hservice =>
    refine ⟨h.claimed, h.fresh, h.total, h.sequences, ?_⟩
    intro w hw hreturned
    exact (h.stopped w hw hreturned).mono (cancelled_service hservice) le_rfl

/-- What a run in `COUNT` mode is like as long as the flag is not set. -/
def Uncancelled (definition : LoadTestRecord) (x : Running ScenarioShared ScenarioControl) : Prop :=
  x.service.cancelled = false →
    (x.workers = none ∧ x.shared = ⟨0, fun _ => [], []⟩ ∧ x.metrics = .empty definition.targetNames) ∨
    ∃ crew, Staged definition x crew

theorem Uncancelled.step (hmode : definition.mode = .count) (h : Uncancelled definition x)
    (hstep : x.step (scenarioControl definition (perform web config token)) runId workers label = some y)
    (hy : Contained y) : Uncancelled definition y := by
  intro hunset
  cases step_cases hstep with
  | launch hworkers =>
    rcases h hunset with ⟨-, hshared, hmetrics⟩ | ⟨crew, hstaged⟩
    · have hlaunched := Staged.launched definition (scenarioControl definition (perform web config token)) rfl hunset
        workers
      refine .inr ⟨_, rfl, hunset, ?_, ?_, ?_, ?_, ?_, ?_, ?_⟩
      · rw [hshared]
        exact hlaunched.sequence_le
      · rw [hshared]
        exact hlaunched.once
      · rw [hshared]
        exact hlaunched.stands
      · rw [hshared]
        exact hlaunched.executed
      · rw [hshared]
        exact hlaunched.fresh
      · rw [hshared, hmetrics]
        exact hlaunched.total
      · rw [hshared]
        exact hlaunched.exhausted
    · cases hworkers.symm.trans hstaged.workers
  | worker m hmove =>
    have hbefore : x.service.cancelled = false := by
      obtain ⟨crew, w, -, -, hmoved⟩ := move_cases hmove
      cases hmoved with
      | respond item k service hservice => exact (respond_step hservice).1.symm.trans hunset
      | snap metrics k service hservice => exact (checkSnapshot_step hservice).1.symm.trans hunset
      | write k service hservice => exact (writeSnapshot_step hservice).1.symm.trans hunset
      | own | count | close | poll => exact hunset
    rcases h hbefore with ⟨hworkers, -⟩ | ⟨crew, hstaged⟩
    · obtain ⟨crew, w, hcrew, -⟩ := move_cases hmove
      cases hworkers.symm.trans hcrew
    · exact .inr (hstaged.step hmode hmove hy)
  | service e hservice =>
    have hbefore : x.service.cancelled = false := by
      by_contra hset
      have hafter := cancelled_service hservice (by simpa using hset)
      rw [hafter] at hunset
      cases hunset
    rcases h hbefore with hearly | ⟨crew, hstaged⟩
    · exact .inl hearly
    · exact .inr ⟨crew, hstaged.workers, hunset, hstaged.sequence_le, hstaged.once, hstaged.stands, hstaged.executed,
        hstaged.fresh, hstaged.total, hstaged.exhausted⟩

theorem steady_step (h : Execution.Steady runId x.service)
    (hstep : x.step (scenarioControl definition (perform web config token)) runId workers label = some y) :
    Execution.Steady runId y.service := by
  rcases step_service hstep with hsame | ⟨e, he⟩
  · rw [hsame]
    exact h
  · exact h.step he

theorem length_step (h : ∀ crew, x.workers = some crew → crew.length = workers)
    (hstep : x.step (scenarioControl definition (perform web config token)) runId workers label = some y) :
    ∀ crew, y.workers = some crew → crew.length = workers := by
  intro crew hcrew
  cases step_cases hstep with
  | launch hworkers =>
    obtain rfl := Option.some.inj hcrew
    exact List.length_replicate
  | worker m hmove =>
    obtain ⟨before, w, hbefore, -, hmoved⟩ := move_cases hmove
    obtain ⟨-, w', hworkers⟩ := hmoved.placed
    obtain rfl := Option.some.inj (hworkers.symm.trans hcrew)
    rw [List.length_set]
    exact h before hbefore
  | service e hservice => exact h crew hcrew

end Steps

/-! ## Whole runs -/

section Runs

variable {web : Web} {config : Option LoadTestAuthConfiguration} {token : Option String} {definition : LoadTestRecord}
  {runId : UUID} {workers : Nat} {before repo : LoadTestRepository} {loadTestId : UUID} {run : LoadTestRunRecord}
  {labels : List (Label (ScenarioChoice StepDraws))} {y : Running ScenarioShared ScenarioControl}

/-- A worker has found the deadline passed. -/
def Expired (labels : List (Label (ScenarioChoice StepDraws))) : Prop :=
  ∃ m, .worker m ∈ labels ∧ m.choice.late = true

/-- `_execute` on a test of scenarios, as it is submitted. -/
def submittedScenarios (repo : LoadTestRepository) (definition : LoadTestRecord) :
    Running ScenarioShared ScenarioControl :=
  submitted repo ⟨0, fun _ => [], []⟩ definition

theorem Recorded.submitted (definition : LoadTestRecord) (deadline : Prop) (repo : LoadTestRepository) :
    Recorded definition deadline (submittedScenarios repo definition) := by
  refine ⟨?_, fun _ _ => rfl, rfl, rfl, ?_⟩
  · rintro w ⟨⟩
  · rintro w ⟨⟩

/-- What a run keeps whose steps are benign. -/
theorem benign_run (hcreated : before.createRun runId loadTestId = .ok (run, repo))
    (hrun : runSteps (Running.step (scenarioControl definition (perform web config token)) runId workers)
      (submittedScenarios repo definition) labels = some y)
    (hbenign : Along (Running.step (scenarioControl definition (perform web config token)) runId workers)
      (Benign web config token definition) (submittedScenarios repo definition) labels) :
    Contained y ∧ Recorded definition (Expired labels) y ∧ (definition.mode = .count → Uncancelled definition y) := by
  have hstart := Tracked.submitted (γ := ScenarioShared) (κ := ScenarioControl) hcreated ⟨0, fun _ => [], []⟩ definition
  have hlate : Along (Running.step (scenarioControl definition (perform web config token)) runId workers)
      (fun _ label => ∀ m, label = .worker m → m.choice.late = true → Expired labels)
      (submittedScenarios repo definition) labels := by
    apply along_of_forall
    rintro label hlabel - m rfl hm
    exact ⟨m, hlabel, hm⟩
  have hinv := (hbenign.and hlate).keeps
    (I := fun x => Execution.Steady runId x.service ∧ Contained x ∧ Recorded definition (Expired labels) x ∧
      (definition.mode = .count → Uncancelled definition x)) ?_ ?_ hrun
  · exact hinv.2
  · rintro s label t ⟨hsteady, hcontained, hrecorded, huncancelled⟩ ⟨hok, hlate⟩ hstep
    have ht : Contained t := hcontained.step hsteady hok hstep
    refine ⟨steady_step hsteady hstep, ht, hrecorded.step hlate hstep ht, ?_⟩
    intro hmode
    exact (huncancelled hmode).step hmode hstep ht
  · refine ⟨hstart.steady, ?_, .submitted definition _ repo, ?_⟩
    · rintro e ⟨⟩
    · intro _ _
      exact .inl ⟨rfl, rfl, rfl⟩

/-- For every accepted test, all variables and all responses, in every run of `_execute` with cancellations at any
time: no exception leaves a worker, every step is counted once and its response is handed over once, no worker stops
before the end, and all scenarios are run, exactly as long as no step that is sent has a number for its URL and no
variable of a step and no response nests too deep. -/
theorem scenario_failures_contained_iff (hworkers : 1 ≤ workers)
    (hcreated : before.createRun runId loadTestId = .ok (run, repo))
    (hrun : runSteps (Running.step (scenarioControl definition (perform web config token)) runId workers)
      (submittedScenarios repo definition) labels = some y) :
    (Contained y ∧
      y.metrics.totalRequests + crewSum reporting y.crew = stepsExecuted y.shared ∧
      y.recorded.map (·.sequence) = List.range' 1 y.metrics.totalRequests ∧
      (.main (.getRun true) ∉ labels ∧ .main (.flush true) ∉ labels →
        ∀ item, y.service.held runId item + crewSum (handing item) y.crew = y.recorded.count item) ∧
      (∀ w ∈ y.crew, w = .returned → Over definition (Expired labels) y.service.cancelled y.shared.sequence) ∧
      (definition.mode = .count → y.service.cancelled = false → y.workers ≠ none → Finished y →
        ExactScenarios definition y)) ↔
    Along (Running.step (scenarioControl definition (perform web config token)) runId workers)
      (Benign web config token definition) (submittedScenarios repo definition) labels := by
  constructor
  · rintro ⟨hcontained, -⟩
    by_contra hnot
    obtain ⟨t, label, t', first, rest, -, hbad, hstep, hrest⟩ := exists_of_not_along hrun hnot
    exact escapes_of_not_benign hbad hstep (hcontained.of_run hrest)
  · intro hbenign
    obtain ⟨hcontained, hrecorded, huncancelled⟩ := benign_run hcreated hrun hbenign
    refine ⟨hcontained, hrecorded.total, hrecorded.sequences, ?_, hrecorded.stopped, ?_⟩
    · rintro ⟨hread, hflushed⟩
      have hreliable : ∀ label ∈ labels,
          Label.Reliable (scenarioControl definition (perform web config token)) label := by
        intro label hlabel
        cases label with
        | worker m =>
          intro i cancelled shared k shared' hescape
          obtain ⟨s, t, vars, success, target, -, -, herror⟩ := scenarioControl_escape hescape
          cases perform_exception herror
        | main e =>
          cases e with
          | getRun fails =>
            cases fails with
            | true => exact absurd hlabel hread
            | false => rfl
          | flush fails =>
            cases fails with
            | true => exact absurd hlabel hflushed
            | false => rfl
          | _ => trivial
        | _ => trivial
      exact (Tracked.run hreliable (.submitted hcreated _ definition) hrun).1.kept
    · intro hmode hunset hmanned hfinished
      rcases huncancelled hmode hunset with ⟨hnone, -⟩ | ⟨crew, hstaged⟩
      · exact absurd hnone hmanned
      · have hlength := runSteps_keeps (I := fun x => ∀ crew, x.workers = some crew → crew.length = workers)
          (fun s label t hs hstep => length_step hs hstep) (by rintro crew ⟨⟩) hrun crew hstaged.workers
        apply hstaged.exact
        · intro w hw
          apply hfinished
          rw [hstaged.workers]
          exact hw
        · rintro rfl
          simp at hlength
          omega

end Runs

/-! ## A URL without a template -/

section Plain

variable {token : List Char → Option (String × List Char)}

theorem substitute_untouched {value : String → Except StepError (List Char)}
    (htoken : ∀ c rest, c ≠ '\x7b' → token (c :: rest) = none) {text : List Char} (h : '\x7b' ∉ text) :
    substitute token value 0 text = .ok text := by
  induction text with
  | nil => rfl
  | cons c rest ih =>
    obtain ⟨hc, hrest⟩ := List.ne_and_not_mem_of_not_mem_cons h
    rw [substitute_plain (htoken c rest hc.symm), ih hrest]
    rfl

theorem renderText_plain {value : String → Except StepError Json} {stringify : Json → List Char}
    (hempty : token [] = none) (htoken : ∀ c rest, c ≠ '\x7b' → token (c :: rest) = none) {text : String}
    (h : '\x7b' ∉ text.toList) : renderText token value stringify text = .ok (.str text) := by
  have hnone : token text.toList = none := by
    cases hchars : text.toList with
    | nil => exact hempty
    | cons c rest =>
      rw [hchars] at h
      exact htoken c rest (List.ne_and_not_mem_of_not_mem_cons h).1.symm
  unfold renderText
  rw [hnone]
  simp only [substitute_untouched htoken h, ok_bind, String.ofList_toList]
  rfl

theorem matchTemplate_plain (c : Char) (rest : List Char) (h : c ≠ '\x7b') : matchTemplate (c :: rest) = none := by
  unfold matchTemplate
  split
  · next heq => exact absurd (List.cons.inj heq).1 h
  · rfl

theorem matchDynamic_plain (c : Char) (rest : List Char) (h : c ≠ '\x7b') : matchDynamic (c :: rest) = none := by
  unfold matchDynamic
  split
  · next heq => exact absurd (List.cons.inj heq).1 h
  · rfl

/-- Only a URL with a template in it becomes a number. -/
theorem NumberUrl.templated {web : Web} {target : LoadTestTarget} {vars : Dict String Json} {sequence : Nat}
    {draws : StepDraws} (h : NumberUrl web target vars sequence draws) : '\x7b' ∈ target.url.toList := by
  by_contra hplain
  obtain ⟨rendered, hrendered, -, hnumber⟩ := h
  simp only [renderTarget, renderTexts, renderDynamicTarget, bind_eq_ok_iff, pure_eq_ok_iff] at hrendered
  obtain ⟨scenario, ⟨url, hurl, _, -, _, -, _, -, rfl⟩, _, -, _, -, url', hurl', _, -, _, -, _, -, _, -, rfl⟩ := hrendered
  have hfirst : renderJson (renderHeld web.floatText draws.room.texts vars) (.str target.url) = .ok (.str target.url) :=
    renderText_plain rfl matchTemplate_plain hplain
  obtain rfl := Except.ok.inj (hfirst.symm.trans hurl)
  have hsecond : renderJson (renderText matchDynamic (fun expression => generateDynamicValue draws.dynamic expression
      sequence) (stringifyTemplateValue web.floatText)) (.str target.url) = .ok (.str target.url) :=
    renderText_plain rfl matchDynamic_plain hplain
  obtain rfl := Except.ok.inj (hsecond.symm.trans hurl')
  cases hnumber

end Plain

/-! ## A URL that is a number -/

/-- The libraries on the one URL below. -/
def pingWeb : Web where
  split text := if text = "http://example.com/ping" then some ("http", "example.com") else some ("", "")
  join _ text := some text
  index _ := none
  allowed text := text = "http://example.com/ping"
  floatText _ := []

/-- `{{id}}` as the whole URL. -/
def numberTarget : LoadTestTarget :=
  { Execution.pingTarget with url := "\x7b\x7bid\x7d\x7d", url_length := by decide }

/-- Two scenarios of one step. -/
def pingScenarios : LoadTestRecord := { Execution.pingTest with trafficMode := .scenario }

/-- The same, with the variable `id` for its URL. -/
def numberScenarios : LoadTestRecord :=
  { pingScenarios with
    targets := [numberTarget]
    initialVariables := Dict.empty.set "id" (.int 5)
    targets_count := by decide
    targets_nodup := by decide }

def pongReply : Reply := .answered 200 ⟨some "pong", "text", false, 4⟩ .notJson

def pingDraws : StepDraws := ⟨⟨"", 0, 0, fun _ _ => 0⟩, ⟨fun _ => 480, 480⟩, pongReply⟩

def scenarioStep : Label (ScenarioChoice StepDraws) := .worker ⟨0, ⟨false, pingDraws⟩, false⟩

/-- The first step of the first scenario, and what follows of it. -/
def numberRun : List (Label (ScenarioChoice StepDraws)) :=
  [.main (.getRun false), .launch] ++ List.replicate 4 scenarioStep ++
    [.join, .main (.flush false), .main (.update 9), .main .leave]

def storeOf (definition : LoadTestRecord) : LoadTestRepository :=
  { pingBefore with definitions := Dict.empty.set ⟨"t"⟩ definition }

theorem number_url_aborts_run : ∃ y run repo last, (storeOf numberScenarios).createRun ⟨"r"⟩ ⟨"t"⟩ = .ok (run, repo) ∧
    runSteps (Running.step (scenarioControl numberScenarios (perform pingWeb none none)) ⟨"r"⟩ 1)
      (submittedScenarios repo numberScenarios) numberRun = some y ∧
    y.workers = some [.escaped .exception] ∧ y.metrics.totalRequests = 0 ∧ y.recorded = [] ∧
    y.shared.sequence = 1 ∧ numberScenarios.requestCount = 2 ∧
    y.service.repo.getRun ⟨"r"⟩ = .ok last ∧ last.status = .failed ∧
    last.errorMessage = some "Load test execution failed" :=
  ⟨_, _, _, _, rfl, rfl, rfl, rfl, rfl, rfl, rfl, rfl, rfl, rfl⟩

/-- One scenario of one step. -/
def pingScenario : LoadTestRecord := { pingScenarios with requestCount := 1, requestCount_range := by decide }

def pingScenarioRun : List (Label (ScenarioChoice StepDraws)) :=
  [.main (.getRun false), .launch] ++ List.replicate 13 scenarioStep

/-- The one worker has returned, and nobody has cancelled. -/
def returnedAlone (x : Running ScenarioShared ScenarioControl) : Bool :=
  match x.workers with
  | some [.returned] => !x.service.cancelled
  | _ => false

theorem ping_scenario_contained : ∃ y run repo, (storeOf pingScenario).createRun ⟨"r"⟩ ⟨"t"⟩ = .ok (run, repo) ∧
    runSteps (Running.step (scenarioControl pingScenario (perform pingWeb none none)) ⟨"r"⟩ 1)
      (submittedScenarios repo pingScenario) pingScenarioRun = some y ∧
    Contained y ∧ Finished y ∧ ExactScenarios pingScenario y := by
  obtain ⟨run, repo, hcreated, hreturned⟩ : ∃ run repo,
      (storeOf pingScenario).createRun ⟨"r"⟩ ⟨"t"⟩ = .ok (run, repo) ∧
      (runSteps (Running.step (scenarioControl pingScenario (perform pingWeb none none)) ⟨"r"⟩ 1)
        (submittedScenarios repo pingScenario) pingScenarioRun).any returnedAlone = true :=
    ⟨_, _, rfl, by decide +kernel⟩
  obtain ⟨y, hrun, hy⟩ := (Option.any_eq_true _ _).mp hreturned
  have hbenign : Along (Running.step (scenarioControl pingScenario (perform pingWeb none none)) ⟨"r"⟩ 1)
      (Benign pingWeb none none pingScenario) (submittedScenarios repo pingScenario) pingScenarioRun := by
    apply along_of_forall
    intro label hlabel x
    have hknown : label = .main (.getRun false) ∨ label = .launch ∨ label = scenarioStep := by
      simpa [pingScenarioRun] using hlabel
    rcases hknown with rfl | rfl | rfl
    · trivial
    · trivial
    · intro s i vars success target _ htarget
      obtain rfl : target = Execution.pingTarget := List.mem_singleton.mp (List.mem_of_getElem? htarget)
      refine ⟨?_, ?_, ?_⟩
      · intro hnumber
        exact absurd (NumberUrl.templated hnumber) (by decide)
      · rintro ⟨before, text, name, after, htokens, -⟩
        have hnone : Execution.pingTarget.tokens = [] := by decide
        simp [hnone] at htokens
      · rintro ⟨prepared, status, details, payload, -, hreply, -, hdeep⟩
        obtain ⟨-, -, rfl⟩ := Reply.answered.inj hreply
        rcases hdeep with hdeep | ⟨value, hvalue, -⟩
        · cases hdeep
        · cases hvalue
  obtain ⟨hworkers, hunset⟩ : y.workers = some [.returned] ∧ y.service.cancelled = false := by
    unfold returnedAlone at hy
    split at hy
    · next hworkers => exact ⟨hworkers, by simpa using hy⟩
    · cases hy
  have hfinished : Finished y := by
    intro w
    simp [hworkers]
  obtain ⟨hcontained, -, -, -, -, hexact⟩ :=
    (scenario_failures_contained_iff (by decide) hcreated hrun).mpr hbenign
  exact ⟨y, run, repo, hcreated, hrun, hcontained, hfinished, hexact rfl hunset (by simp [hworkers]) hfinished⟩

end Running

end SmartTest.Load
