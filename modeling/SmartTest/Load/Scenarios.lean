import SmartTest.Load.Convergence
import SmartTest.Load.Exactness

/-!
# How many scenarios are run

The same for `_execute_scenarios`: each sequence number belongs to one scenario, which one
worker takes through its targets in order and counts when it is through.
-/

open SmartTest.Lib SmartTest.Run

namespace SmartTest.Load

namespace Running

/-! ## A scenario under way -/

/-- The first `i` targets in order, all of them successful where a failure ends the scenario. -/
structure InProgress (definition : LoadTestRecord) (executed : List (Nat × Bool)) (i : Nat) : Prop where
  order : executed.map Prod.fst = List.range i
  bound : i ≤ definition.targets.length
  goes : definition.stopOnFailure = true → ∀ e ∈ executed, e.2 = true

/-- The targets in order: all of them, or up to and including the first failing one where it ends the scenario. -/
structure Executed (definition : LoadTestRecord) (executed : List (Nat × Bool)) : Prop where
  order : executed.map Prod.fst = List.range executed.length
  bound : executed.length ≤ definition.targets.length
  goes : definition.stopOnFailure = true → ∀ e ∈ executed.dropLast, e.2 = true
  ends : executed.length = definition.targets.length ∨
    definition.stopOnFailure = true ∧ ∃ e, executed.getLast? = some e ∧ e.2 = false

/-- What the history of its scenario is, where a worker stands. -/
def Stands (definition : LoadTestRecord) (history : Nat → List (Nat × Bool)) : ScenarioControl → Prop
  | .target s i _ _ => InProgress definition (history s) i
  | .request s i _ _ => InProgress definition (history s) i ∧ i < definition.targets.length
  | .reported s i _ _ answered => ∃ earlier, history s = earlier ++ [(i, answered)] ∧
      InProgress definition earlier i ∧ i < definition.targets.length
  | .ending s _ completed => completed = true ∧ Executed definition (history s)
  | .top | .claiming | .recheck | .delay => True

def scenarioOf : ScenarioControl → Option Nat
  | .target s _ _ _ | .request s _ _ _ | .reported s _ _ _ _ | .ending s _ _ => some s
  | .top | .claiming | .recheck | .delay => none

/-- Whether a worker is in scenario `s`. -/
def inScenario (s : Nat) (w : Worker ScenarioControl) : Nat :=
  if (point w).bind scenarioOf = some s then 1 else 0

/-- Whether a worker is about to count a scenario. -/
def unclosed : Worker ScenarioControl → Nat
  | .closing _ _ => 1
  | _ => 0

variable {definition : LoadTestRecord} {history history' : Nat → List (Nat × Bool)}

theorem InProgress.snoc {executed : List (Nat × Bool)} {i : Nat} (h : InProgress definition executed i)
    (hi : i < definition.targets.length) {answered : Bool}
    (hgoes : definition.stopOnFailure = true → answered = true) :
    InProgress definition (executed ++ [(i, answered)]) (i + 1) := by
  refine ⟨?_, hi, ?_⟩
  · rw [List.map_append, h.order, List.range_succ]
    rfl
  · intro hstop e he
    rcases List.mem_append.mp he with hold | hnew
    · exact h.goes hstop e hold
    · obtain rfl := List.mem_singleton.mp hnew
      exact hgoes hstop

theorem InProgress.length {executed : List (Nat × Bool)} {i : Nat} (h : InProgress definition executed i) :
    executed.length = i := by
  simpa using congrArg List.length h.order

/-- A scenario that has been through its targets. -/
theorem InProgress.executed {executed : List (Nat × Bool)} {i : Nat} (h : InProgress definition executed i)
    (hi : definition.targets.length ≤ i) : Executed definition executed := by
  refine ⟨?_, ?_, ?_, .inl ?_⟩
  · rw [h.order, h.length]
  · exact h.length.le.trans h.bound
  · intro hstop e he
    exact h.goes hstop e (List.dropLast_subset _ he)
  · exact h.length.trans (Nat.le_antisymm h.bound hi)

/-- A scenario that ends with the failure of a target. -/
theorem InProgress.failed {executed : List (Nat × Bool)} {i : Nat} (h : InProgress definition executed i)
    (hi : i < definition.targets.length) (hstop : definition.stopOnFailure = true) :
    Executed definition (executed ++ [(i, false)]) := by
  refine ⟨?_, ?_, ?_, .inr ⟨hstop, (i, false), by simp, rfl⟩⟩
  · rw [List.map_append, h.order, List.length_append, h.length, List.length_singleton, List.range_succ]
    rfl
  · rw [List.length_append, h.length]
    exact hi
  · intro _ e he
    rw [List.dropLast_concat] at he
    exact h.goes hstop e he

/-- Only the history of its own scenario matters to a worker. -/
theorem Stands.congr {k : ScenarioControl} (h : Stands definition history k)
    (hsame : ∀ s, scenarioOf k = some s → history' s = history s) : Stands definition history' k := by
  cases k with
  | target s i vars success =>
    simpa only [Stands, hsame s rfl] using h
  | request s i vars success =>
    simpa only [Stands, hsame s rfl] using h
  | reported s i vars success answered =>
    simpa only [Stands, hsame s rfl] using h
  | ending s success completed =>
    simpa only [Stands, hsame s rfl] using h
  | _ => trivial

/-- What holds while scenarios are run. -/
structure Staged (definition : LoadTestRecord) (x : Running ScenarioShared ScenarioControl)
    (crew : List (Worker ScenarioControl)) : Prop where
  workers : x.workers = some crew
  unset : x.service.cancelled = false
  sequence_le : x.shared.sequence ≤ definition.requestCount
  once : ∀ s, x.shared.finished.count s + crewSum (inScenario s) crew =
    if 1 ≤ s ∧ s ≤ x.shared.sequence then 1 else 0
  stands : ∀ w ∈ crew, ∀ k, point w = some k → Stands definition x.shared.history k
  executed : ∀ s ∈ x.shared.finished, Executed definition (x.shared.history s)
  fresh : ∀ s, x.shared.sequence < s → x.shared.history s = []
  total : x.metrics.scenarios.total + crewSum unclosed crew = x.shared.finished.length
  exhausted : ∀ w ∈ crew, w = .returned → definition.requestCount ≤ x.shared.sequence

/-- A worker that stays in its scenario, or out of any. -/
theorem Staged.stay {x y : Running ScenarioShared ScenarioControl} {crew : List (Worker ScenarioControl)} {i : Nat}
    {w w' : Worker ScenarioControl} (h : Staged definition x crew) (hw : crew[i]? = some w)
    (hworkers : y.workers = some (crew.set i w')) (hunset : y.service.cancelled = x.service.cancelled)
    (hshared : y.shared = x.shared)
    (htotal : y.metrics.scenarios.total + unclosed w' = x.metrics.scenarios.total + unclosed w)
    (hscenario : (point w').bind scenarioOf = (point w).bind scenarioOf)
    (hstands : ∀ k, point w' = some k → Stands definition x.shared.history k)
    (hexhausted : w' = .returned → definition.requestCount ≤ x.shared.sequence) :
    Staged definition y (crew.set i w') := by
  refine ⟨hworkers, hunset.trans h.unset, ?_, ?_, ?_, ?_, ?_, ?_, ?_⟩
  · rw [hshared]
    exact h.sequence_le
  · intro s
    have hsum := crewSum_set hw (inScenario s) w'
    have hsame : inScenario s w' = inScenario s w := by
      unfold inScenario
      rw [hscenario]
    have honce := h.once s
    rw [hshared, ← honce]
    omega
  · rw [hshared]
    exact forall_mem_set h.stands hstands
  · rw [hshared]
    exact h.executed
  · rw [hshared]
    exact h.fresh
  · have hsum := crewSum_set hw unclosed w'
    have hbefore := h.total
    rw [hshared]
    omega
  · rw [hshared]
    exact forall_mem_set h.exhausted hexhausted

/-- The next scenario is claimed. -/
theorem Staged.claim {x : Running ScenarioShared ScenarioControl} {crew : List (Worker ScenarioControl)} {i : Nat}
    (h : Staged definition x crew) (hw : crew[i]? = some (.own .claiming))
    (hlt : x.shared.sequence < definition.requestCount) (vars : Dict String Json) :
    Staged definition
      { x.put crew i (.own (.target (x.shared.sequence + 1) 0 vars true)) with
        shared := { x.shared with sequence := x.shared.sequence + 1 } }
      (crew.set i (.own (.target (x.shared.sequence + 1) 0 vars true))) := by
  refine ⟨rfl, h.unset, hlt, ?_, ?_, h.executed, ?_, ?_, ?_⟩
  · intro s
    have hsum := crewSum_set hw (inScenario s) (.own (.target (x.shared.sequence + 1) 0 vars true))
    have honce := h.once s
    simp only [inScenario, point, Option.bind_some, scenarioOf, Option.some.injEq, reduceCtorEq, if_false] at hsum
    dsimp only [put]
    split at honce <;> split at hsum <;> split <;> omega
  · apply forall_mem_set h.stands
    intro k hk
    obtain rfl := Option.some.inj hk
    simp only [Stands, h.fresh _ (Nat.lt_succ_self _)]
    exact ⟨rfl, Nat.zero_le _, by simp⟩
  · intro s hs
    exact h.fresh s (Nat.lt_of_succ_lt hs)
  · have hsum := crewSum_set hw unclosed (.own (.target (x.shared.sequence + 1) 0 vars true))
    have htotal := h.total
    simp only [unclosed] at hsum
    dsimp only [put]
    omega
  · apply forall_mem_set
    · intro w hw hreturned
      exact Nat.le_succ_of_le (h.exhausted w hw hreturned)
    · rintro ⟨⟩

/-- A target is executed: only the history of this scenario grows, and no other worker is in it. -/
theorem Staged.execute {x : Running ScenarioShared ScenarioControl} {crew : List (Worker ScenarioControl)} {i : Nat}
    {s t : Nat} {vars vars' : Dict String Json} {success success' : Bool} (h : Staged definition x crew)
    (hw : crew[i]? = some (.own (.request s t vars success))) (target : String) (answer : Answer) :
    Staged definition
      { x.put crew i (.counting target answer (.reported s t vars' success' answer.success)) with
        shared := { x.shared with
          history := Function.update x.shared.history s (x.shared.history s ++ [(t, answer.success)]) } }
      (crew.set i (.counting target answer (.reported s t vars' success' answer.success))) := by
  have hmine : inScenario s (.own (.request s t vars success)) = 1 := by
    simp [inScenario, point, scenarioOf]
  have honly : x.shared.finished.count s + crewSum (inScenario s) crew ≤ 1 := by
    rw [h.once s]
    split <;> omega
  have hheld : 1 ≤ crewSum (inScenario s) crew := by
    rw [← hmine]
    exact le_crewSum (List.mem_of_getElem? hw)
  have hopen : s ∉ x.shared.finished := by
    rw [← List.count_eq_zero]
    omega
  have hstarted : s ≤ x.shared.sequence := by
    by_contra hlate
    have honce := h.once s
    rw [if_neg (fun hs => hlate hs.2)] at honce
    omega
  obtain ⟨hprogress, hbound⟩ := h.stands _ (List.mem_of_getElem? hw) _ rfl
  refine ⟨rfl, h.unset, h.sequence_le, ?_, ?_, ?_, ?_, ?_, ?_⟩
  · intro r
    have hsum := crewSum_set hw (inScenario r) (.counting target answer (.reported s t vars' success' answer.success))
    have hsame : inScenario r (.counting target answer (.reported s t vars' success' answer.success)) =
        inScenario r (.own (.request s t vars success)) := rfl
    rw [← h.once r]
    dsimp only [put]
    omega
  · intro w hmem k hk
    obtain ⟨j, hj⟩ := List.getElem?_of_mem hmem
    by_cases hij : i = j
    · subst hij
      rw [List.getElem?_set_self (List.getElem?_eq_some_iff.mp hw).1] at hj
      obtain rfl := Option.some.inj hj
      obtain rfl := Option.some.inj hk
      exact ⟨x.shared.history s, by simp, hprogress, hbound⟩
    · rw [List.getElem?_set_ne hij] at hj
      apply (h.stands w (List.mem_of_getElem? hj) k hk).congr
      intro r hr
      apply Function.update_of_ne
      rintro rfl
      have hzero := eq_zero_of_crewSum (f := inScenario r) (by omega) hw hj hij
      simp [inScenario, hk, hr] at hzero
  · intro r hr
    have hne : r ≠ s := fun heq => hopen (heq ▸ hr)
    simpa [Function.update_of_ne hne] using h.executed r hr
  · intro r hr
    have hne : r ≠ s := by
      rintro rfl
      exact absurd hstarted (Nat.not_le_of_lt hr)
    simpa [Function.update_of_ne hne] using h.fresh r hr
  · have hsum := crewSum_set hw unclosed (.counting target answer (.reported s t vars' success' answer.success))
    have htotal := h.total
    simp only [unclosed] at hsum
    dsimp only [put]
    omega
  · apply forall_mem_set h.exhausted
    rintro ⟨⟩

/-- A scenario is through. -/
theorem Staged.finish {x : Running ScenarioShared ScenarioControl} {crew : List (Worker ScenarioControl)} {i : Nat}
    {s : Nat} {success completed : Bool} (h : Staged definition x crew)
    (hw : crew[i]? = some (.own (.ending s success completed))) :
    Staged definition
      { x.put crew i (.closing success .recheck) with
        shared := { x.shared with finished := x.shared.finished ++ [s] } }
      (crew.set i (.closing success .recheck)) := by
  refine ⟨rfl, h.unset, h.sequence_le, ?_, ?_, ?_, h.fresh, ?_, ?_⟩
  · intro r
    have hsum := crewSum_set hw (inScenario r) (.closing success .recheck)
    simp only [inScenario, point, resumption, Option.bind_some, scenarioOf, Option.some.injEq, reduceCtorEq,
      if_false] at hsum
    rw [← h.once r]
    simp only [List.count_append, List.count_singleton, beq_iff_eq]
    omega
  · apply forall_mem_set h.stands
    intro k hk
    obtain rfl := Option.some.inj hk
    trivial
  · intro r hr
    rcases List.mem_append.mp hr with hold | hnew
    · exact h.executed r hold
    · obtain rfl := List.mem_singleton.mp hnew
      exact (h.stands _ (List.mem_of_getElem? hw) _ rfl).2
  · have hsum := crewSum_set hw unclosed (.closing success .recheck)
    have htotal := h.total
    simp only [unclosed] at hsum
    simp only [put, List.length_append, List.length_singleton]
    omega
  · apply forall_mem_set h.exhausted
    rintro ⟨⟩

/-- What a report does to the count of scenarios. -/
theorem Moved.scenario_total {γ ι : Type} {control : Control γ ScenarioControl ι} {runId : UUID}
    {x y : Running γ ScenarioControl} {crew : List (Worker ScenarioControl)} {m : Move ι}
    {w w' : Worker ScenarioControl} (h : Moved control runId x crew m w y) (hw : ∀ k, w ≠ .own k)
    (hworkers : y.workers = some (crew.set m.worker w')) (hi : m.worker < crew.length) :
    y.service.cancelled = x.service.cancelled ∧ y.shared = x.shared ∧
      y.metrics.scenarios.total + unclosed w' = x.metrics.scenarios.total + unclosed w := by
  have hw' : ∀ v, y.workers = some (crew.set m.worker v) → w' = v := by
    intro v hv
    have hset := Option.some.inj (hworkers.symm.trans hv)
    have hget := congrArg (fun l => l[m.worker]?) hset
    simpa [List.getElem?_set_self hi] using hget
  cases h with
  | own h => exact absurd rfl (hw _)
  | count target answer k metrics h =>
    obtain rfl := hw' _ rfl
    subst h
    exact ⟨rfl, rfl, rfl⟩
  | respond item k service h =>
    obtain rfl := hw' _ rfl
    refine ⟨(respond_step h).1, rfl, ?_⟩
    split <;> rfl
  | close success k =>
    obtain rfl := hw' _ rfl
    exact ⟨rfl, rfl, rfl⟩
  | poll k =>
    obtain rfl := hw' _ rfl
    refine ⟨rfl, rfl, ?_⟩
    split <;> rfl
  | snap metrics k service h =>
    obtain rfl := hw' _ rfl
    refine ⟨(checkSnapshot_step h).1, rfl, ?_⟩
    split <;> rfl
  | write k service h =>
    obtain rfl := hw' _ rfl
    refine ⟨(writeSnapshot_step h).1, rfl, ?_⟩
    split <;> rfl

section Control

variable {δ : Type} {perform : LoadTestTarget → Dict String Json → Nat → δ → Except Raised (Answer × Dict String Json)}

/-- A step of the control, without an exception. -/
theorem Staged.own (hmode : definition.mode = .count) {x : Running ScenarioShared ScenarioControl}
    {crew : List (Worker ScenarioControl)} (h : Staged definition x crew) {i : Nat} {k : ScenarioControl}
    (hw : crew[i]? = some (.own k)) {choice : ScenarioChoice δ} {shared : ScenarioShared} {next : Next ScenarioControl}
    (hescape : ∀ e, next ≠ .escape e)
    (hstep : (scenarioControl definition perform).step i x.service.cancelled x.shared k choice = some (shared, next)) :
    Staged definition { x.put crew i next.worker with shared := shared } (crew.set i next.worker) := by
  have hlate : ¬ (definition.mode = .duration ∧ choice.late = true) := by simp [hmode]
  have hstands := h.stands _ (List.mem_of_getElem? hw) _ rfl
  rw [h.unset] at hstep
  cases k with
  | top =>
    obtain ⟨rfl, rfl⟩ := Prod.mk.inj (Option.some.inj hstep)
    exact h.stay hw rfl rfl rfl rfl rfl (by rintro k ⟨⟩; trivial) (by rintro ⟨⟩)
  | claiming =>
    simp only [scenarioControl, hmode, true_and, reduceCtorEq, false_and, if_false] at hstep
    split at hstep
    · next hdone =>
      obtain ⟨rfl, rfl⟩ := Prod.mk.inj (Option.some.inj hstep)
      exact h.stay hw rfl rfl rfl rfl rfl (by rintro k ⟨⟩) (fun _ => hdone)
    · next hdone =>
      obtain ⟨rfl, rfl⟩ := Prod.mk.inj (Option.some.inj hstep)
      exact h.claim hw (Nat.lt_of_not_le hdone) _
  | target s t vars success =>
    simp only [scenarioControl, hlate, Bool.false_eq_true, or_self, if_false] at hstep
    split at hstep
    · next hthrough =>
      obtain ⟨rfl, rfl⟩ := Prod.mk.inj (Option.some.inj hstep)
      refine h.stay hw rfl rfl rfl rfl rfl ?_ (by rintro ⟨⟩)
      rintro k ⟨⟩
      exact ⟨rfl, hstands.executed hthrough⟩
    · next hthrough =>
      obtain ⟨rfl, rfl⟩ := Prod.mk.inj (Option.some.inj hstep)
      refine h.stay hw rfl rfl rfl rfl rfl ?_ (by rintro ⟨⟩)
      rintro k ⟨⟩
      exact ⟨hstands, Nat.lt_of_not_le hthrough⟩
  | request s t vars success =>
    simp only [scenarioControl, Option.bind_eq_bind, Option.bind_eq_some_iff] at hstep
    obtain ⟨target, -, hstep⟩ := hstep
    split at hstep
    · next e _ =>
      obtain ⟨rfl, rfl⟩ := Prod.mk.inj (Option.some.inj hstep)
      exact absurd rfl (hescape e)
    · next answer extracted _ =>
      obtain ⟨rfl, rfl⟩ := Prod.mk.inj (Option.some.inj hstep)
      exact h.execute hw target.name answer
  | reported s t vars success answered =>
    simp only [scenarioControl, hlate, Bool.false_eq_true, and_false, false_and, if_false, Option.bind_eq_bind,
      Option.bind_eq_some_iff] at hstep
    obtain ⟨target, -, hstep⟩ := hstep
    obtain ⟨earlier, hhistory, hprogress, hbound⟩ := hstands
    split at hstep
    · next hfailed =>
      obtain ⟨rfl, rfl⟩ := Prod.mk.inj (Option.some.inj hstep)
      refine h.stay hw rfl rfl rfl rfl rfl ?_ (by rintro ⟨⟩)
      rintro k ⟨⟩
      refine ⟨rfl, ?_⟩
      rw [hhistory, hfailed.1]
      exact hprogress.failed hbound hfailed.2
    · next hgoes =>
      obtain ⟨rfl, rfl⟩ := Prod.mk.inj (Option.some.inj hstep)
      refine h.stay hw rfl rfl rfl rfl rfl ?_ (by rintro ⟨⟩)
      rintro k ⟨⟩
      simp only [Stands, hhistory]
      apply hprogress.snoc hbound
      intro hstop
      by_contra hanswered
      exact hgoes ⟨by simpa using hanswered, hstop⟩
  | ending s success completed =>
    obtain ⟨rfl, -⟩ := hstands
    obtain ⟨rfl, rfl⟩ := Prod.mk.inj (Option.some.inj hstep)
    exact h.finish hw
  | recheck =>
    simp only [scenarioControl, hmode, true_and, Bool.false_eq_true, if_false] at hstep
    split at hstep
    · next hdone =>
      obtain ⟨rfl, rfl⟩ := Prod.mk.inj (Option.some.inj hstep)
      exact h.stay hw rfl rfl rfl rfl rfl (by rintro k ⟨⟩) (fun _ => hdone)
    · obtain ⟨rfl, rfl⟩ := Prod.mk.inj (Option.some.inj hstep)
      exact h.stay hw rfl rfl rfl rfl rfl (by rintro k ⟨⟩; trivial) (by rintro ⟨⟩)
  | delay =>
    simp only [scenarioControl, Bool.false_eq_true, and_false, if_false, Option.some.injEq, Prod.mk.injEq] at hstep
    obtain ⟨rfl, rfl⟩ := hstep
    exact h.stay hw rfl rfl rfl rfl rfl (by rintro k ⟨⟩; trivial) (by rintro ⟨⟩)

theorem Staged.step (hmode : definition.mode = .count) {runId : UUID} {x y : Running ScenarioShared ScenarioControl}
    {crew : List (Worker ScenarioControl)} (h : Staged definition x crew) {m : Move (ScenarioChoice δ)}
    (hmove : x.move (scenarioControl definition perform) runId m = some y) (hy : Contained y) :
    ∃ crew', Staged definition y crew' := by
  obtain ⟨crew', w, hcrew, hw, hmoved⟩ := move_cases hmove
  obtain rfl := Option.some.inj (h.workers.symm.trans hcrew)
  have hi : m.worker < crew.length := (List.getElem?_eq_some_iff.mp hw).1
  by_cases hown : ∃ k, w = .own k
  · obtain ⟨k, rfl⟩ := hown
    cases hmoved with
    | @own _ shared next hstep =>
      refine ⟨_, h.own hmode hw ?_ hstep⟩
      rintro e rfl
      exact hy e (List.mem_of_getElem? (List.getElem?_set_self hi))
  · obtain ⟨w', hworkers, hpoint, hreturned⟩ := hmoved.resumes (fun k hk => hown ⟨k, hk⟩) hy hi
    obtain ⟨hunset, hshared, htotal⟩ := hmoved.scenario_total (fun k hk => hown ⟨k, hk⟩) hworkers hi
    refine ⟨_, h.stay hw hworkers hunset hshared htotal (by rw [hpoint]) ?_ (fun hr => absurd hr hreturned)⟩
    rw [hpoint]
    exact h.stands w (List.mem_of_getElem? hw)

/-! ## The whole run -/

theorem Staged.launched {ι : Type} (definition : LoadTestRecord) (control : Control ScenarioShared ScenarioControl ι)
    (hstart : control.start = .top) {service : Execution} (hunset : service.cancelled = false) (workers : Nat) :
    Staged definition (launched control service ⟨0, fun _ => [], []⟩ definition workers)
      (List.replicate workers (.own .top)) := by
  refine ⟨by simp [Running.launched, hstart], hunset, Nat.zero_le _, ?_, ?_, by simp [Running.launched],
    fun _ _ => rfl, ?_, ?_⟩
  · intro s
    simp [crewSum_replicate, inScenario, point, scenarioOf, Running.launched]
    omega
  · intro w hw k hk
    rw [List.eq_of_mem_replicate hw] at hk
    obtain rfl := Option.some.inj hk
    trivial
  · simp [crewSum_replicate, unclosed, Running.launched, Metrics.empty, MetricValues.empty]
  · intro w hw
    rw [List.eq_of_mem_replicate hw]
    rintro ⟨⟩

/-- How far a worker is from its end, with nothing left to claim. -/
def scenarioRank (definition : LoadTestRecord) : ScenarioControl → Nat
  | .claiming => 1
  | .top => 2
  | .delay => 3
  | .recheck => 4
  | .ending _ _ _ => 9
  | .reported _ i _ _ _ => 3 + (definition.targets.length - i) * 8
  | .request _ i _ _ => 9 + (definition.targets.length - i) * 8
  | .target _ i _ _ => 10 + (definition.targets.length - i) * 8

theorem scenarioControl_descends (hmode : definition.mode = .count) :
    Descends (scenarioControl definition perform) (scenarioRank definition) fun shared =>
      (definition.requestCount - shared.sequence) * (10 + definition.targets.length * 8) := by
  intro i cancelled shared k choice shared' next hstep
  have hlate : ¬ (definition.mode = .duration ∧ choice.late = true) := by simp [hmode]
  cases k with
  | top =>
    obtain ⟨rfl, rfl⟩ := Prod.mk.inj (Option.some.inj hstep)
    cases cancelled <;> simp [Next.worker, distance, scenarioRank]
  | claiming =>
    simp only [scenarioControl, hmode, true_and, reduceCtorEq, false_and, if_false] at hstep
    split at hstep
    · obtain ⟨rfl, rfl⟩ := Prod.mk.inj (Option.some.inj hstep)
      simp [Next.worker, distance, scenarioRank]
    · next hlt =>
      obtain ⟨rfl, rfl⟩ := Prod.mk.inj (Option.some.inj hstep)
      have hless : definition.requestCount - shared.sequence =
          definition.requestCount - (shared.sequence + 1) + 1 := by omega
      simp only [Next.worker, distance, scenarioRank, hless, Nat.add_mul, Nat.one_mul, Nat.sub_zero]
      omega
  | target s t vars success =>
    simp only [scenarioControl] at hstep
    split at hstep
    · obtain ⟨rfl, rfl⟩ := Prod.mk.inj (Option.some.inj hstep)
      simp only [Next.worker, distance, scenarioRank]
      omega
    · split at hstep
      all_goals
        obtain ⟨rfl, rfl⟩ := Prod.mk.inj (Option.some.inj hstep)
        simp only [Next.worker, distance, scenarioRank]
        omega
  | request s t vars success =>
    simp only [scenarioControl, Option.bind_eq_bind, Option.bind_eq_some_iff] at hstep
    obtain ⟨target, -, hstep⟩ := hstep
    split at hstep
    all_goals
      obtain ⟨rfl, rfl⟩ := Prod.mk.inj (Option.some.inj hstep)
      simp only [Next.worker, distance, scenarioRank]
      omega
  | reported s t vars success answered =>
    simp only [scenarioControl, Option.bind_eq_bind, Option.bind_eq_some_iff] at hstep
    obtain ⟨target, htarget, hstep⟩ := hstep
    have hbound := (List.getElem?_eq_some_iff.mp htarget).1
    split at hstep
    · obtain ⟨rfl, rfl⟩ := Prod.mk.inj (Option.some.inj hstep)
      simp only [Next.worker, distance, scenarioRank]
      omega
    · split at hstep
      · obtain ⟨rfl, rfl⟩ := Prod.mk.inj (Option.some.inj hstep)
        simp only [Next.worker, distance, scenarioRank]
        omega
      · split at hstep
        all_goals
          obtain ⟨rfl, rfl⟩ := Prod.mk.inj (Option.some.inj hstep)
          simp only [Next.worker, distance, scenarioRank]
          omega
  | ending s success completed =>
    simp only [scenarioControl] at hstep
    split at hstep
    all_goals
      obtain ⟨rfl, rfl⟩ := Prod.mk.inj (Option.some.inj hstep)
      simp [Next.worker, distance, scenarioRank]
  | recheck =>
    simp only [scenarioControl] at hstep
    split at hstep
    · obtain ⟨rfl, rfl⟩ := Prod.mk.inj (Option.some.inj hstep)
      simp [Next.worker, distance, scenarioRank]
    · split at hstep
      all_goals
        obtain ⟨rfl, rfl⟩ := Prod.mk.inj (Option.some.inj hstep)
        simp [Next.worker, distance, scenarioRank]
  | delay =>
    simp only [scenarioControl] at hstep
    split at hstep
    all_goals
      obtain ⟨rfl, rfl⟩ := Prod.mk.inj (Option.some.inj hstep)
      simp [Next.worker, distance, scenarioRank]

theorem Stands.total {k : ScenarioControl} (h : Stands definition history k) (i : Nat) (cancelled : Bool)
    (shared : ScenarioShared) (choice : ScenarioChoice δ) :
    ((scenarioControl definition perform).step i cancelled shared k choice).isSome := by
  unfold scenarioControl
  cases k with
  | top => rfl
  | claiming =>
    dsimp only
    split
    · rfl
    · split <;> rfl
  | target s t vars success =>
    dsimp only
    split
    · rfl
    · split <;> rfl
  | request s t vars success =>
    simp only [List.getElem?_eq_getElem h.2, Option.bind_eq_bind, Option.bind_some]
    split <;> rfl
  | reported s t vars success answered =>
    obtain ⟨earlier, -, -, hbound⟩ := h
    simp only [List.getElem?_eq_getElem hbound, Option.bind_eq_bind, Option.bind_some]
    split
    · rfl
    · split
      · rfl
      · split <;> rfl
  | ending s success completed =>
    dsimp only
    split <;> rfl
  | recheck =>
    dsimp only
    split
    · rfl
    · split <;> rfl
  | delay =>
    dsimp only
    split <;> rfl

/-- Every scenario is counted once, and has been through its targets as it should. -/
structure ExactScenarios (definition : LoadTestRecord) (y : Running ScenarioShared ScenarioControl) : Prop where
  finished : y.shared.finished.Perm (List.range' 1 definition.requestCount)
  total : y.metrics.scenarios.total = definition.requestCount
  executed : ∀ s ∈ List.range' 1 definition.requestCount, Executed definition (y.shared.history s)

theorem Staged.exact {y : Running ScenarioShared ScenarioControl} {crew : List (Worker ScenarioControl)}
    (h : Staged definition y crew) (hfinished : ∀ w ∈ crew, w = .returned) (hsome : crew ≠ []) :
    ExactScenarios definition y := by
  obtain ⟨w, hw⟩ := List.exists_mem_of_ne_nil crew hsome
  have hsequence : y.shared.sequence = definition.requestCount :=
    Nat.le_antisymm h.sequence_le (h.exhausted w hw (hfinished w hw))
  have hidle : ∀ f : Worker ScenarioControl → Nat, f .returned = 0 → crewSum f crew = 0 := by
    intro f hf
    apply crewSum_eq_zero
    intro v hv
    rw [hfinished v hv, hf]
  have hperm : y.shared.finished.Perm (List.range' 1 definition.requestCount) := by
    rw [List.perm_iff_count]
    intro s
    have honce := h.once s
    rw [hidle (inScenario s) rfl, hsequence] at honce
    rw [List.count_range_1', ← Nat.add_zero (y.shared.finished.count s), honce]
    split <;> split <;> omega
  refine ⟨hperm, ?_, ?_⟩
  · have htotal := h.total
    rw [hidle unclosed rfl, hperm.length_eq, List.length_range'] at htotal
    exact htotal
  · intro s hs
    exact h.executed s (hperm.mem_iff.mpr hs)

/-- Every run of the workers ends, and when all of them have returned the scenarios are exact. -/
theorem scenarios_exact (hmode : definition.mode = .count) {runId : UUID} {service : Execution}
    (hstage : service.stage = .executing) (hunset : service.cancelled = false) (hchecked : service.checked = none)
    {workers : Nat} (hworkers : 1 ≤ workers) {moves : List (Move (ScenarioChoice δ))}
    {y : Running ScenarioShared ScenarioControl}
    (hrun : runSteps (move (scenarioControl definition perform) runId)
      (launched (scenarioControl definition perform) service ⟨0, fun _ => [], []⟩ definition workers) moves = some y)
    (hy : Contained y) :
    moves.length ≤ definition.requestCount * (10 + definition.targets.length * 8) + workers * 2 ∧
    (¬ Finished y → ∃ i, ∀ m : Move (ScenarioChoice δ), m.worker = i →
      (y.move (scenarioControl definition perform) runId m).isSome) ∧
    (Finished y → ExactScenarios definition y) := by
  have hlength := length_moves_le (scenarioControl_descends hmode) hrun
  simp only [remaining, Running.launched, Option.getD_some, crewSum_replicate, Nat.sub_zero] at hlength
  have hstart : distance (scenarioRank definition) (.own (scenarioControl definition perform).start) = 2 := rfl
  rw [hstart] at hlength
  obtain ⟨crew, hstaged⟩ : ∃ crew, Staged definition y crew := by
    refine Contained.run_keeps (I := fun x => ∃ crew, Staged definition x crew) ?_
      ⟨_, Staged.launched definition _ rfl hunset workers⟩ hrun hy
    rintro x m z ⟨crew, h⟩ hz hmove
    exact h.step hmode hmove hz
  refine ⟨hlength, ?_, ?_⟩
  · intro hopen
    apply progress_of_run hstage hchecked hrun hy _ hopen
    intro k hk i choice
    rw [hstaged.workers, Option.getD_some] at hk
    exact (hstaged.stands _ hk k rfl).total i _ _ choice
  · intro hfinished
    have hsize := length_of_run hrun hstaged.workers
    apply hstaged.exact
    · intro w hw
      apply hfinished
      rw [hstaged.workers]
      exact hw
    · rintro rfl
      simp at hsize
      omega

end Control

end Running

end SmartTest.Load
