import SmartTest.System.CallRules

/-!
# What holds in every reachable state

Any number of calls at once, in any order, from empty tables.
-/

open SmartTest.Lib SmartTest.Lib.Prog SmartTest.Run SmartTest.Run.RunRepository SmartTest.Plan

namespace SmartTest.System

variable (fingerprint : Engine → Dict String Json → String) (refs : References)

/-- The clusters that calls reach from empty tables. -/
abbrev Reachable (clock : Instant) (sql : Bool) (c : Cluster) : Prop :=
  Pool.Reaches (machine fingerprint refs) (fun _ _ => True) (Cluster.initial clock sql) c

variable {fingerprint refs} {clock : Instant} {sql : Bool} {c : Cluster}

/-- The rest of every call is safe, and ended calls have ended what they had to. -/
abbrev SoundCluster (c : Cluster) : Prop :=
  Pool.Sound rules Invariant (fun pid x => x.2.notes pid = .fresh) (fun pid _ _ => Discharged pid)
    (fun pid _ _ => Discharged pid) c

theorem initial_sound (clock : Instant) (sql : Bool) : SoundCluster (Cluster.initial clock sql) where
  inv := initial_invariant clock sql
  idle := fun _ _ => rfl
  threads := fun pid call p h => by cases h

theorem SoundCluster.reaches {ok : Cluster → Move Call Outside → Prop} {start c : Cluster}
    (hstart : SoundCluster start) (h : Pool.Reaches (machine fingerprint refs) ok start c) : SoundCluster c :=
  h.sound (rules_fit fingerprint refs) hstart fun _ pid call _ x hx hfresh =>
    call_discharges fingerprint refs pid call x hx hfresh

theorem sound_of_reaches {ok : Cluster → Move Call Outside → Prop}
    (h : Pool.Reaches (machine fingerprint refs) ok (Cluster.initial clock sql) c) : SoundCluster c :=
  (initial_sound clock sql).reaches h

/-- A move changes nothing, or it is a step of a call, or time passes or a plan is edited. -/
theorem SoundCluster.move_cases (h : SoundCluster c) (m : Move Call Outside) :
    (c.apply (machine fingerprint refs) m).now = c.now ∨
      (∃ pid call label p, m = .step pid ∧ c.threads pid = some (call, p) ∧
        Acts pid call label c.now (c.apply (machine fingerprint refs) m).now) ∨
      ∃ event : Outside, (c.apply (machine fingerprint refs) m).now = (event.apply c.store, c.history) :=
  Pool.Sound.move_cases (rules_fit fingerprint refs) h m

/-- What no change undoes holds ever after. -/
theorem Lasting.reaches {K : World → Prop} (hK : Lasting K) {d : Cluster} (hc : SoundCluster c)
    (h : Pool.Reaches (machine fingerprint refs) (fun _ _ => True) c d) (hc' : K c.store) : K d.store := by
  induction h with
  | start => exact hc'
  | @move d m hd _ ih =>
    have hsound : SoundCluster d := hc.reaches hd
    rcases hsound.move_cases m with hsame | ⟨pid, call, label, p, -, -, hacts⟩ | ⟨event, heq⟩
    · have hstore : (d.apply (machine fingerprint refs) m).store = d.store := congrArg Prod.fst hsame
      rw [hstore]
      exact ih
    · exact hK.acts hsound.inv hacts ih
    · have hstore : (d.apply (machine fingerprint refs) m).store = event.apply d.store := congrArg Prod.fst heq
      rw [hstore]
      exact hK _ _ _ _ hsound.inv.consistent (outside_change .fresh event d.store) ih

/-! ## Runs and their attempts -/

/-- A run in a terminal state, with its whole record. -/
theorem lasting_ended_run (r : UUID) (run : RunRecord) (hterm : run.state.terminal = true) :
    Lasting fun w => w.runs.runs.get? r = some run := by
  intro who label w w' hc hchange hget
  obtain ⟨run', hget', hstep⟩ := hchange.run_cases hc.filed hget
  rwa [hstep.terminal hterm] at hget'

theorem lasting_ended_attempt (a : UUID) (attempt : AttemptRecord) (hterm : attempt.state.terminal = true) :
    Lasting fun w => w.runs.attempts.get? a = some attempt := by
  intro who label w w' _ hchange hget
  obtain ⟨attempt', hget', hstep⟩ := hchange.attempt_cases hget
  rwa [hstep.terminal hterm] at hget'

/-- What a run's state says about its attempts, and how many there may be. -/
structure JointlyOk (w : World) (r : UUID) (run : RunRecord) : Prop where
  oneLive : ∀ a b attempt other, w.runs.attempts.get? a = some attempt → attempt.runId = r →
    attempt.state.terminal = false → w.runs.attempts.get? b = some other → other.runId = r →
    other.state.terminal = false → a = b
  waiting : run.state ∈ [.created, .queued, .dispatching, .retryWait] → ∀ attempt ∈ w.runs.attemptsOf r,
    attempt.state.terminal = true
  count : ∀ spec, w.plans.specsByRun.get? r = some spec →
    (w.runs.attemptsOf r).length ≤ spec.executionPolicy.retry.maxAttempts
  unplanned : w.plans.specsByRun.get? r = none → w.runs.attemptsOf r = []
  succeeded : run.state = .succeeded → ∃ a attempt, current w.runs.attempts r = some (a, attempt) ∧
    attempt.state = .succeeded

theorem Consistent.jointlyOk {w : World} (hc : Consistent w) {r : UUID} {run : RunRecord}
    (hrun : w.runs.runs.get? r = some run) : JointlyOk w r run where
  oneLive := by
    intro a b attempt other ha har hlive hb hbr hlive'
    have hmem : (a, attempt) ∈ entriesOf w.runs.attempts r := mem_entriesOf.mpr ⟨ha, har⟩
    have hmem' : (b, other) ∈ entriesOf w.runs.attempts r := mem_entriesOf.mpr ⟨hb, hbr⟩
    have holder := (hc.agree r run hrun).older
    have hlast := eq_append_of_live holder hmem hlive
    have hlast' := eq_append_of_live holder hmem' hlive'
    rw [hlast] at hlast'
    simpa using congrArg (fun l => l.getLast?.map Prod.fst) hlast'
  waiting := by
    intro hstate attempt hmem
    rw [attemptsOf_eq, List.mem_map] at hmem
    obtain ⟨e, he, rfl⟩ := hmem
    refine ((hc.agree r run hrun).waiting ?_).1 e he
    simpa [Waiting] using hstate
  count := by
    intro spec hspec
    have hcount := (hc.agree r run hrun).count
    simp only [attemptLimit, hspec, Option.map_some, Option.getD_some] at hcount
    rwa [attemptsOf_eq, List.length_map]
  unplanned := by
    intro hnone
    rw [attemptsOf_eq, List.map_eq_nil_iff, List.eq_nil_iff_forall_not_mem]
    intro e he
    obtain ⟨hget, hrunId⟩ := mem_entriesOf.mp he
    have hspec := (hc.attempts _ _ hget).spec
    rw [hrunId, hnone] at hspec
    cases hspec
  succeeded := by
    intro hstate
    obtain ⟨e, hlast, he⟩ := (hc.agree r run hrun).succeeded hstate
    exact ⟨e.1, e.2, hlast, he⟩

/-- Runs and attempts agree in every reachable state, and whatever is over stays as it is. -/
theorem run_attempt_invariant (h : Reachable fingerprint refs clock sql c) :
    (∀ r run, c.store.runs.runs.get? r = some run → JointlyOk c.store r run) ∧
      ∀ d, Pool.Reaches (machine fingerprint refs) (fun _ _ => True) c d →
        (∀ r run, c.store.runs.runs.get? r = some run → run.state.terminal = true →
          d.store.runs.runs.get? r = some run) ∧
        ∀ a attempt, c.store.runs.attempts.get? a = some attempt → attempt.state.terminal = true →
          d.store.runs.attempts.get? a = some attempt := by
  have hsound := sound_of_reaches h
  refine ⟨fun r run hget => hsound.inv.consistent.jointlyOk hget, fun d hd => ⟨?_, ?_⟩⟩
  · exact fun r run hget hterm => (lasting_ended_run r run hterm).reaches hsound hd hget
  · exact fun a attempt hget hterm => (lasting_ended_attempt a attempt hterm).reaches hsound hd hget

/-! ## A plan with one run -/

def noFingerprint : Engine → Dict String Json → String := fun _ _ => ""

/-- A plan that runs one script once, with the given retry policy. -/
def nightlyPlan (retry : RetryPolicy) : TestPlanRecord :=
  ⟨⟨"p"⟩, ⟨"t"⟩, ⟨"j"⟩, [⟨⟨"i"⟩, ⟨"s"⟩, 1, none, none, .empty, [⟨"default", .empty⟩], .plain retry⟩],
    1, .active, 2, 1⟩

def nightlyCall : PlanCall := ⟨⟨"p"⟩, "nightly", none, ⟨⟨"b"⟩, fun _ => ⟨"r"⟩, fun _ => ⟨"sp"⟩⟩⟩

/-- The plan is executed and its run dispatched. -/
def nightlyDispatched (retry : RetryPolicy) : List (Move Call Outside) :=
  [.outside (.editPlan ⟨"p"⟩ (nightlyPlan retry)), .spawn 0 (.executeTestPlan nightlyCall true .database)] ++
    List.replicate 4 (.step 0)

def localRunner (name : String) : LocalRunnerService := ⟨name, .database, fun _ event => .ok event⟩

def endsAs (outcome : ResultOutcome) (task : TaskEnvelope) : Behaviour :=
  .returns ⟨task.runId, task.attemptId, task.engine, outcome, 0, 0, .empty⟩

/-- A local runner polls and executes the run. -/
def nightlyExecuted (outcome : ResultOutcome) : List (Move Call Outside) :=
  nightlyDispatched .default ++ [.spawn 1 (.pollOnce (localRunner "A") fun _ => none), .step 1, .step 1, .step 1,
    .spawn 2 (.worker (localRunner "A") ⟨"r"⟩ ⟨"a"⟩ fun _ => .ok (endsAs outcome))] ++ List.replicate 16 (.step 2)

/-- The cluster after some moves. -/
def after (moves : List (Move Call Outside)) : Cluster :=
  (Cluster.initial 0 false).runMoves (machine noFingerprint oneScript) moves

theorem reachable_after (moves : List (Move Call Outside)) :
    Reachable noFingerprint oneScript 0 false (after moves) :=
  Pool.reaches_runMoves (machine noFingerprint oneScript) (Cluster.initial 0 false) moves

/-- The run of the plan succeeds, agrees with its attempt, and a later cancel leaves it alone. -/
theorem nightly_run_agrees : ∃ run, (after (nightlyExecuted .succeeded)).store.runs.runs.get? ⟨"r"⟩ = some run ∧
    run.state = .succeeded ∧ JointlyOk (after (nightlyExecuted .succeeded)).store ⟨"r"⟩ run ∧
    ((after (nightlyExecuted .succeeded)).runMoves (machine noFingerprint oneScript)
      [.spawn 3 (.cancel ⟨"r"⟩), .step 3]).store.runs.runs.get? ⟨"r"⟩ = some run := by
  obtain ⟨run, hrun⟩ : ∃ run, (after (nightlyExecuted .succeeded)).store.runs.runs.get? ⟨"r"⟩ = some run :=
    Option.isSome_iff_exists.mp (by decide +kernel)
  have hstate : run.state = .succeeded := by
    have heq : runState? (after (nightlyExecuted .succeeded)).store ⟨"r"⟩ = some .succeeded := by decide +kernel
    simpa [runState?, hrun] using heq
  have hinv := run_attempt_invariant (reachable_after (nightlyExecuted .succeeded))
  refine ⟨run, hrun, hstate, hinv.1 _ run hrun, ?_⟩
  exact (hinv.2 _ (Pool.reaches_runMoves _ _ _)).1 _ run hrun (by rw [hstate]; rfl)

end SmartTest.System
