import SmartTest.System.Guarantee
import SmartTest.System.Convergence

/-!
# The manager keeps the rules

A manager owns the attempt it began: until it asks for a retry the attempt stays the last
one of its run, and nobody else writes it, except that its lease may run out.
-/

open SmartTest.Lib SmartTest.Lib.Prog SmartTest.Run SmartTest.Run.RunRepository SmartTest.Plan

namespace SmartTest.System

variable {pid : Nat} {call : Call} {task : TaskEnvelope}

/-! ## The notes of a manager -/

/-- The notes of a call that sees to one run only. -/
structure Engaged (pid : Nat) (call : Call) (r : UUID) (x : World × History) : Prop where
  begun : ∀ r' a, (x.2.notes pid).begun = some (r', a) → r' = r
  completed : (x.2.notes pid).completed = false
  mine : call.isManage = true ∨ r ∈ (x.2.notes pid).duty
  only : ∀ r' ∈ (x.2.notes pid).duty, r' = r

/-- A manager that is used by itself has come to a point from which it ends the run. -/
def Due (pid : Nat) (call : Call) (r : UUID) (x : World × History) : Prop :=
  call.isManage = true ∧ r ∈ (x.2.notes pid).duty

/-- The call may stop here: what it had to end is over. -/
def Settled (pid : Nat) (call : Call) (r : UUID) (x : World × History) : Prop :=
  Engaged pid call r x ∧ (Due pid call r x → isTerminal x.1 r = true)

theorem Engaged.congr {r : UUID} {x y : World × History} (h : Engaged pid call r x)
    (hsame : SameTask (x.2.notes pid) (y.2.notes pid)) : Engaged pid call r y :=
  ⟨by rw [hsame.begun]; exact h.begun, hsame.completed.trans h.completed, by rw [hsame.duty]; exact h.mine,
    by rw [hsame.duty]; exact h.only⟩

theorem due_congr {r : UUID} {x y : World × History} (hsame : SameTask (x.2.notes pid) (y.2.notes pid)) :
    Due pid call r y = Due pid call r x := by
  simp only [Due, hsame.duty]

theorem Foreign.sameTask {x y : World × History} (h : Foreign pid x y) :
    SameTask (x.2.notes pid) (y.2.notes pid) := by
  rw [h.notes]
  exact ⟨rfl, rfl, rfl⟩

theorem settled_stable (r : UUID) : Stable (rules pid call) (Settled pid call r) := by
  refine stable_of_foreign fun x y h hx => ⟨hx.1.congr h.sameTask, fun hdue => ?_⟩
  rw [due_congr h.sameTask] at hdue
  exact (lasting_terminal r).foreign h (hx.2 hdue)

theorem Settled.step {r : UUID} {label : Label} {x y : World × History} (hx : Settled pid call r x)
    (hinv : Invariant x) (h : Acts pid call label x y) (hsame : SameTask (x.2.notes pid) (y.2.notes pid)) :
    Settled pid call r y := by
  refine ⟨hx.1.congr hsame, fun hdue => ?_⟩
  rw [due_congr hsame] at hdue
  exact (lasting_terminal r).acts hinv h (hx.2 hdue)

/-! ## Ownership -/

/-- The attempt of the task is the last one of its run, which does not wait for another. `T` relates the
states of both and the number of attempts; its first argument says whether the run is due. -/
structure Owns (pid : Nat) (call : Call) (task : TaskEnvelope)
    (T : Prop → AttemptState → RunState → Nat → Prop) (x : World × History) : Prop where
  engaged : Engaged pid call task.runId x
  begun : (x.2.notes pid).begun = some (task.runId, task.attemptId)
  spec : ∃ spec, x.1.plans.specsByRun.get? task.runId = some spec ∧
    spec.executionPolicy = task.executionPolicy
  record : ∃ attempt run, current x.1.runs.attempts task.runId = some (task.attemptId, attempt) ∧
    x.1.runs.runs.get? task.runId = some run ∧ ¬ Waiting run.state ∧
    T (Due pid call task.runId x) attempt.state run.state (entriesOf x.1.runs.attempts task.runId).length

/-- The others keep the relation. -/
structure Persists (T : Prop → AttemptState → RunState → Nat → Prop) : Prop where
  run : ∀ due s t t' n, T due s t n → t' ∈ RUN_TRANSITIONS t → T due s t' n
  lost : ∀ due s t t' n, T due s t n → s.leased = true → t'.terminal = true → T due .lost t' n

/-- The last attempt of a run that does not wait stays the last across any change. -/
theorem Change.current_kept {who : Notes} {label : Label} {w w' : World} (h : Change who label w w')
    (hf : Filed w.runs) {r a : UUID} {attempt : AttemptRecord} {run : RunRecord}
    (hcurrent : current w.runs.attempts r = some (a, attempt)) (hrun : w.runs.runs.get? r = some run)
    (hwait : ¬ Waiting run.state) : ∃ attempt' run', current w'.runs.attempts r = some (a, attempt') ∧
      w'.runs.runs.get? r = some run' ∧
      (entriesOf w'.runs.attempts r).length = (entriesOf w.runs.attempts r).length ∧
      AttemptStep who label a attempt attempt' ∧ RunStep who label w r run run' := by
  have hkeys := h.entries_kept hrun hwait
  obtain ⟨run', hrun', hstep⟩ := h.run_cases hf hrun
  have hlast : (current w'.runs.attempts r).map Prod.fst = some a := by
    rw [current, ← List.getLast?_map, hkeys, List.getLast?_map]
    simp only [current] at hcurrent
    simp [hcurrent]
  obtain ⟨⟨a', attempt'⟩, hcurrent', ha⟩ := Option.map_eq_some_iff.mp hlast
  cases ha
  have hget := (mem_entriesOf.mp (mem_of_current hcurrent)).1
  obtain ⟨attempt'', hget'', hastep⟩ := h.attempt_cases hget
  have hget' := (mem_entriesOf.mp (mem_of_current hcurrent')).1
  simp only at hget'
  rw [hget'] at hget''
  cases hget''
  exact ⟨attempt', run', hcurrent', hrun', by simpa using congrArg List.length hkeys, hastep, hstep⟩

/-- The run of a lost attempt is over. -/
theorem Invariant.lost {x : World × History} (h : Invariant x) {a : UUID} {attempt : AttemptRecord} {r : UUID}
    (hcurrent : current x.1.runs.attempts r = some (a, attempt)) (hlost : attempt.state = .lost) :
    isTerminal x.1 r = true := by
  obtain ⟨hget, hrunId⟩ := mem_entriesOf.mp (mem_of_current hcurrent)
  obtain ⟨run, hrun, hterm⟩ := (h.consistent.attempts a attempt hget).run
  simp only at hrunId
  exact isTerminal_iff.mpr ⟨run, hrunId ▸ hrun, hterm hlost⟩

/-- A run with its attempt going does not wait for another, unless the owner of the attempt asks so. -/
theorem RunStep.not_waiting {who : Notes} {label : Label} {w : World} {r a : UUID} {attempt : AttemptRecord}
    {run run' : RunRecord} (h : RunStep who label w r run run')
    (hcurrent : current w.runs.attempts r = some (a, attempt)) (hwait : ¬ Waiting run.state)
    (hwho : who.begun ≠ some (r, a)) : ¬ Waiting run'.state := by
  cases h with
  | same => exact hwait
  | claim batchId hlabel hstate => exact absurd (.inl hstate) hwait
  | move target hlabel hmem hguard =>
    intro hnew
    have htarget : target = .retryWait := by
      revert hmem hwait hnew
      simp only [RunRecord.moved]
      cases run.state <;> cases target <;> simp [RUN_TRANSITIONS, Waiting]
    obtain ⟨b, other, hbegun, hlast, -, -⟩ := hguard.retryWait htarget
    rw [hcurrent] at hlast
    cases hlast
    exact hwho hbegun
  | begin a hlabel hstate => exact absurd (.inr (.inr (.inl hstate))) hwait
  | expire cutoff hlabel hmem => simp [Waiting, RunRecord.moved]

theorem owns_stable {T : Prop → AttemptState → RunState → Nat → Prop} (hT : Persists T) :
    Stable (rules pid call) (Owns pid call task T) := by
  refine stable_of_foreign fun x y h hx => ?_
  obtain ⟨hengaged, hbegun, ⟨spec, hspec, hpolicy⟩, attempt, run, hcurrent, hrun, hwait, hrel⟩ := hx
  obtain ⟨who, label, hchange, hwho⟩ := h.change
  obtain ⟨attempt', run', hcurrent', hrun', hlength, hastep, hrstep⟩ :=
    hchange.current_kept h.before.consistent.filed hcurrent hrun hwait
  refine ⟨hengaged.congr h.sameTask, by rw [h.notes]; exact hbegun,
    ⟨spec, (lasting_spec _ _).foreign h hspec, hpolicy⟩, attempt', run', hcurrent', hrun', ?_, ?_⟩
  · exact hrstep.not_waiting hcurrent hwait (hwho _ _ _ hbegun)
  · rw [due_congr h.sameTask, hlength]
    cases hastep with
    | same =>
      rcases hrstep.mem with rfl | hmem
      · exact hrel
      · exact hT.run _ _ _ _ _ hrel hmem
    | write hwrite hlabel => exact absurd hwrite.own (hwho _ _ _ hbegun)
    | expire cutoff hlabel hleased hlost hsame =>
      have hover := h.after.lost hcurrent' hlost
      obtain ⟨known, hknown, hterm⟩ := isTerminal_iff.mp hover
      rw [hrun'] at hknown
      cases hknown
      rw [hlost]
      exact hT.lost _ _ _ _ _ hrel hleased hterm

/-! ## Steps of the owner -/

/-- A step of the owner on its own attempt or run, with what it does to both. -/
theorem Owns.advance {T T' : Prop → AttemptState → RunState → Nat → Prop} {label : Label} {x y : World × History}
    (hx : Owns pid call task T x) (hinv : Invariant x) (h : Acts pid call label x y)
    (hengaged : Engaged pid call task.runId y)
    (hbegun : (y.2.notes pid).begun = some (task.runId, task.attemptId))
    (hT : ∀ attempt run attempt' run', x.1.runs.attempts.get? task.attemptId = some attempt →
      x.1.runs.runs.get? task.runId = some run → ¬ Waiting run.state →
      T (Due pid call task.runId x) attempt.state run.state (entriesOf x.1.runs.attempts task.runId).length →
      y.1.runs.attempts.get? task.attemptId = some attempt' → y.1.runs.runs.get? task.runId = some run' →
      ¬ Waiting run'.state ∧ T' (Due pid call task.runId y) attempt'.state run'.state
        (entriesOf x.1.runs.attempts task.runId).length) : Owns pid call task T' y := by
  obtain ⟨-, -, ⟨spec, hspec, hpolicy⟩, attempt, run, hcurrent, hrun, hwait, hrel⟩ := hx
  obtain ⟨attempt', run', hcurrent', hrun', hlength, -, -⟩ :=
    h.change.current_kept hinv.consistent.filed hcurrent hrun hwait
  obtain ⟨hwait', hrel'⟩ := hT attempt run attempt' run' (mem_entriesOf.mp (mem_of_current hcurrent)).1 hrun
    hwait hrel (mem_entriesOf.mp (mem_of_current hcurrent')).1 hrun'
  refine ⟨hengaged, hbegun, ⟨spec, (lasting_spec _ _).acts hinv h hspec, hpolicy⟩,
    attempt', run', hcurrent', hrun', hwait', ?_⟩
  rw [hlength]
  exact hrel'

/-- The same for a step that leaves the notes on the task alone. -/
theorem Owns.step {T T' : Prop → AttemptState → RunState → Nat → Prop} {label : Label} {x y : World × History}
    (hx : Owns pid call task T x) (hinv : Invariant x) (h : Acts pid call label x y)
    (hsame : SameTask (x.2.notes pid) (y.2.notes pid))
    (hT : ∀ attempt run attempt' run', x.1.runs.attempts.get? task.attemptId = some attempt →
      x.1.runs.runs.get? task.runId = some run → ¬ Waiting run.state →
      T (Due pid call task.runId x) attempt.state run.state (entriesOf x.1.runs.attempts task.runId).length →
      y.1.runs.attempts.get? task.attemptId = some attempt' → y.1.runs.runs.get? task.runId = some run' →
      ¬ Waiting run'.state ∧ T' (Due pid call task.runId x) attempt'.state run'.state
        (entriesOf x.1.runs.attempts task.runId).length) : Owns pid call task T' y := by
  refine hx.advance hinv h (hx.engaged.congr hsame) (hsame.begun.trans hx.begun) ?_
  rw [due_congr hsame]
  exact hT

theorem Owns.weaken {T T' : Prop → AttemptState → RunState → Nat → Prop} {x : World × History}
    (hx : Owns pid call task T x) (h : ∀ due s t n, T due s t n → T' due s t n) : Owns pid call task T' x := by
  obtain ⟨hengaged, hbegun, hspec, attempt, run, hcurrent, hrun, hwait, hrel⟩ := hx
  exact ⟨hengaged, hbegun, hspec, attempt, run, hcurrent, hrun, hwait, h _ _ _ _ hrel⟩

/-- The attempt of an owner is in the table. -/
theorem Owns.attempt {T : Prop → AttemptState → RunState → Nat → Prop} {x : World × History}
    (hx : Owns pid call task T x) : ∃ attempt run, x.1.runs.attempts.get? task.attemptId = some attempt ∧
      attempt.runId = task.runId ∧ x.1.runs.runs.get? task.runId = some run ∧
      current x.1.runs.attempts task.runId = some (task.attemptId, attempt) ∧
      T (Due pid call task.runId x) attempt.state run.state
        (entriesOf x.1.runs.attempts task.runId).length := by
  obtain ⟨-, -, -, attempt, run, hcurrent, hrun, -, hrel⟩ := hx
  obtain ⟨hget, hrunId⟩ := mem_entriesOf.mp (mem_of_current hcurrent)
  exact ⟨attempt, run, hget, hrunId, hrun, hcurrent, hrel⟩

/-- The attempt is in a state of `S`, or lost; the run is not due before the attempt is over. -/
def Working (S : AttemptState → Prop) (due : Prop) (s : AttemptState) (_ : RunState) (_ : Nat) : Prop :=
  s = .lost ∨ ¬ due ∧ S s

theorem working_persists (S : AttemptState → Prop) : Persists (Working S) :=
  ⟨fun _ _ _ _ _ h _ => h, fun _ _ _ _ _ _ _ _ => .inl rfl⟩

theorem Owns.settled {S : AttemptState → Prop} {x : World × History} (hinv : Invariant x)
    (hx : Owns pid call task (Working S) x) : Settled pid call task.runId x := by
  obtain ⟨attempt, run, -, -, -, hcurrent, hrel⟩ := hx.attempt
  refine ⟨hx.engaged, fun hdue => ?_⟩
  rcases hrel with hlost | ⟨hnot, -⟩
  · exact hinv.lost hcurrent hlost
  · exact absurd hdue hnot

end SmartTest.System
