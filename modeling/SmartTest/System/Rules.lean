import SmartTest.System.Changes
import SmartTest.System.Interference

/-!
# The rules of the calls

What each step of a call guarantees to the others, and what a call may therefore rely on
between two of its steps.
-/

open SmartTest.Lib SmartTest.Lib.Prog SmartTest.Run SmartTest.Run.RunRepository SmartTest.Plan

namespace SmartTest.System

/-! ## Kinds of calls -/

def Dispatcher.isCelery : Dispatcher → Bool
  | .database => false
  | .celery _ => true

/-- A coordinator of the call dispatches through Celery. -/
def Call.usesCelery : Call → Bool
  | .executeTestPlan _ _ dispatcher => dispatcher.isCelery
  | .dispatchAvailable dispatcher _ => dispatcher.isCelery
  | .onRunFinished dispatcher _ => dispatcher.isCelery
  | .pollOnce service _ => service.dispatcher.isCelery
  | .worker service _ _ _ => service.dispatcher.isCelery
  | .manage manager _ _ _ => manager.completionCallback.any (·.isCelery)
  | _ => false

def Call.hasScheduler : Call → Bool
  | .manage manager _ _ _ => manager.retryScheduler.isSome
  | _ => false

def Call.isManage : Call → Bool
  | .manage .. => true
  | _ => false

/-- The local runner that makes the call. -/
def Call.service? : Call → Option String
  | .pollOnce service _ => some service.name
  | .worker service _ _ _ => some service.name
  | _ => none

/-- The states a component asks for. -/
def Site.asks : Site → RunState → Bool
  | .route, target => target = .queued || target = .infraError
  | .dispatcher, target => target = .dispatching
  | .worker, target => target = .queued || target = .dispatching
  | .coordinator, target => target = .infraError
  | .convergence, target => target = .infraError
  | .manager, target => target.terminal || target = .cancelling || target = .retryWait

/-! ## What a step guarantees -/

/-- What the caller of a transition knows about the run. -/
def KnowsRun (call : Call) (who : Notes) (history : History) (w : World) (runId : UUID) (target : RunState) :
    Site → Prop
  | .coordinator => call.usesCelery = true ∨ runId ∈ history.retried
  | .convergence => who.converging = some runId
  | .manager => ∃ a, who.begun = some (runId, a) ∧ (call.hasScheduler = true ∨ target ≠ .retryWait ∧
      ∃ attempt, current w.runs.attempts runId = some (a, attempt) ∧ attempt.state.terminal = true)
  | _ => True

/-- What a call knows when it takes a step. -/
def Knows (call : Call) (who : Notes) (history : History) (w : World) : Label → Prop
  | .transition site runId target =>
    site.asks target = true ∧ KnowsRun call who history w runId target site
  | .beginAttempt _ _ => who.completed = false
  | .completeAttempt task _ _ _ =>
    who.begun = some (task.runId, task.attemptId) ∧ (call.isManage = true ∨ task.runId ∈ who.duty)
  | .completed _ runId => isTerminal w runId = true ∧ ∀ r a, who.begun = some (r, a) → r = runId
  | .cancel runId => call = .cancel runId
  | .expireAttemptLeases _ => ∃ now, call = .recoverLostAttempts now
  | _ => True

/-- A step of a call. -/
structure Acts (pid : Nat) (call : Call) (label : Label) (x y : World × History) : Prop where
  change : Change (x.2.notes pid) label x.1 y.1
  noted : y.2 = x.2.observe pid ⟨label, x.1, y.1⟩
  knows : Knows call (x.2.notes pid) x.2 x.1 label

/-- The history fits the tables. -/
structure Linked (x : World × History) : Prop where
  begun : ∀ p r a, (x.2.notes p).begun = some (r, a) →
    ∃ attempt, x.1.runs.attempts.get? a = some attempt ∧ attempt.runId = r
  unique : ∀ p q r r' a, (x.2.notes p).begun = some (r, a) → (x.2.notes q).begun = some (r', a) → p = q
  retried : ∀ r run, x.1.runs.runs.get? r = some run → run.state = .retryWait → r ∈ x.2.retried
  completed : ∀ p r a, (x.2.notes p).begun = some (r, a) → (x.2.notes p).completed = true →
    isTerminal x.1 r = true

structure Invariant (x : World × History) : Prop where
  consistent : Consistent x.1
  linked : Linked x

/-! ## What every change keeps -/

theorem isTerminal_iff {w : World} {r : UUID} :
    isTerminal w r = true ↔ ∃ run, w.runs.runs.get? r = some run ∧ run.state.terminal = true := by
  simp only [isTerminal, runState?]
  cases w.runs.runs.get? r <;> simp

/-- A condition that no change undoes. -/
def Lasting (K : World → Prop) : Prop :=
  ∀ who label w w', Consistent w → Change who label w w' → K w → K w'

theorem lasting_terminal (r : UUID) : Lasting fun w => isTerminal w r = true := by
  intro who label w w' hc hchange hterm
  obtain ⟨run, hget, hstate⟩ := isTerminal_iff.mp hterm
  obtain ⟨run', hget', hstep⟩ := hchange.run_cases hc.filed hget
  exact isTerminal_iff.mpr ⟨run', hget', hstep.terminal hstate ▸ hstate⟩

/-- The run exists and was queued once. -/
def Started (r : UUID) (w : World) : Prop := ∃ run, w.runs.runs.get? r = some run ∧ run.state ≠ .created

theorem lasting_started (r : UUID) : Lasting (Started r) := by
  rintro who label w w' hc hchange ⟨run, hget, hcreated⟩
  obtain ⟨run', hget', hstep⟩ := hchange.run_cases hc.filed hget
  exact ⟨run', hget', hstep.not_created hcreated⟩

/-- The run exists and is not part of a batch. -/
def Single (r : UUID) (w : World) : Prop :=
  (w.runs.runs.get? r).isSome ∧ w.plans.specsByRun.get? r = none

theorem lasting_single (r : UUID) : Lasting (Single r) := by
  rintro who label w w' hc hchange ⟨hrun, hspec⟩
  obtain ⟨run, hget⟩ := Option.isSome_iff_exists.mp hrun
  obtain ⟨run', hget', -⟩ := hchange.run_cases hc.filed hget
  exact ⟨by simp [hget'], (hchange.spec_kept hrun).trans hspec⟩

theorem lasting_spec (r : UUID) (spec : RunSpecRecord) :
    Lasting fun w => w.plans.specsByRun.get? r = some spec := by
  intro who label w w' hc hchange hspec
  rw [hchange.spec_kept (hc.specs r spec hspec).2.1]
  exact hspec

theorem Lasting.all {α : Type} {K : α → World → Prop} (h : ∀ a, Lasting (K a)) :
    Lasting fun w => ∀ a, K a w := fun who label w w' hc hchange hK a => h a who label w w' hc hchange (hK a)

theorem Lasting.imp {φ : Prop} {K : World → Prop} (h : Lasting K) : Lasting fun w => φ → K w :=
  fun who label w w' hc hchange hK hφ => h who label w w' hc hchange (hK hφ)

/-! ## The history stays linked -/

theorem notes_observe_self (history : History) (pid : Nat) (seen : SystemStep) :
    (history.observe pid seen).notes pid = (history.notes pid).observe seen := by
  simp [History.observe]

theorem notes_observe_ne (history : History) {pid p : Nat} (h : p ≠ pid) (seen : SystemStep) :
    (history.observe pid seen).notes p = history.notes p := by
  simp [History.observe, h]

/-- Only a new attempt changes which attempt a call began. -/
theorem begun_observe {notes : Notes} {seen : SystemStep} {r a : UUID}
    (h : (notes.observe seen).begun = some (r, a)) : notes.begun = some (r, a) ∨
      seen.label = .beginAttempt r a ∧ seen.before.runs.attempts.get? a = none ∧
        (seen.after.runs.attempts.get? a).isSome := by
  simp only [Notes.observe, Notes.nextBegun] at h
  split at h
  · split at h
    · next hlabel hnew =>
      cases h
      simp only [Bool.and_eq_true, Option.isNone_iff_eq_none] at hnew
      exact .inr ⟨hlabel, hnew⟩
    · exact .inl h
  · exact .inl h

theorem mem_retried_observe {history : History} {pid : Nat} {seen : SystemStep} {r : UUID}
    (h : r ∈ history.retried) : r ∈ (history.observe pid seen).retried := by
  simp only [History.observe, History.nextRetried]
  split
  · split
    · exact List.mem_append_left _ h
    · exact h
  · exact h

section Linked

variable {pid : Nat} {call : Call} {label : Label} {x y : World × History}

/-- An attempt that is in the table after `begin_attempt` and was not before. -/
theorem Change.attempt_new {who : Notes} {w w' : World} {r a : UUID} (h : Change who (.beginAttempt r a) w w')
    (hnone : w.runs.attempts.get? a = none) (hsome : (w'.runs.attempts.get? a).isSome) :
    ∃ attempt, w'.runs.attempts.get? a = some attempt ∧ attempt.runId = r := by
  have hold : ∀ table : Dict UUID AttemptRecord, table.get? a = w.runs.attempts.get? a →
      ¬ (table.get? a).isSome := by
    intro table htable
    simp [htable, hnone]
  cases h with
  | quiet hruns hattempts hspecs hbatches hjobs => exact absurd hsome (hold _ (by rw [hattempts]))
  | create run hnew hspec hstate hruns hattempts => exact absurd hsome (hold _ (by rw [hattempts]))
  | batch batch pairs hlabel hnew hids hpairs => cases hlabel
  | claim batchId hlabel hok => cases hlabel
  | move runId run target hlabel hrun hmem hguard => exact absurd hsome (hold _ rfl)
  | begin runId b run claimed hlabel h =>
    cases hlabel
    exact ⟨claimed, by simp, h.itsRun⟩
  | attempt b old new hget h hlabel =>
    have hne : a ≠ b := by
      rintro rfl
      rw [hnone] at hget
      cases hget
    exact absurd hsome (hold _ (by simp [hne]))
  | expire cutoff hlabel hsteps => cases hlabel

/-- The call and the attempt it began, before the step or by it. -/
theorem Acts.begun_cases (h : Acts pid call label x y) {p : Nat} {r a : UUID}
    (hbegun : (y.2.notes p).begun = some (r, a)) : (x.2.notes p).begun = some (r, a) ∨
      p = pid ∧ label = .beginAttempt r a ∧ x.1.runs.attempts.get? a = none ∧
        (y.1.runs.attempts.get? a).isSome := by
  rw [h.noted] at hbegun
  by_cases hp : p = pid
  · subst hp
    rw [notes_observe_self] at hbegun
    exact (begun_observe hbegun).imp id fun h => ⟨rfl, h⟩
  · rw [notes_observe_ne _ hp] at hbegun
    exact .inl hbegun

theorem Acts.linked (h : Acts pid call label x y) (hinv : Invariant x) : Linked y := by
  have hlinked := hinv.linked
  constructor
  · intro p r a hbegun
    rcases h.begun_cases hbegun with hold | ⟨-, rfl, hnone, hsome⟩
    · obtain ⟨attempt, hget, hrun⟩ := hlinked.begun p r a hold
      obtain ⟨attempt', hget', hstep⟩ := h.change.attempt_cases hget
      exact ⟨attempt', hget', hstep.sameIdentity.runId.trans hrun⟩
    · exact h.change.attempt_new hnone hsome
  · intro p q r r' a hp hq
    rcases h.begun_cases hp with hp | ⟨rfl, -, hnone, -⟩ <;>
      rcases h.begun_cases hq with hq | ⟨rfl, -, hnone', -⟩
    · exact hlinked.unique p q r r' a hp hq
    · obtain ⟨attempt, hget, -⟩ := hlinked.begun p r a hp
      rw [hnone'] at hget
      cases hget
    · obtain ⟨attempt, hget, -⟩ := hlinked.begun q r' a hq
      rw [hnone] at hget
      cases hget
    · rfl
  · intro r run' hget' hstate
    cases hget : x.1.runs.runs.get? r with
    | none =>
      rw [h.change.run_new hinv.consistent.filed hget hget'] at hstate
      cases hstate
    | some run =>
      obtain ⟨run'', hget'', hstep⟩ := h.change.run_cases hinv.consistent.filed hget
      rw [hget'] at hget''
      cases hget''
      rw [h.noted]
      cases hstep with
      | same => exact mem_retried_observe (hlinked.retried r run' hget hstate)
      | claim batchId hlabel hcreated => cases hstate
      | move target hlabel hmem hguard =>
        cases hstate
        rcases hlabel with ⟨-, hcancel⟩ | ⟨site, rfl⟩
        · cases hcancel
        · simp [History.observe, History.nextRetried, runState?, hget', RunRecord.moved]
      | begin a hlabel hdispatching => cases hstate
      | expire cutoff hlabel hmem => cases hstate
  · intro p r a hbegun hcompleted
    refine lasting_terminal r _ _ _ _ hinv.consistent h.change ?_
    rw [h.noted] at hcompleted
    by_cases hp : p = pid
    · subst hp
      simp only [notes_observe_self, Notes.observe, Bool.or_eq_true] at hcompleted
      rcases h.begun_cases hbegun with hold | ⟨-, rfl, -, -⟩
      · rcases hcompleted with hdone | hdone
        · exact hlinked.completed p r a hold hdone
        · split at hdone
          · obtain ⟨hterm, hsame⟩ := h.knows
            exact hsame r a hold ▸ hterm
          · cases hdone
      · have hknows : (x.2.notes p).completed = false := h.knows
        simp [hknows] at hcompleted
    · rw [notes_observe_ne _ hp] at hcompleted
      rcases h.begun_cases hbegun with hold | ⟨rfl, -⟩
      · exact hlinked.completed p r a hold hcompleted
      · exact absurd rfl hp

theorem Acts.invariant (h : Acts pid call label x y) (hinv : Invariant x) : Invariant y :=
  ⟨h.change.consistent hinv.consistent, h.linked hinv⟩

end Linked

/-! ## What a call relies on -/

theorem JobsChange.of_services {label : Label} {w w' : World} (h : w'.services = w.services)
    (hlabel : ∀ name r, label ≠ .submit name r false) : JobsChange label w w' where
  known := by
    intro name r hr
    simp only [serviceOf, h] at hr
    exact .inl hr
  kept := by
    intro name r hr
    simp only [serviceOf, h]
    exact .inl hr
  submitted := fun name r hl => absurd hl (hlabel name r)

/-- Time and plan edits are read by nobody's invariant. -/
theorem outside_change (who : Notes) (event : Outside) (w : World) : Change who .read w (event.apply w) := by
  cases event with
  | tick micros => exact .quiet rfl rfl rfl rfl (.of_services rfl (by simp))
  | editPlan planId plan => exact .quiet rfl rfl rfl rfl (.of_services rfl (by simp))

theorem Invariant.outside {x : World × History} (h : Invariant x) (event : Outside) :
    Invariant (event.apply x.1, x.2) := by
  have hchange := outside_change .fresh event x.1
  refine ⟨hchange.consistent h.consistent, ?_, h.linked.unique, ?_, ?_⟩
  · intro p r a hbegun
    obtain ⟨attempt, hget, hrun⟩ := h.linked.begun p r a hbegun
    obtain ⟨attempt', hget', hstep⟩ := hchange.attempt_cases hget
    exact ⟨attempt', hget', hstep.sameIdentity.runId.trans hrun⟩
  · intro r run hget
    cases event <;> exact h.linked.retried r run hget
  · intro p r a hbegun hcompleted
    exact lasting_terminal r _ _ _ _ h.consistent hchange (h.linked.completed p r a hbegun hcompleted)

/-- A step of another call, or of nobody. -/
inductive OtherStep (pid : Nat) (x : World × History) : World × History → Prop
  | call {q : Nat} {call : Call} {label : Label} {y : World × History} (hq : q ≠ pid) (hinv : Invariant x)
      (h : Acts q call label x y) : OtherStep pid x y
  | outside (hinv : Invariant x) (event : Outside) : OtherStep pid x (event.apply x.1, x.2)

def rules (pid : Nat) (call : Call) : Rules Label World History where
  obs seen history := history.observe pid seen
  inv := Invariant
  rely := Relation.ReflTransGen (OtherStep pid)
  trust _ _ _ := True
  guar := Acts pid call
  guar_inv _ _ _ hx _ h := h.invariant hx

/-- What a call sees of a step of the others. -/
structure Foreign (pid : Nat) (x y : World × History) : Prop where
  before : Invariant x
  after : Invariant y
  notes : y.2.notes pid = x.2.notes pid
  retried : ∀ r ∈ x.2.retried, r ∈ y.2.retried
  change : ∃ who label, Change who label x.1 y.1 ∧
    ∀ r r' a, (x.2.notes pid).begun = some (r, a) → who.begun ≠ some (r', a)

theorem OtherStep.foreign {pid : Nat} {x y : World × History} (h : OtherStep pid x y) : Foreign pid x y := by
  cases h with
  | @call q call label y hq hinv h =>
    refine ⟨hinv, h.invariant hinv, ?_, ?_, _, _, h.change, ?_⟩
    · rw [h.noted, notes_observe_ne _ (Ne.symm hq)]
    · intro r hr
      rw [h.noted]
      exact mem_retried_observe hr
    · intro r r' a hp hwho
      exact hq (hinv.linked.unique q pid r' r a hwho hp)
  | outside hinv event =>
    exact ⟨hinv, hinv.outside event, rfl, fun _ h => h, .fresh, .read, outside_change _ event _, by simp [Notes.fresh]⟩

theorem stable_of_foreign {pid : Nat} {call : Call} {P : World × History → Prop}
    (h : ∀ x y, Foreign pid x y → P x → P y) : Stable (rules pid call) P := by
  intro x y _ hy hrely hP
  clear hy
  induction hrely with
  | refl => exact hP
  | tail _ hlast ih => exact h _ _ hlast.foreign ih

theorem Lasting.foreign {K : World → Prop} (hK : Lasting K) {pid : Nat} {x y : World × History}
    (h : Foreign pid x y) (hx : K x.1) : K y.1 := by
  obtain ⟨who, label, hchange, -⟩ := h.change
  exact hK who label x.1 y.1 h.before.consistent hchange hx

theorem Lasting.stable {K : World → Prop} (hK : Lasting K) {pid : Nat} {call : Call} :
    Stable (rules pid call) fun x => K x.1 := stable_of_foreign fun _ _ h hx => hK.foreign h hx

theorem Lasting.acts {K : World → Prop} (hK : Lasting K) {pid : Nat} {call : Call} {label : Label}
    {x y : World × History} (hinv : Invariant x) (h : Acts pid call label x y) (hx : K x.1) : K y.1 :=
  hK _ _ _ _ hinv.consistent h.change hx

/-- The rules of all calls fit together. -/
theorem rules_fit (fingerprint : Engine → Dict String Json → String) (refs : References) :
    Pool.Fits (machine fingerprint refs) rules Invariant fun pid x => x.2.notes pid = .fresh where
  obs _ _ := rfl
  inv _ _ := rfl
  trust _ _ _ _ _ := trivial
  refl _ _ _ := .refl
  trans _ _ _ _ _ h h' := h.trans h'
  others pid call pid' call' label x y hne hinv h := .single (.call hne hinv h)
  idle pid call label pid' x y hne h hidle := by
    rw [h.noted, notes_observe_ne _ (Ne.symm hne)]
    exact hidle
  outside event x hinv := ⟨hinv.outside event, fun _ _ => .single (.outside hinv event), fun _ h => h⟩

theorem World.initial_consistent (clock : Instant) (sql : Bool) : Consistent (World.initial clock sql) where
  filed := by simp [Filed, World.initial, RunRepository.empty]
  attempts := by simp [World.initial, RunRepository.empty]
  agree := by simp [World.initial, RunRepository.empty]
  specs := by simp [World.initial]
  batches := by simp [World.initial]
  jobs := by simp [World.initial, serviceOf]

theorem initial_invariant (clock : Instant) (sql : Bool) : Invariant (World.initial clock sql, .empty) where
  consistent := World.initial_consistent clock sql
  linked := ⟨by simp [History.empty, Notes.fresh], by simp [History.empty, Notes.fresh],
    by simp [World.initial, RunRepository.empty], by simp [History.empty, Notes.fresh]⟩

end SmartTest.System
