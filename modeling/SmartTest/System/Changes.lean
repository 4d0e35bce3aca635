import SmartTest.System.Consistency

/-!
# One record across a change

What a change of the shared state can mean for a single run, attempt, spec or batch.
-/

open SmartTest.Lib SmartTest.Run SmartTest.Run.RunRepository SmartTest.Plan

namespace SmartTest.System

/-- What a step with this label does to the record of a run. -/
inductive RunStep (who : Notes) (label : Label) (w : World) (r : UUID) (run : RunRecord) : RunRecord → Prop
  | same : RunStep who label w r run run
  | claim (batchId : UUID) (hlabel : label = .claim batchId) (hstate : run.state = .created) :
      RunStep who label w r run (run.moved .queued)
  | move (target : RunState)
      (hlabel : label = .cancel r ∧ target = .cancelling ∨ ∃ site, label = .transition site r target)
      (hmem : target ∈ RUN_TRANSITIONS run.state) (hguard : MoveGuard who w r run target) :
      RunStep who label w r run (run.moved target)
  | begin (a : UUID) (hlabel : label = .beginAttempt r a) (hstate : run.state = .dispatching) :
      RunStep who label w r run (run.moved .running)
  | expire (cutoff : Instant) (hlabel : label = .expireAttemptLeases cutoff)
      (hmem : .infraError ∈ RUN_TRANSITIONS run.state) : RunStep who label w r run (run.moved .infraError)

/-- What a step with this label does to the record of an attempt. -/
inductive AttemptStep (who : Notes) (label : Label) (a : UUID) (attempt : AttemptRecord) : AttemptRecord → Prop
  | same : AttemptStep who label a attempt attempt
  | write {new : AttemptRecord} (h : AttemptWrite who a attempt new) (hlabel : new.state.leased = true ∨
      ∃ task result target scheduler, label = .completeAttempt task result target scheduler) :
      AttemptStep who label a attempt new
  | expire {new : AttemptRecord} (cutoff : Instant) (hlabel : label = .expireAttemptLeases cutoff)
      (hleased : attempt.state.leased = true) (hlost : new.state = .lost)
      (hsame : AttemptRecord.SameIdentity attempt new) : AttemptStep who label a attempt new

variable {who : Notes} {label : Label} {w w' : World}

theorem RunStep.mem {r : UUID} {run run' : RunRecord} (h : RunStep who label w r run run') :
    run' = run ∨ run'.state ∈ RUN_TRANSITIONS run.state := by
  cases h with
  | same => exact .inl rfl
  | claim batchId hlabel hstate => exact .inr (by simp [RunRecord.moved, hstate, RUN_TRANSITIONS])
  | move target hlabel hmem hguard => exact .inr hmem
  | begin a hlabel hstate => exact .inr (by simp [RunRecord.moved, hstate, RUN_TRANSITIONS])
  | expire cutoff hlabel hmem => exact .inr hmem

theorem RunStep.terminal {r : UUID} {run run' : RunRecord} (h : RunStep who label w r run run')
    (hterm : run.state.terminal = true) : run' = run :=
  h.mem.resolve_right (run_transitions_terminal hterm)

theorem RunStep.not_created {r : UUID} {run run' : RunRecord} (h : RunStep who label w r run run')
    (hcreated : run.state ≠ .created) : run'.state ≠ .created := by
  rcases h.mem with rfl | hmem
  · exact hcreated
  · exact not_created_of_mem hmem

theorem AttemptStep.sameIdentity {a : UUID} {attempt attempt' : AttemptRecord}
    (h : AttemptStep who label a attempt attempt') : AttemptRecord.SameIdentity attempt attempt' := by
  cases h with
  | same => exact ⟨rfl, rfl, rfl⟩
  | write h hlabel => exact h.same
  | expire cutoff hlabel hleased hlost hsame => exact hsame

theorem AttemptStep.terminal {a : UUID} {attempt attempt' : AttemptRecord}
    (h : AttemptStep who label a attempt attempt') (hterm : attempt.state.terminal = true) :
    attempt' = attempt := by
  cases h with
  | same => rfl
  | write h hlabel => simp [live_of_write h] at hterm
  | expire cutoff hlabel hleased hlost hsame => simp [terminal_of_leased hleased] at hterm

/-! ## Lease expiry -/

section Expiry

variable {cutoff : Instant} {repo repo' : RunRepository}

/-- A run that expiry touches ends. -/
theorem expired_run (hf : Filed repo) (h : Relation.ReflTransGen (ExpiresOne cutoff) repo repo') {r : UUID}
    {run : RunRecord} (hget : repo.runs.get? r = some run) : Filed repo' ∧ ∃ run',
      repo'.runs.get? r = some run' ∧
      (run' = run ∨ run' = run.moved .infraError ∧ .infraError ∈ RUN_TRANSITIONS run.state) := by
  induction h with
  | refl => exact ⟨hf, run, hget, .inl rfl⟩
  | tail _ hlast ih =>
    obtain ⟨hfiled, known, hknown, hkept⟩ := ih
    refine ⟨(write_of_expiresOne hfiled hlast).filed hfiled, ?_⟩
    obtain ⟨b, old, new, hexp⟩ := hlast.expiry
    rcases hexp.runs with ⟨heq, -⟩ | ⟨victim, hvictim, hmem, heq⟩
    · exact ⟨known, by rw [heq]; exact hknown, hkept⟩
    · rw [heq, hfiled _ _ hvictim]
      by_cases hr : r = old.runId
      · subst hr
        rw [hknown] at hvictim
        cases hvictim
        rcases hkept with rfl | ⟨rfl, -⟩
        · exact ⟨known.moved .infraError, by simp, .inr ⟨rfl, hmem⟩⟩
        · simp [RunRecord.moved, RUN_TRANSITIONS] at hmem
      · exact ⟨known, by simpa [hr] using hknown, hkept⟩

/-- Expiry makes no runs. -/
theorem expired_run_new (hf : Filed repo) (h : Relation.ReflTransGen (ExpiresOne cutoff) repo repo') {r : UUID}
    (hget : repo.runs.get? r = none) : repo'.runs.get? r = none := by
  have hall : Filed repo' ∧ repo'.runs.get? r = none := by
    induction h with
    | refl => exact ⟨hf, hget⟩
    | tail _ hlast ih =>
      obtain ⟨hfiled, hnone⟩ := ih
      refine ⟨(write_of_expiresOne hfiled hlast).filed hfiled, ?_⟩
      obtain ⟨b, old, new, hexp⟩ := hlast.expiry
      rcases hexp.runs with ⟨heq, -⟩ | ⟨victim, hvictim, hmem, heq⟩
      · rw [heq]
        exact hnone
      · have hne : r ≠ old.runId := by
          rintro rfl
          rw [hnone] at hvictim
          cases hvictim
        rw [heq, hfiled _ _ hvictim, Dict.get?_set_ne _ _ hne]
        exact hnone
  exact hall.2

/-- An attempt that expiry touches is lost, and stays where it stands. -/
theorem expired_attempt (h : Relation.ReflTransGen (ExpiresOne cutoff) repo repo') {a : UUID}
    {attempt : AttemptRecord} (hget : repo.attempts.get? a = some attempt) : ∃ attempt',
      repo'.attempts.get? a = some attempt' ∧ (attempt' = attempt ∨ attempt.state.leased = true ∧
        attempt'.state = .lost ∧ AttemptRecord.SameIdentity attempt attempt') := by
  induction h with
  | refl => exact ⟨attempt, hget, .inl rfl⟩
  | tail _ hlast ih =>
    obtain ⟨known, hknown, hkept⟩ := ih
    obtain ⟨b, old, new, hexp⟩ := hlast.expiry
    rw [hexp.attempts]
    by_cases ha : a = b
    · subst ha
      rw [hexp.found] at hknown
      cases hknown
      refine ⟨new, by simp, .inr ?_⟩
      rcases hkept with rfl | ⟨-, hlost, -⟩
      · exact ⟨hexp.leased, hexp.lost, hexp.same⟩
      · have := hexp.leased
        simp [hlost, AttemptState.leased, ATTEMPT_LEASED] at this
    · exact ⟨known, by simpa [ha] using hknown, hkept⟩

theorem expired_entries (h : Relation.ReflTransGen (ExpiresOne cutoff) repo repo') (r : UUID) :
    (entriesOf repo'.attempts r).map Prod.fst = (entriesOf repo.attempts r).map Prod.fst := by
  induction h with
  | refl => rfl
  | tail _ hlast ih =>
    obtain ⟨b, old, new, hexp⟩ := hlast.expiry
    rw [← ih, hexp.attempts, entriesOf_set_old hexp.found hexp.same.runId, List.map_map]
    apply List.map_congr_left
    intro e _
    by_cases he : e.1 = b <;> simp [replaced, he]

end Expiry

/-! ## Every kind of change -/

theorem Change.run_cases (h : Change who label w w') (hf : Filed w.runs) {r : UUID} {run : RunRecord}
    (hget : w.runs.runs.get? r = some run) :
    ∃ run', w'.runs.runs.get? r = some run' ∧ RunStep who label w r run run' := by
  cases h with
  | quiet hruns hattempts hspecs hbatches hjobs => exact ⟨run, by rw [hruns]; exact hget, .same⟩
  | create new hnew hspec hstate hruns hattempts =>
    have hne : r ≠ new.id := by
      rintro rfl
      rw [hnew] at hget
      cases hget
    exact ⟨run, by simpa [hruns, hne] using hget, .same⟩
  | batch batch pairs hlabel hnew hids hpairs =>
    refine ⟨run, ?_, .same⟩
    rw [Dict.get?_eq_some_iff] at hget ⊢
    rw [(storeBatch_entries hnew hids hpairs).1]
    exact List.mem_append_left _ hget
  | @claim answer runs batchId hlabel hok =>
    have hclaim : claimBatch batchId w = { w with runs := runs } := by
      simp [claimBatch, World.onRuns, hok]
    rcases claimBatch_cases batchId hf with hsame | ⟨table, heq, htable⟩
    · rw [← hclaim, hsame]
      exact ⟨run, hget, .same⟩
    · rw [← hclaim, heq]
      rcases htable r with hsame | ⟨old, hold, hstate, hnew⟩
      · exact ⟨run, hsame.trans hget, .same⟩
      · rw [hget] at hold
        cases hold
        exact ⟨run.moved .queued, hnew, .claim batchId hlabel hstate⟩
  | move runId old target hlabel hrun hmem hguard =>
    by_cases hr : r = runId
    · subst hr
      rw [hget] at hrun
      cases hrun
      exact ⟨run.moved target, by simp, .move target hlabel hmem hguard⟩
    · exact ⟨run, by simpa [hr] using hget, .same⟩
  | begin runId a old claimed hlabel h =>
    by_cases hr : r = runId
    · subst hr
      have hfound := h.found
      rw [hget] at hfound
      cases hfound
      exact ⟨run.moved .running, by simp, .begin a hlabel h.state⟩
    · exact ⟨run, by simpa [hr] using hget, .same⟩
  | attempt a old new hold h hlabel => exact ⟨run, hget, .same⟩
  | expire cutoff hlabel hsteps =>
    obtain ⟨-, run', hget', rfl | ⟨rfl, hmem⟩⟩ := expired_run hf hsteps hget
    · exact ⟨run', hget', .same⟩
    · exact ⟨_, hget', .expire cutoff hlabel hmem⟩

/-- A run that is new is `CREATED`. -/
theorem Change.run_new (h : Change who label w w') (hf : Filed w.runs) {r : UUID} {run : RunRecord}
    (hnone : w.runs.runs.get? r = none) (hget : w'.runs.runs.get? r = some run) : run.state = .created := by
  have hold : ∀ table : Dict UUID RunRecord, table.get? r = w.runs.runs.get? r → table.get? r ≠ some run := by
    intro table htable hsome
    rw [htable, hnone] at hsome
    cases hsome
  cases h with
  | quiet hruns hattempts hspecs hbatches hjobs => exact absurd hget (hold _ (by rw [hruns]))
  | create new hnew hspec hstate hruns hattempts =>
    simp only [hruns, Dict.get?_set] at hget
    split at hget
    · cases hget
      exact hstate
    · exact absurd hget (hold _ rfl)
  | batch batch pairs hlabel hnew hids hpairs =>
    rw [Dict.get?_eq_some_iff, (storeBatch_entries hnew hids hpairs).1, List.mem_append, List.mem_map] at hget
    rcases hget with hget | ⟨p, hp, heq⟩
    · exact absurd ((Dict.get?_eq_some_iff _ _ _).mpr hget) (hold _ rfl)
    · cases heq
      exact (hpairs p hp).1
  | @claim answer runs batchId hlabel hok =>
    have hclaim : claimBatch batchId w = { w with runs := runs } := by
      simp [claimBatch, World.onRuns, hok]
    rcases claimBatch_cases batchId hf with hsame | ⟨table, heq, htable⟩
    · rw [← hclaim, hsame] at hget
      exact absurd hget (hold _ rfl)
    · rw [← hclaim, heq] at hget
      rcases htable r with hsame | ⟨old, hsome, -, -⟩
      · exact absurd hget (hold _ hsame)
      · rw [hnone] at hsome
        cases hsome
  | move runId old target hlabel hrun hmem hguard =>
    have hne : r ≠ runId := by
      rintro rfl
      rw [hnone] at hrun
      cases hrun
    exact absurd hget (hold _ (by simp [hne]))
  | begin runId a old claimed hlabel h =>
    have hne : r ≠ runId := by
      rintro rfl
      have hfound := h.found
      rw [hnone] at hfound
      cases hfound
    exact absurd hget (hold _ (by simp [hne]))
  | attempt a old new hold' h hlabel => exact absurd hget (hold _ rfl)
  | expire cutoff hlabel hsteps =>
    simp only [expired_run_new hf hsteps hnone] at hget
    cases hget

theorem Change.attempt_cases (h : Change who label w w') {a : UUID} {attempt : AttemptRecord}
    (hget : w.runs.attempts.get? a = some attempt) :
    ∃ attempt', w'.runs.attempts.get? a = some attempt' ∧ AttemptStep who label a attempt attempt' := by
  cases h with
  | quiet hruns hattempts hspecs hbatches hjobs => exact ⟨attempt, by rw [hattempts]; exact hget, .same⟩
  | create run hnew hspec hstate hruns hattempts => exact ⟨attempt, by simpa [hattempts] using hget, .same⟩
  | batch batch pairs hlabel hnew hids hpairs => exact ⟨attempt, hget, .same⟩
  | claim batchId hlabel hok =>
    obtain ⟨batch, records, -, -, -, rfl⟩ := claimRuns_ok hok
    exact ⟨attempt, hget, .same⟩
  | move runId run target hlabel hrun hmem hguard => exact ⟨attempt, hget, .same⟩
  | begin runId b run claimed hlabel h =>
    have hne : a ≠ b := by
      rintro rfl
      rw [h.fresh] at hget
      cases hget
    exact ⟨attempt, by simpa [hne] using hget, .same⟩
  | attempt b old new hold h hlabel =>
    by_cases hab : a = b
    · subst hab
      rw [hold] at hget
      cases hget
      exact ⟨new, by simp, .write h hlabel⟩
    · exact ⟨attempt, by simpa [hab] using hget, .same⟩
  | expire cutoff hlabel hsteps =>
    obtain ⟨attempt', hget', rfl | ⟨hleased, hlost, hsame⟩⟩ := expired_attempt hsteps hget
    · exact ⟨attempt', hget', .same⟩
    · exact ⟨attempt', hget', .expire cutoff hlabel hleased hlost hsame⟩

/-- A run that an attempt executes, or that is over, gets no further attempt. -/
theorem Change.entries_kept (h : Change who label w w') {r : UUID} {run : RunRecord}
    (hget : w.runs.runs.get? r = some run) (hwait : ¬ Waiting run.state) :
    (entriesOf w'.runs.attempts r).map Prod.fst = (entriesOf w.runs.attempts r).map Prod.fst := by
  cases h with
  | quiet hruns hattempts hspecs hbatches hjobs => rw [hattempts]
  | create new hnew hspec hstate hruns hattempts => simp only [hattempts]
  | batch batch pairs hlabel hnew hids hpairs => rfl
  | claim batchId hlabel hok =>
    obtain ⟨batch, records, -, -, -, rfl⟩ := claimRuns_ok hok
    rfl
  | move runId old target hlabel hrun hmem hguard => rfl
  | begin runId b old claimed hlabel h =>
    have hne : claimed.runId ≠ r := by
      rw [h.itsRun]
      rintro rfl
      have hfound := h.found
      rw [hget] at hfound
      cases hfound
      exact hwait (.inr (.inr (.inl h.state)))
    simp only [entriesOf_set_new h.fresh, hne, if_false, List.append_nil]
  | attempt b old new hold h hlabel =>
    simp only [entriesOf_set_old hold h.same.runId, List.map_map]
    apply List.map_congr_left
    intro e _
    by_cases he : e.1 = b <;> simp [replaced, he]
  | expire cutoff hlabel hsteps => exact expired_entries hsteps r

/-- Specs stay, and no spec is made for a run that exists. -/
theorem Change.spec_kept (h : Change who label w w') {r : UUID} (hrun : (w.runs.runs.get? r).isSome) :
    w'.plans.specsByRun.get? r = w.plans.specsByRun.get? r := by
  cases h with
  | quiet hruns hattempts hspecs hbatches hjobs => rw [hspecs]
  | batch batch pairs hlabel hnew hids hpairs =>
    ext spec
    simp only [Dict.get?_eq_some_iff, (storeBatch_entries hnew hids hpairs).2, List.mem_append, List.mem_map,
      Prod.mk.injEq]
    constructor
    · rintro (h | ⟨p, hp, rfl, -⟩)
      · exact h
      · have hfree := (unusedBatch_iff.mp hnew).2.2 p.1.id (hids ▸ List.mem_map_of_mem hp)
        rw [(hpairs p hp).2.1, hfree.1] at hrun
        cases hrun
    · exact .inl
  | _ => rfl

end SmartTest.System
