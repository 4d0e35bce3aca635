import SmartTest.System.History

/-!
# How runs and attempts fit together

The joint invariant of the run table, the attempt table, the specs and the queues, and
every change that a call makes to them. The invariant is stronger than what one wants to
know: it says which states of a run allow an attempt that is still going, and that a retry
is asked for only while attempts are left.
-/

open SmartTest.Lib SmartTest.Run SmartTest.Run.RunRepository SmartTest.Plan

namespace SmartTest.System

/-! ## The invariant -/

/-- The states of a run that no attempt executes. -/
def Waiting (state : RunState) : Prop :=
  state = .created ∨ state = .queued ∨ state = .dispatching ∨ state = .retryWait

/-- A run's state fits its attempts, in the order they were begun. -/
structure Agree (state : RunState) (limit : Nat) (entries : List (UUID × AttemptRecord)) : Prop where
  older : ∀ e ∈ entries.dropLast, e.2.state.terminal = true
  count : entries.length ≤ limit
  waiting : Waiting state → (∀ e ∈ entries, e.2.state.terminal = true) ∧ entries.length < limit
  created : state = .created → entries = []
  succeeded : state = .succeeded → ∃ e, entries.getLast? = some e ∧ e.2.state = .succeeded

/-- `retry.max_attempts` of the run's spec. A run without a spec is never executed. -/
def attemptLimit (w : World) (runId : UUID) : Nat :=
  ((w.plans.specsByRun.get? runId).map (·.executionPolicy.retry.maxAttempts)).getD 1

/-- A stored attempt. -/
structure AttemptFits (w : World) (attemptId : UUID) (attempt : AttemptRecord) : Prop where
  id : attempt.id = attemptId
  begun : attempt.state ≠ .pending
  lease : attempt.state.leased = true → attempt.leaseExpiresAt.isSome
  run : ∃ run, w.runs.runs.get? attempt.runId = some run ∧ (attempt.state = .lost → run.state.terminal = true)
  spec : (w.plans.specsByRun.get? attempt.runId).isSome

/-- A stored batch, with its specs in the order of its runs. -/
structure BatchFits (w : World) (batchId : UUID) (batch : ExecutionBatchRecord) : Prop where
  id : batch.id = batchId
  nodup : batch.runIds.Nodup
  specs : (w.plans.specsByRun.values.filter (·.batchId = batchId)).map (·.runId) = batch.runIds

structure Consistent (w : World) : Prop where
  filed : Filed w.runs
  attempts : ∀ a attempt, w.runs.attempts.get? a = some attempt → AttemptFits w a attempt
  agree : ∀ r run, w.runs.runs.get? r = some run →
    Agree run.state (attemptLimit w r) (entriesOf w.runs.attempts r)
  specs : ∀ r spec, w.plans.specsByRun.get? r = some spec → spec.runId = r ∧
    (w.runs.runs.get? r).isSome ∧ (w.plans.batches.get? spec.batchId).isSome
  batches : ∀ b batch, w.plans.batches.get? b = some batch → BatchFits w b batch
  jobs : ∀ name r, r ∈ (serviceOf w name).jobs → ∃ run, w.runs.runs.get? r = some run ∧ run.state ≠ .created

/-! ## Changes -/

/-- What the caller of a run transition has to know. -/
structure MoveGuard (who : Notes) (w : World) (runId : UUID) (run : RunRecord) (target : RunState) : Prop where
  running : target ≠ .running
  queued : target = .queued → run.state = .retryWait ∨ w.plans.specsByRun.get? runId = none
  succeeded : target = .succeeded → ∃ a attempt, who.begun = some (runId, a) ∧
    current w.runs.attempts runId = some (a, attempt) ∧ attempt.state = .succeeded
  retryWait : target = .retryWait → ∃ a attempt, who.begun = some (runId, a) ∧
    current w.runs.attempts runId = some (a, attempt) ∧ attempt.state.terminal = true ∧
    (entriesOf w.runs.attempts runId).length < attemptLimit w runId

/-- A new record of an attempt by the call that began it. -/
structure AttemptWrite (who : Notes) (a : UUID) (old new : AttemptRecord) : Prop where
  own : who.begun = some (old.runId, a)
  state : new.state ∈ ATTEMPT_TRANSITIONS old.state ∨ old.state.leased = true ∧ new.state = old.state
  notLost : new.state ≠ .lost
  same : AttemptRecord.SameIdentity old new
  lease : new.state.leased = true → new.leaseExpiresAt.isSome

/-- A new attempt of a run in `DISPATCHING`. -/
structure AttemptBegin (w : World) (runId a : UUID) (run : RunRecord) (claimed : AttemptRecord) : Prop where
  found : w.runs.runs.get? runId = some run
  state : run.state = .dispatching
  fresh : w.runs.attempts.get? a = none
  id : claimed.id = a
  itsRun : claimed.runId = runId
  starts : claimed.state = .claimed
  lease : claimed.leaseExpiresAt.isSome
  spec : (w.plans.specsByRun.get? runId).isSome

/-- How the queues of the services change. -/
structure JobsChange (label : Label) (w w' : World) : Prop where
  known : ∀ name r, r ∈ (serviceOf w' name).jobs → r ∈ (serviceOf w name).jobs ∨
    ∃ run, w.runs.runs.get? r = some run ∧ run.state ≠ .created
  kept : ∀ name r, r ∈ (serviceOf w name).jobs → r ∈ (serviceOf w' name).jobs ∨ label = .take name r
  submitted : ∀ name r, label = .submit name r false → r ∈ (serviceOf w' name).jobs

/-- Every change a call makes to the shared state with a step. `who` are the notes on the call. -/
inductive Change (who : Notes) (label : Label) (w : World) : World → Prop
  | quiet {w' : World} (hruns : w'.runs.runs = w.runs.runs) (hattempts : w'.runs.attempts = w.runs.attempts)
      (hspecs : w'.plans.specsByRun = w.plans.specsByRun) (hbatches : w'.plans.batches = w.plans.batches)
      (hjobs : JobsChange label w w') : Change who label w w'
  | create {runs : RunRepository} (run : RunRecord) (hnew : w.runs.runs.get? run.id = none)
      (hspec : w.plans.specsByRun.get? run.id = none) (hstate : run.state = .created)
      (hruns : runs.runs = w.runs.runs.set run.id run) (hattempts : runs.attempts = w.runs.attempts) :
      Change who label w { w with runs := runs }
  | batch (batch : ExecutionBatchRecord) (pairs : List (RunRecord × RunSpecRecord))
      (hlabel : label = .executePlan batch.id) (hnew : unusedBatch w batch = true) (hids : batch.runIds = pairs.map (·.1.id))
      (hpairs : ∀ p ∈ pairs, p.1.state = .created ∧ p.2.runId = p.1.id ∧ p.2.batchId = batch.id) :
      Change who label w { w with
        plans := (w.plans.storeBatch w.runs batch pairs).1, runs := (w.plans.storeBatch w.runs batch pairs).2 }
  | claim {answer : List UUID × Nat} {runs : RunRepository} (batchId : UUID)
      (hlabel : label = .claim batchId) (hok : claimRuns w batchId = .ok (answer, runs)) :
      Change who label w { w with runs := runs }
  | move (runId : UUID) (run : RunRecord) (target : RunState)
      (hlabel : label = .cancel runId ∧ target = .cancelling ∨ ∃ site, label = .transition site runId target)
      (hrun : w.runs.runs.get? runId = some run)
      (hmem : target ∈ RUN_TRANSITIONS run.state) (hguard : MoveGuard who w runId run target) :
      Change who label w { w with runs := { w.runs with runs := w.runs.runs.set runId (run.moved target) } }
  | begin (runId a : UUID) (run : RunRecord) (claimed : AttemptRecord) (hlabel : label = .beginAttempt runId a)
      (h : AttemptBegin w runId a run claimed) :
      Change who label w { w with runs := { w.runs with
        runs := w.runs.runs.set runId (run.moved .running), attempts := w.runs.attempts.set a claimed } }
  | attempt (a : UUID) (old new : AttemptRecord) (hget : w.runs.attempts.get? a = some old)
      (h : AttemptWrite who a old new) (hlabel : new.state.leased = true ∨
        ∃ task result target scheduler, label = .completeAttempt task result target scheduler) :
      Change who label w { w with runs := { w.runs with attempts := w.runs.attempts.set a new } }
  | expire {runs : RunRepository} (cutoff : Instant) (hlabel : label = .expireAttemptLeases cutoff)
      (hsteps : Relation.ReflTransGen (ExpiresOne cutoff) w.runs runs) :
      Change who label w { w with runs := runs }

/-! ## Lists of attempts -/

section Entries

variable {entries : List (UUID × AttemptRecord)}

/-- An attempt that is still going is the last one. -/
theorem eq_append_of_live (holder : ∀ e ∈ entries.dropLast, e.2.state.terminal = true)
    {e : UUID × AttemptRecord} (hmem : e ∈ entries) (hlive : e.2.state.terminal = false) :
    entries = entries.dropLast ++ [e] := by
  have hne : entries ≠ [] := List.ne_nil_of_mem hmem
  have hsplit := List.dropLast_append_getLast hne
  rw [← hsplit, List.mem_append, List.mem_singleton] at hmem
  rcases hmem with hmem | rfl
  · simp [holder e hmem] at hlive
  · exact hsplit.symm

theorem map_replaced_last {a : UUID} {old new : AttemptRecord} {init : List (UUID × AttemptRecord)}
    (hnodup : (entries.map Prod.fst).Nodup) (h : entries = init ++ [(a, old)]) :
    entries.map (replaced a new) = init ++ [(a, new)] := by
  subst h
  rw [List.map_append] at hnodup ⊢
  have hinit : init.map (replaced a new) = init := by
    conv_rhs => rw [← List.map_id init]
    apply List.map_congr_left
    intro e he
    have hne : e.1 ≠ a := by
      rintro rfl
      exact (List.nodup_append.mp hnodup).2.2 e.1 (List.mem_map_of_mem he) e.1 (by simp) rfl
    simp [replaced, hne]
  rw [hinit]
  simp [replaced]

theorem not_waiting_running : ¬ Waiting .running := by simp [Waiting]

/-- The entry of a live attempt can be renewed while its run is held or over. -/
theorem Agree.update {state : RunState} {limit : Nat} {a : UUID} {old : AttemptRecord} (new : AttemptRecord)
    (h : Agree state limit entries) (hnodup : (entries.map Prod.fst).Nodup) (hmem : (a, old) ∈ entries)
    (hlive : old.state.terminal = false) : Agree state limit (entries.map (replaced a new)) ∧
      ¬ Waiting state ∧ state ≠ .succeeded := by
  have hsplit := eq_append_of_live h.older hmem hlive
  have hwait : ¬ Waiting state := by
    intro hw
    simp [(h.waiting hw).1 _ hmem] at hlive
  have hsucc : state ≠ .succeeded := by
    intro hs
    obtain ⟨e, hlast, he⟩ := h.succeeded hs
    rw [hsplit, List.getLast?_append] at hlast
    simp only [List.getLast?_singleton, Option.some_or, Option.some.injEq] at hlast
    subst hlast
    simp only at he
    simp [he, AttemptState.terminal, ATTEMPT_TERMINAL] at hlive
  refine ⟨?_, hwait, hsucc⟩
  rw [map_replaced_last hnodup hsplit]
  refine ⟨?_, ?_, fun hw => absurd hw hwait, fun hc => absurd (.inl hc) hwait, fun hs => absurd hs hsucc⟩
  · simpa using h.older
  · have := h.count
    rw [hsplit] at this
    simpa using this

end Entries

/-! ## Changes keep the invariant -/

variable {who : Notes} {w : World}

theorem attemptLimit_congr {w' : World} (h : w'.plans.specsByRun = w.plans.specsByRun) (r : UUID) :
    attemptLimit w' r = attemptLimit w r := by
  simp only [attemptLimit, h]

theorem BatchFits.congr {w' : World} {b : UUID} {batch : ExecutionBatchRecord} (h : BatchFits w b batch)
    (hspecs : w'.plans.specsByRun = w.plans.specsByRun) : BatchFits w' b batch :=
  ⟨h.id, h.nodup, by rw [hspecs]; exact h.specs⟩

/-- The runs of the table after a change of some of their states. -/
def RunsMoved (w : World) (runs : RunRepository) : Prop :=
  ∀ r, runs.runs.get? r = w.runs.runs.get? r ∨ ∃ run target, w.runs.runs.get? r = some run ∧
    runs.runs.get? r = some (run.moved target) ∧ target ∈ RUN_TRANSITIONS run.state ∧
    Agree target (attemptLimit w r) (entriesOf w.runs.attempts r)

theorem not_created_of_mem {s t : RunState} (h : t ∈ RUN_TRANSITIONS s) : t ≠ .created := by
  rintro rfl
  revert h
  cases s <;> simp [RUN_TRANSITIONS]

/-- A change of run states only. -/
theorem Consistent.moveRuns (hc : Consistent w) {runs : RunRepository} (hmoved : RunsMoved w runs)
    (hattempts : runs.attempts = w.runs.attempts) : Consistent { w with runs := runs } := by
  have hrun : ∀ r run, w.runs.runs.get? r = some run → ∃ run', runs.runs.get? r = some run' ∧
      (run.state.terminal = true → run' = run) ∧ (run.state ≠ .created → run'.state ≠ .created) := by
    intro r run hget
    rcases hmoved r with hsame | ⟨old, target, hold, hnew, hmem, -⟩
    · exact ⟨run, hsame.trans hget, fun _ => rfl, id⟩
    · rw [hget] at hold
      cases hold
      refine ⟨_, hnew, fun hterm => ?_, fun _ => not_created_of_mem hmem⟩
      simp [not_terminal_of_mem hmem] at hterm
  refine ⟨?_, ?_, ?_, ?_, fun b batch hb => (hc.batches b batch hb).congr rfl, ?_⟩
  · intro r run hget
    rcases hmoved r with hsame | ⟨old, target, hold, hnew, -, -⟩
    · exact hc.filed r run (hsame ▸ hget)
    · rw [hnew] at hget
      cases hget
      exact hc.filed r old hold
  · intro a attempt hget
    rw [hattempts] at hget
    have hfits := hc.attempts a attempt hget
    obtain ⟨run, hget', hlost⟩ := hfits.run
    obtain ⟨run', hnew, hterm, -⟩ := hrun _ _ hget'
    exact ⟨hfits.id, hfits.begun, hfits.lease,
      ⟨run', hnew, fun hl => hterm (hlost hl) ▸ hlost hl⟩, hfits.spec⟩
  · intro r run hget
    simp only [hattempts]
    rcases hmoved r with hsame | ⟨old, target, hold, hnew, -, hagree⟩
    · exact hc.agree r run (hsame ▸ hget)
    · rw [hnew] at hget
      cases hget
      exact hagree
  · intro r spec hspec
    obtain ⟨hid, hsome, hbatch⟩ := hc.specs r spec hspec
    obtain ⟨run, hget⟩ := Option.isSome_iff_exists.mp hsome
    obtain ⟨run', hnew, -⟩ := hrun _ _ hget
    exact ⟨hid, by simp [hnew], hbatch⟩
  · intro name r hr
    obtain ⟨run, hget, hcreated⟩ := hc.jobs name r hr
    obtain ⟨run', hnew, -, hkeep⟩ := hrun _ _ hget
    exact ⟨run', hnew, hkeep hcreated⟩

theorem mem_getLast {entries : List (UUID × AttemptRecord)} {e : UUID × AttemptRecord}
    (hlast : entries.getLast? = some e) : entries = entries.dropLast ++ [e] := by
  have hne : entries ≠ [] := by
    rintro rfl
    cases hlast
  rw [List.getLast?_eq_some_getLast hne] at hlast
  cases hlast
  exact (List.dropLast_append_getLast hne).symm

/-- A guarded transition agrees with the attempts of the run. -/
theorem Agree.move {runId : UUID} {run : RunRecord} {target : RunState}
    (h : Agree run.state (attemptLimit w runId) (entriesOf w.runs.attempts runId))
    (hmem : target ∈ RUN_TRANSITIONS run.state) (hguard : MoveGuard who w runId run target) :
    Agree target (attemptLimit w runId) (entriesOf w.runs.attempts runId) where
  older := h.older
  count := h.count
  waiting := by
    rintro (rfl | rfl | rfl | rfl)
    · exact absurd rfl (not_created_of_mem hmem)
    · refine h.waiting ?_
      revert hmem
      cases run.state <;> simp [RUN_TRANSITIONS, Waiting]
    · refine h.waiting ?_
      revert hmem
      cases run.state <;> simp [RUN_TRANSITIONS, Waiting]
    · obtain ⟨a, attempt, -, hlast, hterm, hlt⟩ := hguard.retryWait rfl
      refine ⟨fun e he => ?_, hlt⟩
      rw [mem_getLast hlast, List.mem_append, List.mem_singleton] at he
      rcases he with he | rfl
      · exact h.older e he
      · exact hterm
  created := fun hc => absurd hc (not_created_of_mem hmem)
  succeeded := by
    rintro rfl
    obtain ⟨a, attempt, -, hlast, hstate⟩ := hguard.succeeded rfl
    exact ⟨_, hlast, hstate⟩

theorem Consistent.move (hc : Consistent w) {runId : UUID} {run : RunRecord} {target : RunState}
    (hrun : w.runs.runs.get? runId = some run) (hmem : target ∈ RUN_TRANSITIONS run.state)
    (hguard : MoveGuard who w runId run target) :
    Consistent { w with runs := { w.runs with runs := w.runs.runs.set runId (run.moved target) } } := by
  refine hc.moveRuns ?_ rfl
  intro r
  by_cases hr : r = runId
  · subst hr
    exact .inr ⟨run, target, hrun, by simp, hmem, (hc.agree r run hrun).move hmem hguard⟩
  · exact .inl (by simp [hr])

theorem Consistent.claim (hc : Consistent w) {batchId : UUID} {answer : List UUID × Nat} {runs : RunRepository}
    (hok : claimRuns w batchId = .ok (answer, runs)) : Consistent { w with runs := runs } := by
  have hclaim : claimBatch batchId w = { w with runs := runs } := by
    simp [claimBatch, World.onRuns, hok]
  rcases claimBatch_cases batchId hc.filed with hsame | ⟨table, heq, htable⟩
  · rw [← hclaim, hsame]
    exact hc
  · rw [← hclaim, heq]
    refine hc.moveRuns ?_ rfl
    intro r
    rcases htable r with hsame | ⟨run, hrun, hstate, hnew⟩
    · exact .inl hsame
    · have hagree := hc.agree r run hrun
      rw [hstate] at hagree
      refine .inr ⟨run, .queued, hrun, hnew, by simp [hstate, RUN_TRANSITIONS], hagree.older, hagree.count,
        fun _ => hagree.waiting (.inl rfl), by simp, by simp⟩

theorem Consistent.quiet (hc : Consistent w) {w' : World} {label : Label} (hruns : w'.runs.runs = w.runs.runs)
    (hattempts : w'.runs.attempts = w.runs.attempts) (hspecs : w'.plans.specsByRun = w.plans.specsByRun)
    (hbatches : w'.plans.batches = w.plans.batches) (hjobs : JobsChange label w w') : Consistent w' where
  filed := by
    intro r run hget
    rw [hruns] at hget
    exact hc.filed r run hget
  attempts := by
    intro a attempt hget
    rw [hattempts] at hget
    have hfits := hc.attempts a attempt hget
    exact ⟨hfits.id, hfits.begun, hfits.lease, hruns ▸ hfits.run, hspecs ▸ hfits.spec⟩
  agree := by
    intro r run hget
    rw [hruns] at hget
    rw [attemptLimit_congr hspecs, hattempts]
    exact hc.agree r run hget
  specs := by
    intro r spec hget
    rw [hspecs] at hget
    rw [hruns, hbatches]
    exact hc.specs r spec hget
  batches := by
    intro b batch hget
    rw [hbatches] at hget
    exact (hc.batches b batch hget).congr hspecs
  jobs := by
    intro name r hr
    rw [hruns]
    rcases hjobs.known name r hr with hold | hrun
    · exact hc.jobs name r hold
    · exact hrun

/-- A run that is not in the table has no attempts. -/
theorem Consistent.entriesOf_new (hc : Consistent w) {r : UUID} (hnew : w.runs.runs.get? r = none) :
    entriesOf w.runs.attempts r = [] := by
  rw [List.eq_nil_iff_forall_not_mem]
  intro e he
  obtain ⟨hget, hrun⟩ := mem_entriesOf.mp he
  obtain ⟨run, hsome, -⟩ := (hc.attempts _ _ hget).run
  rw [hrun, hnew] at hsome
  cases hsome

theorem attemptLimit_pos (w : World) (r : UUID) : 0 < attemptLimit w r := by
  unfold attemptLimit
  cases w.plans.specsByRun.get? r with
  | none => simp
  | some spec => exact spec.executionPolicy.retry.maxAttempts_pos

theorem agree_created {limit : Nat} (h : 0 < limit) : Agree .created limit [] :=
  ⟨by simp, by simp, fun _ => ⟨by simp, h⟩, fun _ => rfl, by simp⟩

/-- New runs, and specs and batches for them. -/
theorem Consistent.addRuns (hc : Consistent w) {w' : World} (hattempts : w'.runs.attempts = w.runs.attempts)
    (hservices : w'.services = w.services)
    (hold : ∀ r run, w.runs.runs.get? r = some run → w'.runs.runs.get? r = some run)
    (hruns : ∀ r run, w'.runs.runs.get? r = some run → w.runs.runs.get? r = some run ∨
      w.runs.runs.get? r = none ∧ run.id = r ∧ run.state = .created)
    (hlimit : ∀ r, (w.runs.runs.get? r).isSome →
      w'.plans.specsByRun.get? r = w.plans.specsByRun.get? r)
    (hspecs : ∀ r spec, w'.plans.specsByRun.get? r = some spec → spec.runId = r ∧
      (w'.runs.runs.get? r).isSome ∧ (w'.plans.batches.get? spec.batchId).isSome)
    (hbatches : ∀ b batch, w'.plans.batches.get? b = some batch → BatchFits w' b batch) : Consistent w' where
  filed := by
    intro r run hget
    rcases hruns r run hget with h | ⟨-, h, -⟩
    · exact hc.filed r run h
    · exact h
  attempts := by
    intro a attempt hget
    rw [hattempts] at hget
    have hfits := hc.attempts a attempt hget
    obtain ⟨run, hrun, hlost⟩ := hfits.run
    exact ⟨hfits.id, hfits.begun, hfits.lease, ⟨run, hold _ _ hrun, hlost⟩,
      by rw [hlimit _ (by simp [hrun])]; exact hfits.spec⟩
  agree := by
    intro r run hget
    rw [hattempts]
    rcases hruns r run hget with h | ⟨hnew, -, hcreated⟩
    · have hlim : attemptLimit w' r = attemptLimit w r := by
        simp only [attemptLimit, hlimit r (by simp [h])]
      rw [hlim]
      exact hc.agree r run h
    · rw [hc.entriesOf_new hnew, hcreated]
      exact agree_created (attemptLimit_pos w' r)
  specs := hspecs
  batches := hbatches
  jobs := by
    intro name r hr
    have hr' : r ∈ (serviceOf w name).jobs := by
      simpa only [serviceOf, hservices] using hr
    obtain ⟨run, hget, hcreated⟩ := hc.jobs name r hr'
    exact ⟨run, hold r run hget, hcreated⟩

theorem Consistent.create (hc : Consistent w) {runs : RunRepository} {run : RunRecord}
    (hnew : w.runs.runs.get? run.id = none) (hstate : run.state = .created)
    (hruns : runs.runs = w.runs.runs.set run.id run) (hattempts : runs.attempts = w.runs.attempts) :
    Consistent { w with runs := runs } := by
  have hold : ∀ r old, w.runs.runs.get? r = some old → runs.runs.get? r = some old := by
    intro r old hget
    have hne : r ≠ run.id := by
      rintro rfl
      rw [hnew] at hget
      cases hget
    simpa [hruns, hne] using hget
  refine hc.addRuns hattempts rfl hold ?_ (fun _ _ => rfl) ?_ fun b batch hb => (hc.batches b batch hb).congr rfl
  · intro r new hget
    simp only [hruns, Dict.get?_set] at hget
    split at hget
    · next heq =>
      cases hget
      exact .inr ⟨heq ▸ hnew, heq.symm, hstate⟩
    · exact .inl hget
  · intro r spec hspec
    obtain ⟨hid, hsome, hbatch⟩ := hc.specs r spec hspec
    obtain ⟨old, hget⟩ := Option.isSome_iff_exists.mp hsome
    exact ⟨hid, by simp [hold r old hget], hbatch⟩

/-! ## A new batch -/

section Batch

variable {batch : ExecutionBatchRecord} {pairs : List (RunRecord × RunSpecRecord)}

theorem unusedBatch_iff : unusedBatch w batch = true ↔ w.plans.batches.get? batch.id = none ∧
    batch.runIds.Nodup ∧ ∀ r ∈ batch.runIds, w.runs.runs.get? r = none ∧
      w.plans.specsByRun.get? r = none := by
  simp [unusedBatch, and_assoc]

/-- The tables after a batch was stored: the new records stand at their ends. -/
theorem storeBatch_entries (hnew : unusedBatch w batch = true) (hids : batch.runIds = pairs.map (·.1.id))
    (hpairs : ∀ p ∈ pairs, p.1.state = .created ∧ p.2.runId = p.1.id ∧ p.2.batchId = batch.id) :
    (w.plans.storeBatch w.runs batch pairs).2.runs.entries =
        w.runs.runs.entries ++ pairs.map (fun p => (p.1.id, p.1)) ∧
      (w.plans.storeBatch w.runs batch pairs).1.specsByRun.entries =
        w.plans.specsByRun.entries ++ pairs.map fun p => (p.2.runId, p.2) := by
  obtain ⟨-, hnodup, hfree⟩ := unusedBatch_iff.mp hnew
  have hsame : pairs.map (·.2.runId) = pairs.map (·.1.id) :=
    List.map_congr_left fun p hp => (hpairs p hp).2.1
  rw [hids] at hnodup hfree
  constructor
  · exact Dict.entries_foldl_set (fun p => p.1.id) (fun p => p.1) pairs _ hnodup
      fun p hp => (hfree _ (List.mem_map_of_mem hp)).1
  · refine Dict.entries_foldl_set (fun p => p.2.runId) (fun p => p.2) pairs _ (hsame ▸ hnodup) ?_
    intro p hp
    rw [(hpairs p hp).2.1]
    exact (hfree _ (List.mem_map_of_mem hp)).2

theorem Consistent.addBatch (hc : Consistent w) (hnew : unusedBatch w batch = true)
    (hids : batch.runIds = pairs.map (·.1.id))
    (hpairs : ∀ p ∈ pairs, p.1.state = .created ∧ p.2.runId = p.1.id ∧ p.2.batchId = batch.id) :
    Consistent { w with
      plans := (w.plans.storeBatch w.runs batch pairs).1, runs := (w.plans.storeBatch w.runs batch pairs).2 } := by
  obtain ⟨hruns, hspecs⟩ := storeBatch_entries hnew hids hpairs
  obtain ⟨hfreshBatch, hnodup, hfree⟩ := unusedBatch_iff.mp hnew
  have hbatches : (w.plans.storeBatch w.runs batch pairs).1.batches = w.plans.batches.set batch.id batch := rfl
  have hvalues : (w.plans.storeBatch w.runs batch pairs).1.specsByRun.values =
      w.plans.specsByRun.values ++ pairs.map (·.2) := by
    simp only [Dict.values, hspecs, List.map_append, List.map_map]
    rfl
  -- Specs of old batches and of the new one do not mix: its identifier was unused.
  have hspecBatch : ∀ spec ∈ w.plans.specsByRun.values, spec.batchId ≠ batch.id := by
    intro spec hmem heq
    obtain ⟨r, hget⟩ := (Dict.mem_values_iff _ _).mp hmem
    have := (hc.specs r spec hget).2.2
    simp [heq, hfreshBatch] at this
  have hold : ∀ r run, w.runs.runs.get? r = some run →
      (w.plans.storeBatch w.runs batch pairs).2.runs.get? r = some run := by
    intro r run hget
    rw [Dict.get?_eq_some_iff] at hget ⊢
    rw [hruns]
    exact List.mem_append_left _ hget
  refine hc.addRuns rfl rfl hold ?_ ?_ ?_ ?_
  · intro r run hget
    rw [Dict.get?_eq_some_iff, hruns, List.mem_append] at hget
    rcases hget with hget | hget
    · exact .inl ((Dict.get?_eq_some_iff _ _ _).mpr hget)
    · obtain ⟨p, hp, heq⟩ := List.mem_map.mp hget
      cases heq
      exact .inr ⟨(hfree _ (hids ▸ List.mem_map_of_mem hp)).1, rfl, (hpairs p hp).1⟩
  · intro r hsome
    ext spec
    simp only [Dict.get?_eq_some_iff, hspecs, List.mem_append, List.mem_map, Prod.mk.injEq]
    constructor
    · rintro (h | ⟨p, hp, rfl, -⟩)
      · exact h
      · rw [(hpairs p hp).2.1, (hfree _ (hids ▸ List.mem_map_of_mem hp)).1] at hsome
        cases hsome
    · exact .inl
  · intro r spec hget
    rw [Dict.get?_eq_some_iff, hspecs, List.mem_append] at hget
    rcases hget with hget | hget
    · obtain ⟨hid, hrun, hbatch⟩ := hc.specs r spec ((Dict.get?_eq_some_iff _ _ _).mpr hget)
      obtain ⟨run, hrun⟩ := Option.isSome_iff_exists.mp hrun
      refine ⟨hid, by simp [hold r run hrun], ?_⟩
      rw [hbatches, Dict.get?_set]
      split
      · rfl
      · exact hbatch
    · obtain ⟨p, hp, heq⟩ := List.mem_map.mp hget
      cases heq
      refine ⟨rfl, ?_, by simp [hbatches, (hpairs p hp).2.2]⟩
      have hmem : (p.1.id, p.1) ∈ (w.plans.storeBatch w.runs batch pairs).2.runs.entries := by
        rw [hruns]
        exact List.mem_append_right _ (List.mem_map_of_mem (f := fun p => (p.1.id, p.1)) hp)
      rw [(hpairs p hp).2.1]
      simp [(Dict.get?_eq_some_iff _ _ _).mpr hmem]
  · intro b other hget
    simp only [hbatches, Dict.get?_set] at hget
    split at hget
    · next heq =>
      cases hget
      subst heq
      refine ⟨rfl, hnodup, ?_⟩
      have hnone : w.plans.specsByRun.values.filter (·.batchId = batch.id) = [] := by
        simpa [List.filter_eq_nil_iff] using hspecBatch
      have hall : (pairs.map (·.2)).filter (·.batchId = batch.id) = pairs.map (·.2) := by
        rw [List.filter_eq_self]
        intro spec hmem
        obtain ⟨p, hp, rfl⟩ := List.mem_map.mp hmem
        simpa using (hpairs p hp).2.2
      simp only [hvalues, List.filter_append, hnone, hall, List.nil_append, List.map_map, hids]
      exact List.map_congr_left fun p hp => (hpairs p hp).2.1
    · next hne =>
      have hfits := hc.batches b other hget
      refine ⟨hfits.id, hfits.nodup, ?_⟩
      have hnone : (pairs.map (·.2)).filter (·.batchId = b) = [] := by
        rw [List.filter_eq_nil_iff]
        intro spec hmem
        obtain ⟨p, hp, rfl⟩ := List.mem_map.mp hmem
        simp [(hpairs p hp).2.2, Ne.symm hne]
      simp only [hvalues, List.filter_append, hnone, List.append_nil]
      exact hfits.specs

end Batch

/-! ## Attempts -/

theorem Consistent.begin (hc : Consistent w) {runId a : UUID} {run : RunRecord} {claimed : AttemptRecord}
    (h : AttemptBegin w runId a run claimed) :
    Consistent { w with runs := { w.runs with
      runs := w.runs.runs.set runId (run.moved .running), attempts := w.runs.attempts.set a claimed } } := by
  have hagree := hc.agree runId run h.found
  rw [h.state] at hagree
  obtain ⟨hterm, hlt⟩ := hagree.waiting (.inr (.inr (.inl rfl)))
  have hentries : ∀ r, entriesOf (w.runs.attempts.set a claimed) r =
      entriesOf w.runs.attempts r ++ if claimed.runId = r then [(a, claimed)] else [] :=
    entriesOf_set_new h.fresh
  refine ⟨?_, ?_, ?_, ?_, fun b batch hb => (hc.batches b batch hb).congr rfl, ?_⟩
  · intro r run' hget
    simp only [Dict.get?_set] at hget
    split at hget
    · next heq =>
      cases hget
      exact (hc.filed _ _ h.found).trans heq.symm
    · exact hc.filed r run' hget
  · intro b attempt hget
    simp only [Dict.get?_set] at hget
    split at hget
    · next heq =>
      cases hget
      subst heq
      refine ⟨h.id, by rw [h.starts]; decide, fun _ => h.lease, ?_, h.itsRun ▸ h.spec⟩
      exact ⟨run.moved .running, by simp [h.itsRun], by simp [h.starts]⟩
    · have hfits := hc.attempts b attempt hget
      refine ⟨hfits.id, hfits.begun, hfits.lease, ?_, hfits.spec⟩
      obtain ⟨run', hrun', hlost⟩ := hfits.run
      by_cases hr : attempt.runId = runId
      · refine ⟨run.moved .running, by simp [hr], fun hl => ?_⟩
        rw [hr, h.found] at hrun'
        cases hrun'
        simp [h.state, RunState.terminal, RUN_TERMINAL] at hlost
        exact absurd hl hlost
      · exact ⟨run', by simpa [hr] using hrun', hlost⟩
  · intro r run' hget
    simp only [Dict.get?_set] at hget
    simp only [hentries]
    split at hget
    · next heq =>
      cases hget
      subst heq
      have hrunId : claimed.runId = r := h.itsRun
      simp only [hrunId, if_true]
      refine ⟨by simpa using hterm, ?_, fun hw => absurd hw not_waiting_running, ?_, ?_⟩
      · rw [List.length_append]
        exact Nat.succ_le_of_lt hlt
      · intro hstate
        cases hstate
      · intro hstate
        cases hstate
    · next hne =>
      have hrunId : claimed.runId ≠ r := by
        rw [h.itsRun]
        exact Ne.symm hne
      simp only [hrunId, if_false, List.append_nil]
      exact hc.agree r run' hget
  · intro r spec hspec
    obtain ⟨hid, hsome, hbatch⟩ := hc.specs r spec hspec
    refine ⟨hid, ?_, hbatch⟩
    simp only [Dict.get?_set]
    split
    · rfl
    · exact hsome
  · intro name r hr
    obtain ⟨old, hget, hcreated⟩ := hc.jobs name r hr
    by_cases hr' : r = runId
    · exact ⟨run.moved .running, by simp [hr'], by simp [RunRecord.moved]⟩
    · exact ⟨old, by simpa [hr'] using hget, hcreated⟩

/-- A new record of a live attempt. The run keeps its state, or is over and the attempt lost. -/
theorem Consistent.updateAttempt (hc : Consistent w) {a : UUID} {old new : AttemptRecord}
    {runs : RunRepository} (hget : w.runs.attempts.get? a = some old) (hlive : old.state.terminal = false)
    (hsame : AttemptRecord.SameIdentity old new) (hbegun : new.state ≠ .pending)
    (hlease : new.state.leased = true → new.leaseExpiresAt.isSome)
    (hattempts : runs.attempts = w.runs.attempts.set a new) {run : RunRecord} (run' : RunRecord)
    (hrun : w.runs.runs.get? old.runId = some run)
    (hruns : ∀ r, runs.runs.get? r = if r = old.runId then some run' else w.runs.runs.get? r)
    (hid : run'.id = run.id) (hstate : run'.state = run.state ∨ run'.state = .infraError)
    (hlost : new.state = .lost → run'.state.terminal = true) : Consistent { w with runs := runs } := by
  have hagree := hc.agree old.runId run hrun
  have hmem : (a, old) ∈ entriesOf w.runs.attempts old.runId := mem_entriesOf.mpr ⟨hget, rfl⟩
  obtain ⟨hupdate, hwait, -⟩ := hagree.update new (entriesOf_nodup _ _) hmem hlive
  have hcreated : run'.state ≠ .created := by
    rcases hstate with h | h
    · rw [h]
      exact fun hcr => hwait (.inl hcr)
    · rw [h]
      decide
  have hentries : ∀ r, entriesOf runs.attempts r = (entriesOf w.runs.attempts r).map (replaced a new) := by
    intro r
    rw [hattempts]
    exact entriesOf_set_old hget hsame.runId r
  have hold : ∀ r known, w.runs.runs.get? r = some known → ∃ known', runs.runs.get? r = some known' ∧
      (r = old.runId ∧ known' = run' ∨ r ≠ old.runId ∧ known' = known) := by
    intro r known hknown
    by_cases hr : r = old.runId
    · exact ⟨run', by simp [hruns, hr], .inl ⟨hr, rfl⟩⟩
    · exact ⟨known, by simpa [hruns, hr] using hknown, .inr ⟨hr, rfl⟩⟩
  refine ⟨?_, ?_, ?_, ?_, fun b batch hb => (hc.batches b batch hb).congr rfl, ?_⟩
  · intro r known hknown
    simp only [hruns] at hknown
    split at hknown
    · next heq =>
      cases hknown
      rw [hid, heq]
      exact hc.filed _ _ hrun
    · exact hc.filed r known hknown
  · intro b attempt hb
    simp only [hattempts, Dict.get?_set] at hb
    split at hb
    · next heq =>
      cases hb
      subst heq
      have hfits := hc.attempts b old hget
      refine ⟨hsame.id.trans hfits.id, hbegun, hlease, ?_, by rw [hsame.runId]; exact hfits.spec⟩
      exact ⟨run', by simp [hruns, hsame.runId], hlost⟩
    · have hfits := hc.attempts b attempt hb
      refine ⟨hfits.id, hfits.begun, hfits.lease, ?_, hfits.spec⟩
      obtain ⟨known, hknown, hlost'⟩ := hfits.run
      obtain ⟨known', hnew, ⟨hr, rfl⟩ | ⟨hr, rfl⟩⟩ := hold _ _ hknown
      · refine ⟨_, hnew, fun hl => ?_⟩
        rw [hr, hrun] at hknown
        cases hknown
        rcases hstate with h | h
        · exact h ▸ hlost' hl
        · rw [h]
          rfl
      · exact ⟨_, hnew, hlost'⟩
  · intro r known hknown
    simp only [hentries]
    simp only [hruns] at hknown
    split at hknown
    · next heq =>
      cases hknown
      subst heq
      rcases hstate with h | h
      · rw [h]
        exact hupdate
      · rw [h]
        exact ⟨hupdate.older, hupdate.count, by simp [Waiting], by simp, by simp⟩
    · next hne =>
      have hsame' : (entriesOf w.runs.attempts r).map (replaced a new) = entriesOf w.runs.attempts r := by
        conv_rhs => rw [← List.map_id (entriesOf w.runs.attempts r)]
        apply List.map_congr_left
        intro e he
        obtain ⟨he, her⟩ := mem_entriesOf.mp he
        have hne' : e.1 ≠ a := by
          intro hea
          rw [hea, hget] at he
          cases he
          exact hne her.symm
        simp [replaced, hne']
      rw [hsame']
      exact hc.agree r known hknown
  · intro r spec hspec
    obtain ⟨hid', hsome, hbatch⟩ := hc.specs r spec hspec
    obtain ⟨known, hknown⟩ := Option.isSome_iff_exists.mp hsome
    obtain ⟨known', hnew, -⟩ := hold r known hknown
    exact ⟨hid', by simp [hnew], hbatch⟩
  · intro name r hr
    obtain ⟨known, hknown, hcr⟩ := hc.jobs name r hr
    obtain ⟨known', hnew, ⟨-, rfl⟩ | ⟨-, rfl⟩⟩ := hold r known hknown
    · exact ⟨_, hnew, hcreated⟩
    · exact ⟨_, hnew, hcr⟩

theorem live_of_write {a : UUID} {old new : AttemptRecord} (h : AttemptWrite who a old new) :
    old.state.terminal = false := by
  rcases h.state with hmem | ⟨hleased, -⟩
  · rw [← Bool.not_eq_true]
    exact fun hterm => attempt_transitions_terminal hterm hmem
  · exact terminal_of_leased hleased

theorem Consistent.writeAttempt (hc : Consistent w) {a : UUID} {old new : AttemptRecord}
    (hget : w.runs.attempts.get? a = some old) (h : AttemptWrite who a old new) :
    Consistent { w with runs := { w.runs with attempts := w.runs.attempts.set a new } } := by
  obtain ⟨run, hrun, -⟩ := (hc.attempts a old hget).run
  have hpending : new.state ≠ .pending := by
    rcases h.state with hmem | ⟨hleased, hstate⟩
    · rintro hp
      rw [hp] at hmem
      revert hmem
      cases old.state <;> simp [ATTEMPT_TRANSITIONS, ATTEMPT_TERMINAL]
    · rw [hstate]
      exact (hc.attempts a old hget).begun
  refine hc.updateAttempt hget (live_of_write h) h.same hpending h.lease rfl run hrun ?_ rfl (.inl rfl)
    fun hl => absurd hl h.notLost
  intro r
  split
  · next heq =>
    rw [heq]
    exact hrun
  · rfl

theorem Consistent.expireOne (hc : Consistent w) {runs : RunRepository} {cutoff : Instant}
    (h : ExpiresOne cutoff w.runs runs) : Consistent { w with runs := runs } := by
  obtain ⟨a, old, new, ⟨hget, hleased, hstate, hsame, hattempts, hcases⟩⟩ := h.expiry
  have hlive := terminal_of_leased hleased
  obtain ⟨run, hrun, -⟩ := (hc.attempts a old hget).run
  obtain ⟨-, hwait, -⟩ := (hc.agree _ _ hrun).update new (entriesOf_nodup _ _)
    (mem_entriesOf.mpr ⟨hget, rfl⟩) hlive
  have hpending : new.state ≠ .pending := by
    rw [hstate]
    decide
  have hlease : new.state.leased = true → new.leaseExpiresAt.isSome := by
    simp [hstate, AttemptState.leased, ATTEMPT_LEASED]
  rcases hcases with ⟨heq, hno⟩ | ⟨known, hknown, hmem, heq⟩
  · have hterm : run.state.terminal = true := by
      rcases hno run hrun with h | h
      · exact h
      · revert h hwait
        cases run.state <;> simp [Waiting, RUN_TRANSITIONS, RunState.terminal, RUN_TERMINAL]
    refine hc.updateAttempt hget hlive hsame hpending hlease hattempts run hrun ?_ rfl
      (.inl rfl) fun _ => hterm
    intro r
    rw [heq]
    split
    · next h =>
      rw [h]
      exact hrun
    · rfl
  · rw [hrun] at hknown
    cases hknown
    refine hc.updateAttempt hget hlive hsame hpending hlease hattempts (run.moved .infraError) hrun ?_ rfl (.inr rfl) fun _ => rfl
    intro r
    rw [heq, hc.filed _ _ hrun, Dict.get?_set]

theorem Consistent.expire (hc : Consistent w) {runs : RunRepository} {cutoff : Instant}
    (h : Relation.ReflTransGen (ExpiresOne cutoff) w.runs runs) : Consistent { w with runs := runs } := by
  induction h with
  | refl => exact hc
  | tail _ hlast ih => exact ih.expireOne hlast

/-- Every change keeps the joint invariant. -/
theorem Change.consistent {label : Label} {w' : World} (h : Change who label w w') (hc : Consistent w) : Consistent w' := by
  cases h with
  | quiet hruns hattempts hspecs hbatches hjobs => exact hc.quiet hruns hattempts hspecs hbatches hjobs
  | create run hnew hspec hstate hruns hattempts => exact hc.create hnew hstate hruns hattempts
  | batch batch pairs hlabel hnew hids hpairs => exact hc.addBatch hnew hids hpairs
  | claim batchId hlabel hok => exact hc.claim hok
  | move runId run target hlabel hrun hmem hguard => exact hc.move hrun hmem hguard
  | begin runId a run claimed hlabel h => exact hc.begin h
  | attempt a old new hget h hlabel => exact hc.writeAttempt hget h
  | expire cutoff hlabel hsteps => exact hc.expire hsteps

end SmartTest.System
