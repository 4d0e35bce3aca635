import Mathlib.Logic.Relation
import SmartTest.Run.Repository

/-!
# What each repository operation does

One inversion lemma for each operation: when it answers, which record it found, what the
guards were, and what it wrote.
-/

open SmartTest.Lib

namespace SmartTest.Run

namespace AttemptRecord

theorem withState_ok_iff {attempt updated : AttemptRecord} {state : AttemptState} :
    attempt.withState state = .ok updated ↔ state ∈ ATTEMPT_TRANSITIONS attempt.state ∧
      updated = attempt.moved state := by
  simp only [withState, bind_eq_ok_iff, transitionAttempt, transitionBy_ok_iff, pure_eq_ok_iff]
  constructor
  · rintro ⟨_, ⟨hmem, rfl⟩, rfl⟩
    exact ⟨hmem, rfl⟩
  · rintro ⟨hmem, rfl⟩
    exact ⟨state, ⟨hmem, rfl⟩, rfl⟩

/-- The fields every later operation leaves alone. -/
structure SameIdentity (a b : AttemptRecord) : Prop where
  id : b.id = a.id
  runId : b.runId = a.runId
  createdAt : b.createdAt = a.createdAt

theorem moved_same (attempt : AttemptRecord) (state : AttemptState) :
    SameIdentity attempt (attempt.moved state) := ⟨rfl, rfl, rfl⟩

theorem withResult_ok {attempt updated : AttemptRecord} {state : AttemptState} {result : ResultEnvelope}
    (h : attempt.withResult state result = .ok updated) :
    state ∈ ATTEMPT_TRANSITIONS attempt.state ∧ updated.state = state ∧ SameIdentity attempt updated ∧
      result.attemptId = attempt.id ∧ result.runId = attempt.runId := by
  simp only [withResult, bind_eq_ok_iff, error_bind, ite_error_eq_ok_iff, transitionAttempt,
    transitionBy_ok_iff, pure_eq_ok_iff, ne_eq, not_or, not_not] at h
  obtain ⟨hid, _, ⟨hmem, rfl⟩, rfl⟩ := h
  exact ⟨hmem, rfl, ⟨rfl, rfl, rfl⟩, hid⟩

theorem withResult_of_mem {attempt : AttemptRecord} {state : AttemptState} {result : ResultEnvelope}
    (hid : result.attemptId = attempt.id) (hrun : result.runId = attempt.runId)
    (hmem : state ∈ ATTEMPT_TRANSITIONS attempt.state) :
    ∃ updated, attempt.withResult state result = .ok updated := by
  simp [withResult, hid, hrun, transitionAttempt, transitionBy, if_pos hmem, bind, Except.bind, pure,
    Except.pure]

theorem withResult_error {attempt : AttemptRecord} {state : AttemptState} {result : ResultEnvelope}
    (hid : result.attemptId = attempt.id) (hrun : result.runId = attempt.runId)
    (hnot : state ∉ ATTEMPT_TRANSITIONS attempt.state) :
    ∃ message, attempt.withResult state result = .error ⟨.invalidTransition, message⟩ := by
  simp [withResult, hid, hrun, transitionAttempt, transitionBy, if_neg hnot, bind, Except.bind]

theorem claimed_ok {attempt updated : AttemptRecord} {runnerId : String} {leaseSeconds : Int} {now : Instant}
    (h : attempt.claimed runnerId leaseSeconds now = .ok updated) :
    .claimed ∈ ATTEMPT_TRANSITIONS attempt.state ∧ updated.state = .claimed ∧ SameIdentity attempt updated ∧
      updated.leaseExpiresAt = some (now.addSeconds leaseSeconds) := by
  simp only [claimed, bind_eq_ok_iff, error_bind, ite_error_eq_ok_iff, withState_ok_iff,
    pure_eq_ok_iff] at h
  obtain ⟨-, -, _, ⟨hmem, rfl⟩, rfl⟩ := h
  exact ⟨hmem, rfl, ⟨rfl, rfl, rfl⟩, rfl⟩

theorem withHeartbeat_ok {attempt updated : AttemptRecord} {runnerId : String} {leaseSeconds : Int}
    {now : Instant} (h : attempt.withHeartbeat runnerId leaseSeconds now = .ok updated) :
    attempt.state.leased = true ∧ updated.state = attempt.state ∧ SameIdentity attempt updated ∧
      updated.leaseExpiresAt = some (now.addSeconds leaseSeconds) := by
  simp only [withHeartbeat, error_bind, ite_error_eq_ok_iff, pure_eq_ok_iff] at h
  obtain ⟨hleased, -, -, -, rfl⟩ := h
  exact ⟨by simpa using hleased, rfl, ⟨rfl, rfl, rfl⟩, rfl⟩

theorem lost_ok {attempt updated : AttemptRecord} {now : Instant} (h : attempt.lost now = .ok updated) :
    .lost ∈ ATTEMPT_TRANSITIONS attempt.state ∧ updated.state = .lost ∧ SameIdentity attempt updated := by
  simp only [lost, bind_eq_ok_iff, withState_ok_iff, pure_eq_ok_iff] at h
  obtain ⟨_, ⟨hmem, rfl⟩, rfl⟩ := h
  exact ⟨hmem, rfl, ⟨rfl, rfl, rfl⟩⟩

/-- An attempt with a lease can always be given up. -/
theorem lost_of_leased {attempt : AttemptRecord} (h : attempt.state.leased = true) (now : Instant) :
    ∃ updated, attempt.lost now = .ok updated := by
  have hmem : .lost ∈ ATTEMPT_TRANSITIONS attempt.state := by
    revert h
    cases attempt.state <;> simp [AttemptState.leased, ATTEMPT_LEASED, ATTEMPT_TRANSITIONS, ATTEMPT_TERMINAL]
  simp only [lost, withState, transitionAttempt, transitionBy, if_pos hmem]
  exact ⟨_, rfl⟩

end AttemptRecord

namespace RunRepository

variable {repo repo' : RunRepository}

theorem getLocked_ok_iff {runId : UUID} {run : RunRecord} :
    repo.getLocked runId = .ok run ↔ repo.runs.get? runId = some run := by
  unfold getLocked
  split <;> simp_all

theorem getAttemptLocked_ok_iff {attemptId : UUID} {attempt : AttemptRecord} :
    repo.getAttemptLocked attemptId = .ok attempt ↔ repo.attempts.get? attemptId = some attempt := by
  unfold getAttemptLocked
  split <;> simp_all

/-! ## Runs -/

theorem transition_ok {runId : UUID} {target : RunState} {updated : RunRecord}
    (h : repo.transition runId target = .ok (updated, repo')) :
    ∃ run, repo.runs.get? runId = some run ∧ target ∈ RUN_TRANSITIONS run.state ∧
      updated = run.moved target ∧
      repo' = { repo with runs := repo.runs.set runId updated } := by
  simp only [transition, bind_eq_ok_iff, getLocked_ok_iff, RunRecord.withState_ok_iff, pure_eq_ok_iff,
    Prod.mk.injEq] at h
  obtain ⟨run, hrun, _, ⟨hmem, rfl⟩, rfl, rfl⟩ := h
  exact ⟨run, hrun, hmem, rfl, rfl⟩

theorem transition_eq {runId : UUID} {target : RunState} {run : RunRecord}
    (hrun : repo.runs.get? runId = some run) (hmem : target ∈ RUN_TRANSITIONS run.state) :
    repo.transition runId target = .ok (run.moved target,
      { repo with runs := repo.runs.set runId (run.moved target) }) := by
  simp only [transition, getLocked_ok_iff.mpr hrun, RunRecord.withState_ok_iff.mpr ⟨hmem, rfl⟩, bind,
    Except.bind, pure, Except.pure]

theorem transition_error {runId : UUID} {target : RunState} {run : RunRecord}
    (hrun : repo.runs.get? runId = some run) (hmem : target ∉ RUN_TRANSITIONS run.state) :
    repo.transition runId target = .error ⟨.invalidTransition,
      "cannot transition from " ++ run.state.value ++ " to " ++ target.value⟩ := by
  simp only [transition, getLocked_ok_iff.mpr hrun, RunRecord.withState, transitionRun, transitionBy,
    if_neg hmem, bind, Except.bind]

theorem cancel_ok {runId : UUID} {updated : RunRecord} (h : repo.cancel runId = .ok (updated, repo')) :
    ∃ run, repo.runs.get? runId = some run ∧ run.state.terminal = false ∧
      (run.state = .cancelling ∧ repo' = repo ∨ .cancelling ∈ RUN_TRANSITIONS run.state ∧
        repo' = { repo with runs := repo.runs.set runId (run.moved .cancelling) }) := by
  simp only [cancel, bind_eq_ok_iff, getLocked_ok_iff, error_bind, ite_error_eq_ok_iff] at h
  obtain ⟨run, hrun, hterm, h⟩ := h
  refine ⟨run, hrun, by simpa using hterm, ?_⟩
  split at h
  · next hc =>
    simp only [pure_eq_ok_iff, Prod.mk.injEq] at h
    exact .inl ⟨hc, h.2.symm⟩
  · simp only [bind_eq_ok_iff, RunRecord.withState_ok_iff, pure_eq_ok_iff, Prod.mk.injEq] at h
    obtain ⟨_, ⟨hmem, rfl⟩, -, rfl⟩ := h
    exact .inr ⟨hmem, rfl⟩

/-! ## Attempts -/

theorem beginAttempt_ok {runId attemptId : UUID} {runnerId : String} {leaseSeconds : Int} {now : Instant}
    {answer : RunRecord × AttemptRecord}
    (h : repo.beginAttempt runId attemptId runnerId leaseSeconds now = .ok (answer, repo')) :
    ∃ run claimed, repo.runs.get? runId = some run ∧ run.state = .dispatching ∧
      repo.attempts.get? attemptId = none ∧ claimed.id = attemptId ∧ claimed.runId = runId ∧
      claimed.state = .claimed ∧ claimed.leaseExpiresAt = some (now.addSeconds leaseSeconds) ∧
      answer.2 = claimed ∧
      repo' = { repo with
        runs := repo.runs.set runId (run.moved .running)
        attempts := repo.attempts.set attemptId claimed } := by
  simp only [beginAttempt, bind_eq_ok_iff, getLocked_ok_iff, error_bind, ite_error_eq_ok_iff,
    RunRecord.withState_ok_iff, pure_eq_ok_iff, Prod.mk.injEq] at h
  obtain ⟨run, hrun, hnew, _, ⟨hmem, rfl⟩, claimed, hclaimed, rfl, rfl⟩ := h
  obtain ⟨-, hstate, hsame, hlease⟩ := AttemptRecord.claimed_ok hclaimed
  have hdisp : run.state = .dispatching := by
    revert hmem
    cases run.state <;> simp [RUN_TRANSITIONS]
  exact ⟨run, claimed, hrun, hdisp, by simpa using hnew, hsame.id, hsame.runId, hstate, hlease, rfl, rfl⟩

theorem createAttempt_ok {runId newId : UUID} {attemptId : Option UUID} {now : Instant} {attempt : AttemptRecord}
    (h : repo.createAttempt runId attemptId newId now = .ok (attempt, repo')) :
    ∃ run, repo.runs.get? runId = some run ∧ repo.attempts.get? (attemptId.getD newId) = none ∧
      attempt = AttemptRecord.fresh (attemptId.getD newId) runId now ∧
      repo' = { repo with attempts := repo.attempts.set (attemptId.getD newId) attempt } := by
  simp only [createAttempt, bind_eq_ok_iff, getLocked_ok_iff, error_bind, ite_error_eq_ok_iff, pure_eq_ok_iff,
    Prod.mk.injEq] at h
  obtain ⟨run, hrun, hnew, rfl, rfl⟩ := h
  exact ⟨run, hrun, by simpa using hnew, rfl, rfl⟩

theorem claimAttempt_ok {attemptId : UUID} {runnerId : String} {leaseSeconds : Int} {now : Instant}
    {updated : AttemptRecord}
    (h : repo.claimAttempt attemptId runnerId leaseSeconds now = .ok (updated, repo')) :
    ∃ attempt, repo.attempts.get? attemptId = some attempt ∧
      attempt.claimed runnerId leaseSeconds now = .ok updated ∧
      repo' = { repo with attempts := repo.attempts.set attemptId updated } := by
  simp only [claimAttempt, bind_eq_ok_iff, getAttemptLocked_ok_iff, pure_eq_ok_iff, Prod.mk.injEq] at h
  obtain ⟨attempt, hget, _, hclaimed, rfl, rfl⟩ := h
  exact ⟨attempt, hget, hclaimed, rfl⟩

theorem listAttempts_of_run {runId : UUID} {run : RunRecord} (hrun : repo.runs.get? runId = some run) :
    ∃ attempts, repo.listAttempts runId = .ok attempts ∧
      attempts.length = (repo.attemptsOf runId).length := by
  simp [listAttempts, getLocked_ok_iff.mpr hrun, bind, Except.bind, pure, Except.pure,
    List.length_insertionSort]

theorem transitionAttempt_ok {attemptId : UUID} {target : AttemptState} {updated : AttemptRecord}
    (h : repo.transitionAttempt attemptId target = .ok (updated, repo')) :
    ∃ attempt, repo.attempts.get? attemptId = some attempt ∧ target ∈ ATTEMPT_TRANSITIONS attempt.state ∧
      updated = attempt.moved target ∧
      repo' = { repo with attempts := repo.attempts.set attemptId updated } := by
  simp only [transitionAttempt, bind_eq_ok_iff, getAttemptLocked_ok_iff, AttemptRecord.withState_ok_iff,
    pure_eq_ok_iff, Prod.mk.injEq] at h
  obtain ⟨attempt, hget, _, ⟨hmem, rfl⟩, rfl, rfl⟩ := h
  exact ⟨attempt, hget, hmem, rfl, rfl⟩

theorem transitionAttempt_eq {attemptId : UUID} {target : AttemptState} {attempt : AttemptRecord}
    (hget : repo.attempts.get? attemptId = some attempt) (hmem : target ∈ ATTEMPT_TRANSITIONS attempt.state) :
    repo.transitionAttempt attemptId target =
      .ok (attempt.moved target,
        { repo with attempts := repo.attempts.set attemptId (attempt.moved target) }) := by
  simp only [transitionAttempt, getAttemptLocked_ok_iff.mpr hget,
    AttemptRecord.withState_ok_iff.mpr ⟨hmem, rfl⟩, bind, Except.bind, pure, Except.pure]

theorem transitionAttempt_error {attemptId : UUID} {target : AttemptState} {attempt : AttemptRecord}
    (hget : repo.attempts.get? attemptId = some attempt) (hnot : target ∉ ATTEMPT_TRANSITIONS attempt.state) :
    ∃ message, repo.transitionAttempt attemptId target = .error ⟨.invalidTransition, message⟩ := by
  simp [transitionAttempt, getAttemptLocked_ok_iff.mpr hget, AttemptRecord.withState, Run.transitionAttempt,
    transitionBy, if_neg hnot, bind, Except.bind]

theorem renewAttemptLease_ok {attemptId : UUID} {runnerId : String} {leaseSeconds : Int} {now : Instant}
    {updated : AttemptRecord}
    (h : repo.renewAttemptLease attemptId runnerId leaseSeconds now = .ok (updated, repo')) :
    ∃ attempt, repo.attempts.get? attemptId = some attempt ∧ attempt.state.leased = true ∧
      updated.state = attempt.state ∧ AttemptRecord.SameIdentity attempt updated ∧
      updated.leaseExpiresAt = some (now.addSeconds leaseSeconds) ∧
      repo' = { repo with attempts := repo.attempts.set attemptId updated } := by
  simp only [renewAttemptLease, bind_eq_ok_iff, getAttemptLocked_ok_iff, pure_eq_ok_iff, Prod.mk.injEq] at h
  obtain ⟨attempt, hget, _, hbeat, rfl, rfl⟩ := h
  obtain ⟨hleased, hstate, hsame, hlease⟩ := AttemptRecord.withHeartbeat_ok hbeat
  exact ⟨attempt, hget, hleased, hstate, hsame, hlease, rfl⟩

theorem completeAttempt_ok {attemptId : UUID} {target : AttemptState} {result : ResultEnvelope}
    {updated : AttemptRecord} (h : repo.completeAttempt attemptId target result = .ok (updated, repo')) :
    ∃ attempt, repo.attempts.get? attemptId = some attempt ∧ target ∈ ATTEMPT_TRANSITIONS attempt.state ∧
      updated.state = target ∧ AttemptRecord.SameIdentity attempt updated ∧
      repo' = { repo with attempts := repo.attempts.set attemptId updated } := by
  simp only [completeAttempt, bind_eq_ok_iff, getAttemptLocked_ok_iff, pure_eq_ok_iff, Prod.mk.injEq] at h
  obtain ⟨attempt, hget, _, hresult, rfl, rfl⟩ := h
  obtain ⟨hmem, hstate, hsame, -⟩ := AttemptRecord.withResult_ok hresult
  exact ⟨attempt, hget, hmem, hstate, hsame, rfl⟩

theorem completeAttempt_of_mem {attemptId : UUID} {target : AttemptState} {result : ResultEnvelope}
    {attempt : AttemptRecord} (hget : repo.attempts.get? attemptId = some attempt)
    (hid : result.attemptId = attempt.id) (hrun : result.runId = attempt.runId)
    (hmem : target ∈ ATTEMPT_TRANSITIONS attempt.state) :
    ∃ updated, updated.state = target ∧ AttemptRecord.SameIdentity attempt updated ∧
      repo.completeAttempt attemptId target result =
        .ok (updated, { repo with attempts := repo.attempts.set attemptId updated }) := by
  obtain ⟨updated, hresult⟩ := AttemptRecord.withResult_of_mem hid hrun hmem
  obtain ⟨-, hstate, hsame, -⟩ := AttemptRecord.withResult_ok hresult
  refine ⟨updated, hstate, hsame, ?_⟩
  simp [completeAttempt, getAttemptLocked_ok_iff.mpr hget, hresult, bind, Except.bind, pure, Except.pure]

theorem completeAttempt_error {attemptId : UUID} {target : AttemptState} {result : ResultEnvelope}
    {attempt : AttemptRecord} (hget : repo.attempts.get? attemptId = some attempt)
    (hid : result.attemptId = attempt.id) (hrun : result.runId = attempt.runId)
    (hnot : target ∉ ATTEMPT_TRANSITIONS attempt.state) :
    ∃ message, repo.completeAttempt attemptId target result = .error ⟨.invalidTransition, message⟩ := by
  obtain ⟨message, hresult⟩ := AttemptRecord.withResult_error hid hrun hnot
  exact ⟨message, by simp [completeAttempt, getAttemptLocked_ok_iff.mpr hget, hresult, bind, Except.bind]⟩

/-! ## Lease expiry -/

/-- The loop of `expire_attempt_leases` gives up one attempt. -/
def ExpiresOne (cutoff : Instant) (repo repo' : RunRepository) : Prop :=
  ∃ attemptId attempt, repo.attempts.get? attemptId = some attempt ∧ leaseExpired attempt cutoff = true ∧
    repo' = (expireAttempt repo cutoff attemptId attempt).2

theorem expireAttempt_attempts_ne (repo : RunRepository) (cutoff : Instant) {attemptId other : UUID} (current : AttemptRecord)
    (h : other ≠ attemptId) :
    (expireAttempt repo cutoff attemptId current).2.attempts.get? other = repo.attempts.get? other := by
  unfold expireAttempt
  split
  · rfl
  · dsimp only
    split
    · simp [h]
    · split
      · simp [h]
      · split <;> simp [h]

theorem expireLoop_steps (cutoff : Instant) (l : List (UUID × AttemptRecord)) (hl : (l.map Prod.fst).Nodup)
    (hget : ∀ e ∈ l, repo.attempts.get? e.1 = some e.2) :
    Relation.ReflTransGen (ExpiresOne cutoff) repo (expireLoop cutoff l repo).2 := by
  induction l generalizing repo with
  | nil => exact .refl
  | cons e rest ih =>
    obtain ⟨attemptId, current⟩ := e
    obtain ⟨hnot, hrest⟩ := List.nodup_cons.mp hl
    obtain ⟨hcur, htail⟩ := List.forall_mem_cons.mp hget
    simp only [expireLoop]
    split
    · exact ih hrest htail
    · next hexp =>
      -- The records still to visit are those of the snapshot: the loop has written other keys only.
      have hstep : ExpiresOne cutoff repo (expireAttempt repo cutoff attemptId current).2 :=
        ⟨attemptId, current, hcur, by simpa using hexp, rfl⟩
      split
      · next e repo' heq =>
        rw [heq] at hstep
        exact .single hstep
      · next updated repo' heq =>
        have htail' : ∀ e ∈ rest, repo'.attempts.get? e.1 = some e.2 := by
          intro e he
          have hne : e.1 ≠ attemptId := by
            rintro rfl
            exact hnot (List.mem_map.mpr ⟨e, he, rfl⟩)
          have := expireAttempt_attempts_ne repo cutoff current hne
          rw [heq] at this
          rw [this]
          exact htail e he
        rw [heq] at hstep
        exact .head hstep (ih hrest htail')

theorem expireAttemptLeases_steps (repo : RunRepository) (cutoff : Instant) :
    Relation.ReflTransGen (ExpiresOne cutoff) repo (repo.expireAttemptLeases cutoff).2 :=
  expireLoop_steps cutoff repo.attempts.entries repo.attempts.nodup
    fun _ he => (Dict.get?_eq_some_iff _ _ _).mpr he

/-- What giving up one attempt writes. -/
theorem expireAttempt_cases (repo : RunRepository) (cutoff : Instant) (attemptId : UUID)
    {current : AttemptRecord} (hexp : leaseExpired current cutoff = true) :
    ∃ updated, current.lost cutoff = .ok updated ∧
      ((expireAttempt repo cutoff attemptId current).2 =
          { repo with attempts := repo.attempts.set attemptId updated } ∧
        (∀ run, repo.runs.get? current.runId = some run →
          run.state.terminal = true ∨ .infraError ∉ RUN_TRANSITIONS run.state) ∨
      ∃ run, repo.runs.get? current.runId = some run ∧ .infraError ∈ RUN_TRANSITIONS run.state ∧
        (expireAttempt repo cutoff attemptId current).2 = { repo with
          attempts := repo.attempts.set attemptId updated
          runs := repo.runs.set run.id (run.moved .infraError) }) := by
  have hleased : current.state.leased = true := by
    simp only [leaseExpired, Bool.and_eq_true] at hexp
    exact hexp.1
  obtain ⟨updated, hlost⟩ := AttemptRecord.lost_of_leased hleased cutoff
  refine ⟨updated, hlost, ?_⟩
  simp only [expireAttempt, hlost]
  cases hrun : repo.runs.get? current.runId with
  | none => exact .inl ⟨rfl, by simp⟩
  | some run =>
    by_cases hterm : run.state.terminal = true
    · refine .inl ⟨by simp [hterm], ?_⟩
      rintro _ ⟨⟩
      exact .inl hterm
    · by_cases hmem : .infraError ∈ RUN_TRANSITIONS run.state
      · refine .inr ⟨run, rfl, hmem, ?_⟩
        simp [hterm, RunRecord.withState_ok_iff.mpr ⟨hmem, rfl⟩]
      · refine .inl ⟨?_, ?_⟩
        · simp [hterm, RunRecord.withState, transitionRun, transitionBy, hmem, bind, Except.bind]
        · rintro _ ⟨⟩
          exact .inr hmem

/-- What one turn of the loop does: an attempt with a lease is lost, and its run ends unless it is over. -/
structure Expiry (repo repo' : RunRepository) (attemptId : UUID) (old new : AttemptRecord) : Prop where
  found : repo.attempts.get? attemptId = some old
  leased : old.state.leased = true
  lost : new.state = .lost
  same : AttemptRecord.SameIdentity old new
  attempts : repo'.attempts = repo.attempts.set attemptId new
  runs : repo'.runs = repo.runs ∧ (∀ run, repo.runs.get? old.runId = some run →
      run.state.terminal = true ∨ .infraError ∉ RUN_TRANSITIONS run.state) ∨
    ∃ run, repo.runs.get? old.runId = some run ∧ .infraError ∈ RUN_TRANSITIONS run.state ∧
      repo'.runs = repo.runs.set run.id (run.moved .infraError)

theorem ExpiresOne.expiry {cutoff : Instant} (h : ExpiresOne cutoff repo repo') :
    ∃ attemptId old new, Expiry repo repo' attemptId old new := by
  obtain ⟨attemptId, old, hget, hexp, rfl⟩ := h
  have hleased : old.state.leased = true := by
    simp only [leaseExpired, Bool.and_eq_true] at hexp
    exact hexp.1
  obtain ⟨new, hlost, hcases⟩ := expireAttempt_cases repo cutoff attemptId hexp
  obtain ⟨-, hstate, hsame⟩ := AttemptRecord.lost_ok hlost
  refine ⟨attemptId, old, new, hget, hleased, hstate, hsame, ?_, ?_⟩
  · rcases hcases with ⟨heq, -⟩ | ⟨run, -, -, heq⟩ <;> rw [heq]
  · rcases hcases with ⟨heq, hno⟩ | ⟨run, hrun, hmem, heq⟩
    · exact .inl ⟨by rw [heq], hno⟩
    · exact .inr ⟨run, hrun, hmem, by rw [heq]⟩

/-! ## Events -/

theorem appendEvent_ok {event : EventEnvelope} {record : EventRecord}
    (h : repo.appendEvent event = .ok (record, repo')) :
    repo' = repo ∨ repo.events.get? event.eventId = none ∧ record.cursor = repo.nextCursor ∧
      record.runId = event.runId ∧ repo' = { repo with
        nextCursor := repo.nextCursor + 1
        events := repo.events.set event.eventId record
        eventSequences := repo.eventSequences.set (event.attemptId, event.seq) event.eventId } := by
  simp only [appendEvent, bind_eq_ok_iff, error_bind, ite_error_eq_ok_iff] at h
  obtain ⟨attempt, -, -, run, -, -, h⟩ := h
  split at h
  · split at h
    · simp only [pure_eq_ok_iff, Prod.mk.injEq] at h
      exact .inl h.2.symm
    · simp at h
  · next hnew =>
    simp only [ite_error_eq_ok_iff, pure_eq_ok_iff, Prod.mk.injEq] at h
    obtain ⟨-, rfl, rfl⟩ := h
    exact .inr ⟨hnew, rfl, rfl, rfl⟩

end RunRepository

/-- The writes come after the last check, so a call that raises has written nothing. -/
theorem appendEventWrites_on (event : EventEnvelope) (repo : RunRepository) :
    (appendEventWrites event).on repo = match repo.appendEvent event with
      | .ok (record, after) => (.ok record, after)
      | .error e => (.error e, repo) := by
  unfold appendEventWrites RunRepository.appendEvent
  rw [Call.on_bind, Call.on_get]
  dsimp only
  rw [Call.on_bind, Call.on_ofExcept]
  cases repo.getAttemptLocked event.attemptId with
  | error e => rfl
  | ok attempt =>
    rw [ok_bind]
    dsimp only
    split
    · rfl
    · rw [Call.on_bind, Call.on_get]
      dsimp only
      rw [Call.on_bind, Call.on_ofExcept]
      cases repo.getLocked event.runId with
      | error e => rfl
      | ok run =>
        rw [ok_bind]
        dsimp only
        split
        · rfl
        · rw [Call.on_bind, Call.on_get]
          dsimp only
          cases repo.events.get? event.eventId with
          | some existing =>
            dsimp only
            split <;> rfl
          | none =>
            dsimp only
            rw [Call.on_bind, Call.on_get]
            dsimp only
            split <;> rfl


end SmartTest.Run
