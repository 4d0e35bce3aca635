import SmartTest.Run.RepositorySpec

/-!
# Any sequence of repository operations

Every public operation as one action, and what all of them keep: a run never leaves a
terminal state, and the event log only grows at its end.
-/

open SmartTest.Lib

namespace SmartTest.Run

inductive RepoAct where
  | createOrGet (newId : UUID) (now : Instant) (engine : Engine) (parameters : Dict String Json)
      (idempotencyKey : Option String)
  | transition (runId : UUID) (target : RunState)
  | cancel (runId : UUID)
  | createAttempt (runId : UUID) (attemptId : Option UUID) (newId : UUID) (now : Instant)
  | beginAttempt (runId attemptId : UUID) (runnerId : String) (leaseSeconds : Int) (now : Instant)
  | claimAttempt (attemptId : UUID) (runnerId : String) (leaseSeconds : Int) (now : Instant)
  | transitionAttempt (attemptId : UUID) (target : AttemptState)
  | renewAttemptLease (attemptId : UUID) (runnerId : String) (leaseSeconds : Int) (now : Instant)
  | completeAttempt (attemptId : UUID) (target : AttemptState) (result : ResultEnvelope)
  | expireAttemptLeases (cutoff : Instant)
  | appendEvent (event : EventEnvelope)

/-- What an operation leaves behind, whether it answers or raises. -/
def after {α : Type} (repo : RunRepository) : Except Exn (α × RunRepository) → RunRepository
  | .ok (_, repo') => repo'
  | .error _ => repo

theorem after_cases {α : Type} (repo : RunRepository) (x : Except Exn (α × RunRepository)) :
    after repo x = repo ∨ ∃ a, x = .ok (a, after repo x) := by
  cases x with
  | error e => exact .inl rfl
  | ok p => exact .inr ⟨p.1, rfl⟩

variable (fingerprint : Engine → Dict String Json → String)

namespace RunRepository

/-- `uuid4` draws an unused id, so an action with a used one does not happen. -/
def act (repo : RunRepository) : RepoAct → RunRepository
  | .createOrGet newId now engine parameters key =>
    if (repo.runs.get? newId).isSome then repo
    else after repo (createOrGet fingerprint repo newId now engine parameters key)
  | .transition runId target => after repo (repo.transition runId target)
  | .cancel runId => after repo (repo.cancel runId)
  | .createAttempt runId attemptId newId now => after repo (repo.createAttempt runId attemptId newId now)
  | .beginAttempt runId attemptId runnerId leaseSeconds now =>
    after repo (repo.beginAttempt runId attemptId runnerId leaseSeconds now)
  | .claimAttempt attemptId runnerId leaseSeconds now =>
    after repo (repo.claimAttempt attemptId runnerId leaseSeconds now)
  | .transitionAttempt attemptId target => after repo (repo.transitionAttempt attemptId target)
  | .renewAttemptLease attemptId runnerId leaseSeconds now =>
    after repo (repo.renewAttemptLease attemptId runnerId leaseSeconds now)
  | .completeAttempt attemptId target result => after repo (repo.completeAttempt attemptId target result)
  | .expireAttemptLeases cutoff => (repo.expireAttemptLeases cutoff).2
  | .appendEvent event => after repo (repo.appendEvent event)

variable {fingerprint}

theorem createOrGet_ok {repo repo' : RunRepository} {newId : UUID} {now : Instant} {engine : Engine}
    {parameters : Dict String Json} {key : Option String} {answer : RunRecord × Bool}
    (h : createOrGet fingerprint repo newId now engine parameters key = .ok (answer, repo')) :
    (repo' = repo ∧ answer.2 = true) ∨ ∃ idempotency, answer = (⟨newId, engine, parameters, .created, now, 0⟩, false) ∧
      repo' = { repo with
        runs := repo.runs.set newId ⟨newId, engine, parameters, .created, now, 0⟩
        idempotency := idempotency } := by
  simp only [createOrGet] at h
  split at h
  · split at h
    · simp [error_bind] at h
    · split at h
      · simp only [pure_eq_ok_iff, Prod.mk.injEq] at h
        exact .inl ⟨h.2.symm, h.1 ▸ rfl⟩
      · simp at h
  · simp only [pure_eq_ok_iff, Prod.mk.injEq] at h
    obtain ⟨rfl, rfl⟩ := h
    exact .inr ⟨_, rfl, rfl⟩

/-! ## How the run table changes -/

/-- The records are filed under their own ids. -/
def Filed (repo : RunRepository) : Prop := ∀ runId run, repo.runs.get? runId = some run → run.id = runId

/-- One write of the run table: a new run, or a step of an old one along `RUN_TRANSITIONS`. -/
inductive RunWrite (repo : RunRepository) : Dict UUID RunRecord → Prop
  | create (run : RunRecord) (hnew : repo.runs.get? run.id = none) (hstate : run.state = .created) :
      RunWrite repo (repo.runs.set run.id run)
  | move (runId : UUID) (run : RunRecord) (target : RunState) (hrun : repo.runs.get? runId = some run)
      (hmem : target ∈ RUN_TRANSITIONS run.state) : RunWrite repo (repo.runs.set runId (run.moved target))

theorem RunWrite.filed {repo repo' : RunRepository} (h : RunWrite repo repo'.runs) (hf : Filed repo) :
    Filed repo' := by
  intro r run hrun
  generalize repo'.runs = runs at h hrun
  cases h with
  | create new hnew hstate =>
    rw [Dict.get?_set] at hrun
    split at hrun
    · next heq =>
      cases hrun
      exact heq.symm
    · exact hf r run hrun
  | move runId old target hold hmem =>
    rw [Dict.get?_set] at hrun
    split at hrun
    · next heq =>
      cases hrun
      exact heq ▸ hf runId old hold
    · exact hf r run hrun

theorem not_terminal_of_mem {s t : RunState} (h : t ∈ RUN_TRANSITIONS s) : s.terminal = false := by
  rw [← Bool.not_eq_true]
  exact fun hterm => run_transitions_terminal hterm h

theorem RunWrite.keepsTerminal {repo repo' : RunRepository} (h : RunWrite repo repo'.runs) {runId : UUID}
    {run : RunRecord} (hrun : repo.runs.get? runId = some run) (hterm : run.state.terminal = true) :
    repo'.runs.get? runId = some run := by
  generalize repo'.runs = runs at h ⊢
  cases h with
  | create new hnew hstate =>
    rw [Dict.get?_set_ne _ _ ?_]
    · exact hrun
    · rintro rfl
      rw [hnew] at hrun
      cases hrun
  | move other old target hold hmem =>
    rw [Dict.get?_set_ne _ _ ?_]
    · exact hrun
    · rintro rfl
      rw [hold] at hrun
      cases hrun
      simp [not_terminal_of_mem hmem] at hterm

/-! ## How the event log changes -/

/-- One new record at the end of the log, under the next cursor. -/
def LogWrite (repo repo' : RunRepository) : Prop :=
  ∃ eventId record, repo.events.get? eventId = none ∧ record.cursor = repo.nextCursor ∧
    repo'.events = repo.events.set eventId record ∧ repo'.nextCursor = repo.nextCursor + 1

/-- One write of one operation, as far as runs and events are concerned. -/
structure Write (repo repo' : RunRepository) : Prop where
  runs : repo'.runs = repo.runs ∨ RunWrite repo repo'.runs
  log : repo'.events = repo.events ∧ repo'.nextCursor = repo.nextCursor ∨
    repo'.runs = repo.runs ∧ LogWrite repo repo'

theorem Write.filed {repo repo' : RunRepository} (h : Write repo repo') (hf : Filed repo) : Filed repo' := by
  rcases h.runs with heq | hrun
  · intro r run hget
    rw [heq] at hget
    exact hf r run hget
  · exact hrun.filed hf

theorem write_of_expiresOne {repo repo' : RunRepository} {cutoff : Instant} (hf : Filed repo)
    (h : ExpiresOne cutoff repo repo') : Write repo repo' := by
  obtain ⟨attemptId, attempt, -, hexp, rfl⟩ := h
  obtain ⟨updated, -, ⟨heq, -⟩ | ⟨run, hrun, hmem, heq⟩⟩ := expireAttempt_cases repo cutoff attemptId
    hexp
  · rw [heq]
    exact ⟨.inl rfl, .inl ⟨rfl, rfl⟩⟩
  · rw [heq]
    refine ⟨.inr ?_, .inl ⟨rfl, rfl⟩⟩
    rw [hf _ _ hrun]
    exact .move attempt.runId run .infraError hrun hmem

theorem write_of_after {α : Type} {repo : RunRepository} {x : Except Exn (α × RunRepository)}
    (h : ∀ a repo', x = .ok (a, repo') → Write repo repo') : Write repo (after repo x) := by
  rcases after_cases repo x with heq | ⟨a, heq⟩
  · rw [heq]
    exact ⟨.inl rfl, .inl ⟨rfl, rfl⟩⟩
  · exact h a _ heq

/-- Every action but `expire_attempt_leases` is one write. -/
theorem write_of_act (repo : RunRepository) (a : RepoAct) (ha : ∀ cutoff, a ≠ .expireAttemptLeases cutoff) :
    Write repo (repo.act fingerprint a) := by
  cases a with
  | createOrGet newId now engine parameters key =>
    simp only [act]
    split
    · exact ⟨.inl rfl, .inl ⟨rfl, rfl⟩⟩
    · next hnew =>
      apply write_of_after
      intro answer repo' h
      rcases createOrGet_ok h with ⟨rfl, -⟩ | ⟨idempotency, -, rfl⟩
      · exact ⟨.inl rfl, .inl ⟨rfl, rfl⟩⟩
      · exact ⟨.inr (.create ⟨newId, engine, parameters, .created, now, 0⟩ (by simpa using hnew) rfl),
          .inl ⟨rfl, rfl⟩⟩
  | transition runId target =>
    apply write_of_after
    intro answer repo' h
    obtain ⟨run, hrun, hmem, rfl, rfl⟩ := transition_ok h
    exact ⟨.inr (.move runId run target hrun hmem), .inl ⟨rfl, rfl⟩⟩
  | cancel runId =>
    apply write_of_after
    intro answer repo' h
    obtain ⟨run, hrun, -, ⟨-, rfl⟩ | ⟨hmem, rfl⟩⟩ := cancel_ok h
    · exact ⟨.inl rfl, .inl ⟨rfl, rfl⟩⟩
    · exact ⟨.inr (.move runId run .cancelling hrun hmem), .inl ⟨rfl, rfl⟩⟩
  | createAttempt runId attemptId newId now =>
    apply write_of_after
    intro answer repo' h
    obtain ⟨_, -, -, -, rfl⟩ := createAttempt_ok h
    exact ⟨.inl rfl, .inl ⟨rfl, rfl⟩⟩
  | claimAttempt attemptId runnerId leaseSeconds now =>
    apply write_of_after
    intro answer repo' h
    obtain ⟨_, -, -, rfl⟩ := claimAttempt_ok h
    exact ⟨.inl rfl, .inl ⟨rfl, rfl⟩⟩
  | beginAttempt runId attemptId runnerId leaseSeconds now =>
    apply write_of_after
    intro answer repo' h
    obtain ⟨run, claimed, hrun, hstate, -, -, -, -, -, -, rfl⟩ := beginAttempt_ok h
    exact ⟨.inr (.move runId run .running hrun (by simp [hstate, RUN_TRANSITIONS])), .inl ⟨rfl, rfl⟩⟩
  | transitionAttempt attemptId target =>
    apply write_of_after
    intro answer repo' h
    obtain ⟨_, -, -, -, rfl⟩ := transitionAttempt_ok h
    exact ⟨.inl rfl, .inl ⟨rfl, rfl⟩⟩
  | renewAttemptLease attemptId runnerId leaseSeconds now =>
    apply write_of_after
    intro answer repo' h
    obtain ⟨_, -, -, -, -, -, rfl⟩ := renewAttemptLease_ok h
    exact ⟨.inl rfl, .inl ⟨rfl, rfl⟩⟩
  | completeAttempt attemptId target result =>
    apply write_of_after
    intro answer repo' h
    obtain ⟨_, -, -, -, -, rfl⟩ := completeAttempt_ok h
    exact ⟨.inl rfl, .inl ⟨rfl, rfl⟩⟩
  | expireAttemptLeases cutoff => exact absurd rfl (ha cutoff)
  | appendEvent event =>
    apply write_of_after
    intro record repo' h
    rcases appendEvent_ok h with rfl | ⟨hnew, hcursor, -, rfl⟩
    · exact ⟨.inl rfl, .inl ⟨rfl, rfl⟩⟩
    · exact ⟨.inl rfl, .inr ⟨rfl, event.eventId, record, hnew, hcursor, rfl, rfl⟩⟩

/-- What every write keeps, every action keeps. -/
theorem act_induct {P : RunRepository → Prop} (hstep : ∀ a b, Filed a → Write a b → P a → P b)
    (repo : RunRepository) (a : RepoAct) (hf : Filed repo) (h : P repo) :
    Filed (repo.act fingerprint a) ∧ P (repo.act fingerprint a) := by
  have hone : ∀ a b, Write a b → Filed a ∧ P a → Filed b ∧ P b := by
    rintro a b hw ⟨hf, hp⟩
    exact ⟨hw.filed hf, hstep a b hf hw hp⟩
  by_cases ha : ∃ cutoff, a = .expireAttemptLeases cutoff
  · obtain ⟨cutoff, rfl⟩ := ha
    have hsteps := expireAttemptLeases_steps repo cutoff
    simp only [act]
    generalize (repo.expireAttemptLeases cutoff).2 = last at hsteps
    induction hsteps with
    | refl => exact ⟨hf, h⟩
    | tail _ hlast ih => exact hone _ _ (write_of_expiresOne ih.1 hlast) ih
  · refine hone _ _ (write_of_act repo a ?_) ⟨hf, h⟩
    rintro cutoff rfl
    exact ha ⟨cutoff, rfl⟩

end RunRepository

end SmartTest.Run
