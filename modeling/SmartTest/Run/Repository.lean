import Mathlib.Data.List.Sort
import SmartTest.Lib.Call
import SmartTest.Run.Domain

/-!
# The run repository

`services/api/repository.py`. Each operation holds the lock for its whole body, so it is
one function from the repository to its answer and the next repository. An operation that
raises has written nothing, except for `expire_attempt_leases`. Identifiers that the
source draws with `uuid4` and the clock are arguments. The artifact table is left out.
-/

open SmartTest.Lib

namespace SmartTest.Run

structure RunRepository where
  runs : Dict UUID RunRecord
  idempotency : Dict String (String × UUID)
  attempts : Dict UUID AttemptRecord
  events : Dict UUID EventRecord
  eventSequences : Dict (UUID × Nat) UUID
  nextCursor : Nat

namespace RunRepository

def empty : RunRepository := ⟨.empty, .empty, .empty, .empty, .empty, 1⟩

def getLocked (repo : RunRepository) (runId : UUID) : Except Exn RunRecord :=
  match repo.runs.get? runId with
  | some run => .ok run
  | none => .error ⟨.runNotFound, "run " ++ runId.text ++ " was not found"⟩

def getAttemptLocked (repo : RunRepository) (attemptId : UUID) : Except Exn AttemptRecord :=
  match repo.attempts.get? attemptId with
  | some attempt => .ok attempt
  | none => .error ⟨.attemptNotFound, "attempt " ++ attemptId.text ++ " was not found"⟩

def putRun (repo : RunRepository) (run : RunRecord) : RunRepository :=
  { repo with runs := repo.runs.set run.id run }

def putAttempt (repo : RunRepository) (attempt : AttemptRecord) : RunRepository :=
  { repo with attempts := repo.attempts.set attempt.id attempt }

/-! ## Runs -/

/-- `create_or_get`; `fingerprint` is the digest of the canonical request. -/
def createOrGet (fingerprint : Engine → Dict String Json → String) (repo : RunRepository) (newId : UUID)
    (now : Instant) (engine : Engine) (parameters : Dict String Json) (idempotencyKey : Option String) :
    Except Exn ((RunRecord × Bool) × RunRepository) := do
  let key := (idempotencyKey.map strip).filter (· ≠ "")
  match key.bind repo.idempotency.get? with
  | some (saved, runId) =>
    if saved ≠ fingerprint engine parameters then
      .error ⟨.idempotencyConflict, "idempotency key was used for another request"⟩
    let some run := repo.runs.get? runId | .error ⟨.keyError, runId.text⟩
    return ((run, true), repo)
  | none =>
    let run : RunRecord := ⟨newId, engine, parameters, .created, now, 0⟩
    let idempotency := match key with
      | some key => repo.idempotency.set key (fingerprint engine parameters, newId)
      | none => repo.idempotency
    return ((run, false), { repo.putRun run with idempotency := idempotency })

def list (repo : RunRepository) : List RunRecord :=
  repo.runs.values.insertionSort fun a b => a.createdAt ≤ b.createdAt

def get (repo : RunRepository) (runId : UUID) : Except Exn RunRecord := repo.getLocked runId

def transition (repo : RunRepository) (runId : UUID) (target : RunState) :
    Except Exn (RunRecord × RunRepository) := do
  let current ← repo.getLocked runId
  let updated ← current.withState target
  return (updated, { repo with runs := repo.runs.set runId updated })

def cancel (repo : RunRepository) (runId : UUID) : Except Exn (RunRecord × RunRepository) := do
  let current ← repo.getLocked runId
  if current.state.terminal then .error ⟨.terminalRunConflict, "run is already " ++ current.state.value⟩
  if current.state = .cancelling then return (current, repo)
  let updated ← current.withState .cancelling
  return (updated, { repo with runs := repo.runs.set runId updated })

/-! ## Attempts -/

/-- `create_attempt`; `newId` is drawn for a caller that names no id. -/
def createAttempt (repo : RunRepository) (runId : UUID) (attemptId : Option UUID) (newId : UUID)
    (now : Instant) : Except Exn (AttemptRecord × RunRepository) := do
  let _ ← repo.getLocked runId
  let resolvedId := attemptId.getD newId
  if (repo.attempts.get? resolvedId).isSome then
    .error ⟨.attemptConflict, "attempt " ++ resolvedId.text ++ " already exists"⟩
  let attempt := AttemptRecord.fresh resolvedId runId now
  return (attempt, { repo with attempts := repo.attempts.set resolvedId attempt })

def beginAttempt (repo : RunRepository) (runId attemptId : UUID) (runnerId : String) (leaseSeconds : Int)
    (now : Instant) : Except Exn ((RunRecord × AttemptRecord) × RunRepository) := do
  let run ← repo.getLocked runId
  if (repo.attempts.get? attemptId).isSome then
    .error ⟨.attemptConflict, "attempt " ++ attemptId.text ++ " already exists"⟩
  let running ← run.withState .running
  let claimed ← (AttemptRecord.fresh attemptId runId now).claimed runnerId leaseSeconds now
  return ((running, claimed), { repo with
    runs := repo.runs.set runId running
    attempts := repo.attempts.set attemptId claimed })

def getAttempt (repo : RunRepository) (attemptId : UUID) : Except Exn AttemptRecord :=
  repo.getAttemptLocked attemptId

def attemptsOf (repo : RunRepository) (runId : UUID) : List AttemptRecord :=
  repo.attempts.values.filter (·.runId = runId)

def listAttempts (repo : RunRepository) (runId : UUID) : Except Exn (List AttemptRecord) := do
  let _ ← repo.getLocked runId
  return (repo.attemptsOf runId).insertionSort fun a b =>
    a.createdAt < b.createdAt ∨ a.createdAt = b.createdAt ∧ a.id.text ≤ b.id.text

def transitionAttempt (repo : RunRepository) (attemptId : UUID) (target : AttemptState) :
    Except Exn (AttemptRecord × RunRepository) := do
  let current ← repo.getAttemptLocked attemptId
  let updated ← current.withState target
  return (updated, { repo with attempts := repo.attempts.set attemptId updated })

def claimAttempt (repo : RunRepository) (attemptId : UUID) (runnerId : String) (leaseSeconds : Int)
    (now : Instant) : Except Exn (AttemptRecord × RunRepository) := do
  let current ← repo.getAttemptLocked attemptId
  let updated ← current.claimed runnerId leaseSeconds now
  return (updated, { repo with attempts := repo.attempts.set attemptId updated })

def renewAttemptLease (repo : RunRepository) (attemptId : UUID) (runnerId : String) (leaseSeconds : Int)
    (now : Instant) : Except Exn (AttemptRecord × RunRepository) := do
  let current ← repo.getAttemptLocked attemptId
  let updated ← current.withHeartbeat runnerId leaseSeconds now
  return (updated, { repo with attempts := repo.attempts.set attemptId updated })

def completeAttempt (repo : RunRepository) (attemptId : UUID) (target : AttemptState)
    (result : ResultEnvelope) : Except Exn (AttemptRecord × RunRepository) := do
  let current ← repo.getAttemptLocked attemptId
  let updated ← current.withResult target result
  return (updated, { repo with attempts := repo.attempts.set attemptId updated })

/-- The test of the loop of `expire_attempt_leases`. -/
def leaseExpired (attempt : AttemptRecord) (cutoff : Instant) : Bool :=
  attempt.state.leased && attempt.leaseExpiresAt.any (· ≤ cutoff)

/-- The body of the loop for one expired attempt. -/
def expireAttempt (repo : RunRepository) (cutoff : Instant) (attemptId : UUID) (current : AttemptRecord) :
    Except Exn AttemptRecord × RunRepository :=
  match current.lost cutoff with
  | .error e => (.error e, repo)
  | .ok updated =>
    let repo := { repo with attempts := repo.attempts.set attemptId updated }
    match repo.runs.get? current.runId with
    | none => (.error ⟨.keyError, current.runId.text⟩, repo)
    | some run =>
      if run.state.terminal then (.ok updated, repo)
      else match run.withState .infraError with
        | .error e => (.error e, repo)
        | .ok next => (.ok updated, { repo with runs := repo.runs.set run.id next })

def expireLoop (cutoff : Instant) : List (UUID × AttemptRecord) → RunRepository →
    Except Exn (List AttemptRecord) × RunRepository
  | [], repo => (.ok [], repo)
  | (attemptId, current) :: rest, repo =>
    if !leaseExpired current cutoff then expireLoop cutoff rest repo
    else match expireAttempt repo cutoff attemptId current with
      | (.error e, repo) => (.error e, repo)
      | (.ok updated, repo) =>
        let (answer, repo) := expireLoop cutoff rest repo
        (answer.map (updated :: ·), repo)

def expireAttemptLeases (repo : RunRepository) (cutoff : Instant) :
    Except Exn (List AttemptRecord) × RunRepository :=
  expireLoop cutoff repo.attempts.entries repo

/-! ## Events -/

def eventMatches (record : EventRecord) (event : EventEnvelope) : Bool :=
  record.runId = event.runId && record.attemptId = event.attemptId && record.engine = event.engine &&
    record.seq = event.seq && record.occurredAt = event.occurredAt && record.type = event.type &&
    Json.pyEq (.obj record.payload.entries) (.obj event.payload.entries)

def appendEvent (repo : RunRepository) (event : EventEnvelope) :
    Except Exn (EventRecord × RunRepository) := do
  let attempt ← repo.getAttemptLocked event.attemptId
  if attempt.runId ≠ event.runId then .error ⟨.eventConflict, "event run_id does not match its attempt"⟩
  let run ← repo.getLocked event.runId
  if run.engine ≠ event.engine then .error ⟨.eventConflict, "event engine does not match its run"⟩
  match repo.events.get? event.eventId with
  | some existing =>
    if eventMatches existing event then return (existing, repo)
    .error ⟨.eventConflict, "event " ++ event.eventId.text ++ " has conflicting contents"⟩
  | none =>
    if (repo.eventSequences.get? (event.attemptId, event.seq)).isSome then
      .error ⟨.eventConflict, "attempt " ++ event.attemptId.text ++ " already has event sequence "
        ++ toString event.seq⟩
    let record : EventRecord := ⟨repo.nextCursor, event.eventId, event.runId, event.attemptId, event.engine,
      event.seq, event.occurredAt, event.type, event.payload⟩
    return (record, { repo with
      nextCursor := repo.nextCursor + 1
      events := repo.events.set event.eventId record
      eventSequences := repo.eventSequences.set (event.attemptId, event.seq) event.eventId })

def eventsAfter (repo : RunRepository) (runId : UUID) (after : Nat) : List EventRecord :=
  (repo.events.values.filter fun e => e.runId = runId && e.cursor > after).insertionSort
    fun a b => a.cursor ≤ b.cursor

/-- `list_events`; the cursor of a caller is never negative. -/
def listEvents (repo : RunRepository) (runId : UUID) (after : Nat) : Except Exn (List EventRecord) := do
  let _ ← repo.getLocked runId
  return repo.eventsAfter runId after

end RunRepository

/-- `append_event`, write by write: what raises leaves what was written before it. -/
def appendEventWrites (event : EventEnvelope) : Call Exn RunRepository EventRecord := do
  let attempt ← ofExcept ((← get).getAttemptLocked event.attemptId)
  if attempt.runId ≠ event.runId then throw ⟨.eventConflict, "event run_id does not match its attempt"⟩
  let run ← ofExcept ((← get).getLocked event.runId)
  if run.engine ≠ event.engine then throw ⟨.eventConflict, "event engine does not match its run"⟩
  match (← get).events.get? event.eventId with
  | some existing =>
    if RunRepository.eventMatches existing event then return existing
    throw ⟨.eventConflict, "event " ++ event.eventId.text ++ " has conflicting contents"⟩
  | none =>
    if ((← get).eventSequences.get? (event.attemptId, event.seq)).isSome then
      throw ⟨.eventConflict, "attempt " ++ event.attemptId.text ++ " already has event sequence "
        ++ toString event.seq⟩
    let record : EventRecord := ⟨(← get).nextCursor, event.eventId, event.runId, event.attemptId, event.engine,
      event.seq, event.occurredAt, event.type, event.payload⟩
    modify fun repo => { repo with nextCursor := repo.nextCursor + 1 }
    modify fun repo => { repo with events := repo.events.set event.eventId record }
    modify fun repo => { repo with
      eventSequences := repo.eventSequences.set (event.attemptId, event.seq) event.eventId }
    return record

end SmartTest.Run
