import SmartTest.Environment.Repository
import SmartTest.Lib.Pool
import SmartTest.Run.Repository
import SmartTest.Run.Task

/-!
# The secret broker

`services/secret_broker.py` with its grant store in memory. A call is a program: reading
the clock, the environment and the attempt are steps, and so is what a call does to the
grants under the lock. A locked section reads its attempt in a step of its own, during
which the other calls are not kept out: this has more runs than the source.
-/

open SmartTest.Lib SmartTest.Run SmartTest.Environment

namespace SmartTest.Broker

def REJECTION_MESSAGE : String := "secret capability was rejected"

def ACTIVE_SECRET_STATES : List AttemptState := [.preparing, .running]

def capabilityRejected : Exn := ⟨.other "CapabilityRejected", REJECTION_MESSAGE⟩

structure SecretGrantBinding where
  taskId : UUID
  tenantId : UUID
  projectId : UUID
  runId : UUID
  attemptId : UUID
  runnerId : String
  environmentId : UUID
  environmentRevision : Nat
  secretReferences : List SecretReference
  deriving DecidableEq

structure SecretGrantRecord where
  id : UUID
  tokenDigest : String
  binding : SecretGrantBinding
  issuedAt : Instant
  expiresAt : Instant
  consumedAt : Option Instant := none
  revokedAt : Option Instant := none

/-- Neither consumed nor revoked. -/
def SecretGrantRecord.live (record : SecretGrantRecord) : Bool :=
  record.consumedAt.isNone && record.revokedAt.isNone

/-! ## The grant store -/

abbrev Grants := Dict String SecretGrantRecord

/-- `_valid_attempt`, on what `get_attempt` answered. -/
def validAttempt (answer : Except Exn AttemptRecord) (binding : SecretGrantBinding) (now : Instant) :
    Except Exn AttemptRecord :=
  match answer with
  | .error _ => .error capabilityRejected
  | .ok attempt =>
    if attempt.runId ≠ binding.runId ∨ attempt.runnerId ≠ some binding.runnerId ∨
        attempt.state ∉ ACTIVE_SECRET_STATES ∨ attempt.leaseExpiresAt.all (· ≤ now) then
      .error capabilityRejected
    else .ok attempt

namespace Grants

variable (grants : Grants)

def issue (record : SecretGrantRecord) (now : Instant) (answer : Except Exn AttemptRecord) :
    Except Exn Grants := do
  let attempt ← validAttempt answer record.binding now
  let some leaseExpiresAt := attempt.leaseExpiresAt | .error capabilityRejected
  let expiresAt := min record.expiresAt leaseExpiresAt
  if expiresAt ≤ now ∨ (grants.get? record.tokenDigest).isSome then .error capabilityRejected
  return grants.set record.tokenDigest { record with expiresAt := expiresAt }

def consume (tokenDigest : String) (binding : SecretGrantBinding) (now : Instant)
    (answer : Except Exn AttemptRecord) : Except Exn Grants := do
  let _ ← validAttempt answer binding now
  let some record := grants.get? tokenDigest | .error capabilityRejected
  if record.binding ≠ binding ∨ record.expiresAt ≤ now ∨ record.consumedAt ≠ none ∨
      record.revokedAt ≠ none then
    .error capabilityRejected
  return grants.set tokenDigest { record with consumedAt := some now }

def revoke (tokenDigest : String) (now : Instant) : Grants :=
  match grants.get? tokenDigest with
  | some record =>
    if record.live then grants.set tokenDigest { record with revokedAt := some now } else grants
  | none => grants

/-- The grants with the number of those revoked, over the items as they were at the start. -/
def revokeAttempt (attemptId : UUID) (now : Instant) : Grants × Nat :=
  grants.entries.foldl (fun acc item =>
    if item.2.binding.attemptId = attemptId ∧ item.2.live then
      (acc.1.set item.1 { item.2 with revokedAt := some now }, acc.2 + 1)
    else acc) (grants, 0)

end Grants

/-! ## Steps -/

structure World where
  grants : Grants
  runs : RunRepository
  environments : EnvironmentRepository
  clock : Instant

/-- What a call came with to the grants: its token, task and runner, the time it read from the clock
and the attempt it read. -/
structure Occasion where
  token : String
  task : FullTaskEnvelope
  runnerId : String
  now : Instant
  answer : Except Exn AttemptRecord

inductive Label where
  | read
  | getAttempt (attemptId : UUID)
  | issue (occasion : Occasion) (record : SecretGrantRecord)
  | consume (occasion : Occasion) (binding : SecretGrantBinding)
  | revoke (token : String) (now : Instant)
  | revokeAttempt (attemptId : UUID) (now : Instant)

abbrev Proc (α : Type) := Prog Label World Exn α

namespace World

def reading {α : Type} (f : World → Except Exn α) (w : World) : Except Exn α × World := (f w, w)

def onGrants (f : World → Except Exn Grants) (w : World) : Except Exn Unit × World :=
  match f w with
  | .ok grants => (.ok (), { w with grants := grants })
  | .error e => (.error e, w)

end World

open World

variable (digest : String → String) (encryptor : SecretEncryptor) (ttlSeconds : Int)

def utcnow : Proc Instant := .op .read (reading fun w => .ok w.clock)

/-- `get_attempt`; a call goes on with the answer also when it is an exception. -/
def getAttempt (attemptId : UUID) : Proc (Except Exn AttemptRecord) :=
  .op (.getAttempt attemptId) (reading fun w => .ok (w.runs.getAttempt attemptId))

/-- `except Exception: raise CapabilityRejected() from None`. -/
def rejecting {α : Type} (p : Proc α) : Proc α := p.handle fun _ => throw capabilityRejected

def lift {α : Type} : Except Exn α → Proc α
  | .ok a => pure a
  | .error e => throw e

/-! ## Calls -/

/-- `_binding`. -/
def bindingOf (task : FullTaskEnvelope) (runnerId : String) (references : List SecretReference) :
    Except Exn SecretGrantBinding :=
  match task.environmentId, task.environmentRevision with
  | some environmentId, some environmentRevision =>
    .ok ⟨task.taskId, task.tenantId, task.projectId, task.runId, task.attemptId, runnerId, environmentId,
      environmentRevision, references⟩
  | _, _ => .error capabilityRejected

/-- `validate_secret_references` of the resolver for the task's environment. -/
def taskReferences (environmentId : UUID) (environmentRevision : Nat) (task : FullTaskEnvelope) :
    Proc (List SecretReference) :=
  .op .read (reading fun w =>
    validateSecretReferences task.projectId environmentId environmentRevision w.environments task.secretReferences)

/-- `issue`; the token and the grant's id are drawn by the call. -/
def issue (task : FullTaskEnvelope) (runnerId token : String) (grantId : UUID) : Proc Unit :=
  match task.environmentId, task.environmentRevision with
  | some environmentId, some environmentRevision =>
    if task.secretReferences = [] ∨ runnerId = "" then throw capabilityRejected
    else do
      let references ← rejecting (taskReferences environmentId environmentRevision task)
      let now ← utcnow
      let binding ← lift (bindingOf task runnerId references)
      let record : SecretGrantRecord :=
        { id := grantId, tokenDigest := digest token, binding := binding, issuedAt := now
          expiresAt := min (now.addSeconds ttlSeconds) task.deadline }
      let answer ← getAttempt binding.attemptId
      rejecting (.op (.issue ⟨token, task, runnerId, now, answer⟩ record)
        (onGrants fun w => w.grants.issue record now answer))
  | _, _ => throw capabilityRejected

def redeem (token : String) (task : FullTaskEnvelope) (runnerId : String) : Proc (List ResolvedSecretValue) := do
  let binding ← rejecting do
    let references ← lift (canonicalSecretReferences task.secretReferences)
    let binding ← lift (bindingOf task runnerId references)
    let now ← utcnow
    let answer ← getAttempt binding.attemptId
    Prog.op (.consume ⟨token, task, runnerId, now, answer⟩ binding)
      (onGrants fun w => w.grants.consume (digest token) binding now answer)
    return binding
  rejecting (.op .read (reading fun w => resolveSecretValues encryptor binding.projectId binding.environmentId
    binding.environmentRevision w.environments binding.secretReferences))

def revoke (token : String) : Proc Unit := rejecting do
  let now ← utcnow
  Prog.op (.revoke token now) fun w => (.ok (), { w with grants := w.grants.revoke (digest token) now })

def revokeAttempt (attemptId : UUID) : Proc Nat := rejecting do
  let now ← utcnow
  Prog.op (.revokeAttempt attemptId now) fun w =>
    let (grants, count) := w.grants.revokeAttempt attemptId now
    (.ok count, { w with grants := grants })

inductive Call where
  | issue (task : FullTaskEnvelope) (runnerId token : String) (grantId : UUID)
  | redeem (token : String) (task : FullTaskEnvelope) (runnerId : String)
  | revoke (token : String)
  | revokeAttempt (attemptId : UUID)

def Call.program : Call → Proc Unit
  | .issue task runnerId token grantId => Broker.issue digest ttlSeconds task runnerId token grantId
  | .redeem token task runnerId => Broker.redeem digest encryptor token task runnerId >>= fun _ => pure ()
  | .revoke token => Broker.revoke digest token
  | .revokeAttempt attemptId => Broker.revokeAttempt attemptId >>= fun _ => pure ()

/-! ## What happened -/

/-- What the history of a run notes, with the number of the call. -/
inductive Event where
  | read (call : Nat) (attemptId : UUID) (answer : Except Exn AttemptRecord)
  | issued (call : Nat) (occasion : Occasion)
  | redeemed (call : Nat) (occasion : Occasion)
  | revoked (token : String)
  | attemptRevoked (attemptId : UUID)

/-- A step is noted when it succeeds. -/
def noted (call : Nat) (label : Label) (before : World) : List Event :=
  match label with
  | .read => []
  | .getAttempt attemptId => [.read call attemptId (before.runs.getAttempt attemptId)]
  | .issue occasion record =>
    if (before.grants.issue record occasion.now occasion.answer).isOk then [.issued call occasion] else []
  | .consume occasion binding =>
    if (before.grants.consume (digest occasion.token) binding occasion.now occasion.answer).isOk then
      [.redeemed call occasion]
    else []
  | .revoke token _ => [.revoked token]
  | .revokeAttempt attemptId _ => [.attemptRevoked attemptId]

/-- What happens outside the broker: attempts, environments and the clock change in any way. -/
structure Outside where
  runs : RunRepository
  environments : EnvironmentRepository
  clock : Instant

def machine : Machine Call Label World (List Event) Outside Exn where
  program := Call.program digest encryptor ttlSeconds
  outside event w := { w with runs := event.runs, environments := event.environments, clock := event.clock }
  obs call _ seen log := log ++ noted digest call seen.label seen.before

/-- No grants yet; the rest of the world is as it may be. -/
def start (outside : Outside) : Pool Call Label World (List Event) Exn where
  store := ⟨.empty, outside.runs, outside.environments, outside.clock⟩
  history := []
  threads _ := none

end SmartTest.Broker
