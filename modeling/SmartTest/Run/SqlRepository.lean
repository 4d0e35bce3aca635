import SmartTest.Run.Repository

/-!
# The run repository on SQL

`create_or_get` of `services/api/sql_repository.py` on the table `test_runs`. The primary
key and the unique constraint of the table decide whether an insert goes through. A `NULL`
in `idempotency_key` is no value, so the constraint lets any number of them stand.
-/

open SmartTest.Lib

namespace SmartTest.Run

/-- A row of `test_runs`. -/
structure RunModel where
  id : UUID
  engine : Engine
  parameters : Dict String Json
  idempotencyKey : Option String
  fingerprint : String
  state : RunState
  createdAt : Instant
  stateVersion : Nat

/-- `_to_record`. -/
def RunModel.toRecord (model : RunModel) : RunRecord :=
  ⟨model.id, model.engine, model.parameters, model.state, model.createdAt, model.stateVersion⟩

structure SqlRunRepository where
  rows : List RunModel

namespace SqlRunRepository

def empty : SqlRunRepository := ⟨[]⟩

/-- Whether `row` breaks the primary key or `uq_test_runs_idempotency_key`. -/
def violates (repo : SqlRunRepository) (row : RunModel) : Bool :=
  repo.rows.any fun other =>
    other.id = row.id || (row.idempotencyKey.isSome && other.idempotencyKey = row.idempotencyKey)

def integrityError : Exn := ⟨.integrityError, "UNIQUE constraint failed"⟩

/-- The insert of `session.flush()`. -/
def insert (repo : SqlRunRepository) (row : RunModel) : Except Exn SqlRunRepository :=
  if repo.violates row then .error integrityError else .ok ⟨repo.rows ++ [row]⟩

/-- `_get_by_key`. -/
def getByKey (repo : SqlRunRepository) (key : String) : Option RunModel :=
  repo.rows.find? (·.idempotencyKey = some key)

/-- `_resolve_idempotency`. -/
def resolveIdempotency (model : RunModel) (fingerprint : String) : Except Exn (RunRecord × Bool) :=
  if model.fingerprint ≠ fingerprint then
    .error ⟨.idempotencyConflict, "idempotency key was used for another request"⟩
  else .ok (model.toRecord, true)

/-- `idempotency_key.strip() if idempotency_key else None`: a blank key becomes the empty text. -/
def storedKey (idempotencyKey : Option String) : Option String :=
  (idempotencyKey.filter (· ≠ "")).map strip

/-- The second transaction, after an `IntegrityError`: the row that won, if there is one. -/
def afterConflict (repo : SqlRunRepository) (fingerprint : String) (key : Option String) (conflict : Exn) :
    Except Exn (RunRecord × Bool) :=
  match key.filter (· ≠ "") with
  | none => .error conflict
  | some key =>
    match repo.getByKey key with
    | none => .error conflict
    | some existing => resolveIdempotency existing fingerprint

def createOrGet (fingerprint : Engine → Dict String Json → String) (repo : SqlRunRepository) (newId : UUID)
    (now : Instant) (engine : Engine) (parameters : Dict String Json) (idempotencyKey : Option String) :
    Except Exn (RunRecord × Bool) × SqlRunRepository :=
  let key := storedKey idempotencyKey
  let fp := fingerprint engine parameters
  match (key.filter (· ≠ "")).bind repo.getByKey with
  | some existing => (resolveIdempotency existing fp, repo)
  | none =>
    let model : RunModel := ⟨newId, engine, parameters, key, fp, .created, now, 0⟩
    match repo.insert model with
    | .ok repo => (.ok (model.toRecord, false), repo)
    | .error conflict => (repo.afterConflict fp key conflict, repo)

end SqlRunRepository

end SmartTest.Run
