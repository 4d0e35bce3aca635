import SmartTest.Parameter.Repository

/-!
# The parameter repository in SQL

`replace_script_parameters`, `update_enum_set` and `delete_enum_set` of
`services/api/parameter_sql_repository.py` as transactions that run side by side. A row that
is read `WITH FOR UPDATE` is locked to the end of its transaction; every other read sees what
is committed, and foreign keys and unique columns are checked at the commit.
-/

open SmartTest.Lib SmartTest.Run

namespace SmartTest.Parameter

/-- The committed rows. The parameters of a script are in the order of their positions. -/
structure Tables where
  enums : Dict UUID ParameterEnumSetRecord
  parameters : Dict UUID (List ScriptParameterDefinition)

namespace Tables

variable (tables : Tables)

/-- The rows of `AutomationScriptParameterModel` with this `enum_set_id`. -/
def referring (enumSetId : UUID) : List ScriptParameterDefinition :=
  tables.parameters.values.flatten.filter (·.enumSetId = some enumSetId)

/-- The foreign key of the rows to insert. -/
def referencesExist (items : List ScriptParameterDefinition) : Bool :=
  items.all fun item => item.enumSetId.all fun enumSetId => (tables.enums.get? enumSetId).isSome

/-- The unique project and name of the row to write. -/
def keyFree (enumSetId : UUID) (record : ParameterEnumSetRecord) : Bool :=
  tables.enums.entries.all fun row => row.1 = enumSetId || row.2.key ≠ record.key

end Tables

/-- A row that is read `WITH FOR UPDATE`. -/
inductive Row where
  | script (scriptId : UUID)
  | enumSet (enumSetId : UUID)
  deriving DecidableEq

/-- Where a transaction stands: what it has read and what it does next. -/
inductive Transaction where
  /-- Before the script is locked. -/
  | replace (scriptId : UUID) (validated : List ScriptParameterDefinition)
  /-- In the loop of `_validate_parameter_enums`. The session still has the set it loaded last. -/
  | replaceChecking (scriptId projectId : UUID) (checked rest : List ScriptParameterDefinition)
      (loaded : Option (UUID × ParameterEnumSetRecord))
  /-- Before the set is locked. -/
  | update (enumSetId : UUID) (expectedVersion : Nat) (name description : String) (options : List ParameterEnumOption)
  /-- Before `_validate_existing_defaults`. -/
  | updateLocked (enumSetId : UUID) (current : ParameterEnumSetRecord) (name description : String)
      (options : List ParameterEnumOption)
  | updateChecked (enumSetId : UUID) (current : ParameterEnumSetRecord) (name description : String)
      (options : List ParameterEnumOption)
  /-- Before the set is locked. -/
  | delete (enumSetId : UUID)
  /-- Before a reference is looked for. -/
  | deleteLocked (enumSetId : UUID)
  | deleteChecked (enumSetId : UUID)

/-- The row a transaction has locked. -/
def Transaction.lock : Transaction → Option Row
  | .replaceChecking scriptId _ _ _ _ => some (.script scriptId)
  | .updateLocked enumSetId _ _ _ _ | .updateChecked enumSetId _ _ _ _ | .deleteLocked enumSetId
  | .deleteChecked enumSetId => some (.enumSet enumSetId)
  | .replace _ _ | .update _ _ _ _ _ | .delete _ => none

/-- What the next database operation of a transaction comes to. -/
inductive Next where
  | waits
  | goesOn (transaction : Transaction)
  | commits (tables : Tables)
  | rollsBack (e : Exn)

/-- One round of `_validate_parameter_enums` on the set that was loaded. -/
def checkItem (projectId : UUID) (item : ScriptParameterDefinition) (model : Option ParameterEnumSetRecord) :
    Except Exn ParameterEnumSetRecord :=
  match model with
  | none => .error (parameterConflict "parameter enum was not found")
  | some enumSet => do
    if enumSet.projectId ≠ projectId then
      .error (parameterConflict "parameter enum belongs to a different project")
    let found ← offered enumSet.options item.defaultValue
    if found = false then .error (parameterConflict "enum default_value must match an enum option")
    return enumSet

/-- `session.get`: the object of the session, or else the committed row. -/
def sessionGet (tables : Tables) (loaded : Option (UUID × ParameterEnumSetRecord)) (enumSetId : UUID) :
    Option ParameterEnumSetRecord :=
  match loaded with
  | some (id, record) => if id = enumSetId then some record else tables.enums.get? enumSetId
  | none => tables.enums.get? enumSetId

/-- The next operation; `project` is the project of a script that is there, `free` whether no other transaction has
a row locked. -/
def Transaction.next (project : UUID → Option UUID) (tables : Tables) (free : Row → Bool) : Transaction → Next
  | .replace scriptId validated =>
    if free (.script scriptId) = false then .waits
    else match project scriptId with
      | none => .rollsBack ⟨.other "ScriptNotFound", "automation script " ++ scriptId.text ++ " was not found"⟩
      | some projectId => .goesOn (.replaceChecking scriptId projectId [] validated none)
  | .replaceChecking scriptId projectId checked (item :: rest) loaded =>
    match item.enumSetId with
    | none => .goesOn (.replaceChecking scriptId projectId (checked ++ [item]) rest loaded)
    | some enumSetId =>
      match checkItem projectId item (sessionGet tables loaded enumSetId) with
      | .error e => .rollsBack e
      | .ok enumSet =>
        .goesOn (.replaceChecking scriptId projectId (checked ++ [item]) rest (some (enumSetId, enumSet)))
  | .replaceChecking scriptId _ checked [] _ =>
    if tables.referencesExist checked then .commits { tables with parameters := tables.parameters.set scriptId checked }
    else .rollsBack ⟨.other "IntegrityError", "foreign key constraint failed"⟩
  | .update enumSetId expectedVersion name description options =>
    if free (.enumSet enumSetId) = false then .waits
    else match tables.enums.get? enumSetId with
      | none => .rollsBack (enumNotFound enumSetId)
      | some current =>
        if current.stateVersion ≠ expectedVersion then
          .rollsBack ⟨.other "ParameterEnumVersionConflict", "state version mismatch: expected " ++
            toString expectedVersion ++ ", current " ++ toString current.stateVersion⟩
        else .goesOn (.updateLocked enumSetId current name description options)
  | .updateLocked enumSetId current name description options =>
    match ParameterRepository.validateDefaults enumSetId options (tables.referring enumSetId) with
    | .error e => .rollsBack e
    | .ok _ => .goesOn (.updateChecked enumSetId current name description options)
  | .updateChecked enumSetId current name description options =>
    let updated := current.update name description options
    if tables.keyFree enumSetId updated then .commits { tables with enums := tables.enums.set enumSetId updated }
    else .rollsBack nameTaken
  | .delete enumSetId =>
    if free (.enumSet enumSetId) = false then .waits
    else match tables.enums.get? enumSetId with
      | none => .rollsBack (enumNotFound enumSetId)
      | some _ => .goesOn (.deleteLocked enumSetId)
  | .deleteLocked enumSetId =>
    if (tables.referring enumSetId).isEmpty then .goesOn (.deleteChecked enumSetId)
    else .rollsBack (enumConflict "parameter enum is referenced by a script parameter")
  | .deleteChecked enumSetId =>
    if (tables.referring enumSetId).isEmpty then .commits { tables with enums := tables.enums.erase enumSetId }
    else .rollsBack (enumConflict "parameter enum is referenced by a script parameter")

/-- A call, up to the begin of its transaction. -/
inductive SqlCall where
  | replaceScriptParameters (scriptId : UUID) (definitions : List ScriptParameterDefinition)
  | updateEnumSet (enumSetId : UUID) (expectedVersion : Nat) (name description : String)
      (options : List ParameterEnumOption)
  | deleteEnumSet (enumSetId : UUID)

def SqlCall.begins : SqlCall → Except Exn Transaction
  | .replaceScriptParameters scriptId definitions => do
    let validated ← validateParameterDefinitions definitions
    return .replace scriptId validated
  | .updateEnumSet enumSetId expectedVersion name description options => do
    let (normalized, validated) ← validateEnumValues name options
    return .update enumSetId expectedVersion normalized description validated
  | .deleteEnumSet enumSetId => .ok (.delete enumSetId)

/-- The committed rows and the transactions that are under way. -/
structure Database where
  tables : Tables
  active : Dict Nat Transaction

namespace Database

/-- No other transaction than `t` has the row locked. -/
def free (db : Database) (t : Nat) (row : Row) : Bool :=
  db.active.entries.all fun entry => entry.1 = t || entry.2.lock ≠ some row

inductive Event where
  /-- A call begins its transaction, as number `t`. -/
  | call (t : Nat) (call : SqlCall)
  /-- Transaction `t` takes its next operation. -/
  | go (t : Nat)
  /-- Transaction `t` is lost: its process, its connection or a deadlock. -/
  | lose (t : Nat)

/-- One event. A transaction that waits for a lock does not go on. -/
def step (project : UUID → Option UUID) (db : Database) : Event → Option Database
  | .call t call =>
    if (db.active.get? t).isSome then none
    else match call.begins with
      | .error _ => some db
      | .ok transaction => some { db with active := db.active.set t transaction }
  | .go t =>
    match db.active.get? t with
    | none => none
    | some transaction =>
      match transaction.next project db.tables (db.free t) with
      | .waits => none
      | .goesOn transaction' => some { db with active := db.active.set t transaction' }
      | .commits tables => some ⟨tables, db.active.erase t⟩
      | .rollsBack _ => some { db with active := db.active.erase t }
  | .lose t => if (db.active.get? t).isNone then none else some { db with active := db.active.erase t }

end Database

end SmartTest.Parameter
