import SmartTest.Connector.Credentials

/-!
# The names of connectors in the two repositories

`ConnectorRepository` looks for a name under `str.casefold`, `SqlConnectorRepository` under
`lower`. Given the same calls, the two answer alike exactly as long as every name that is
looked for is taken under both or under neither.
-/

open SmartTest.Lib SmartTest.Run SmartTest.Environment

namespace SmartTest.Connector

variable {encryptor : SecretEncryptor} {casefold lower fold : String → String}

/-! ## Taken names -/

/-- Another connector than `id` has the name, up to `fold`. -/
def Taken (fold : String → String) (records : Dict UUID ConnectorRecord) (id : UUID) (name : String) : Prop :=
  ∃ other record, records.get? other = some record ∧ other ≠ id ∧ fold record.name = fold name

/-- No two rows have one name, up to `fold`. -/
def UniqueNames (fold : String → String) (records : Dict UUID ConnectorRecord) : Prop :=
  ∀ a b record record', records.get? a = some record → records.get? b = some record' →
    fold record.name = fold record'.name → a = b

theorem UniqueNames.empty (fold : String → String) : UniqueNames fold .empty := by
  intro a b record record' ha
  cases ha

theorem UniqueNames.set {records : Dict UUID ConnectorRecord} (h : UniqueNames fold records) {id : UUID}
    {record : ConnectorRecord} (hfree : ¬ Taken fold records id record.name) :
    UniqueNames fold (records.set id record) := by
  intro a b found found' ha hb hname
  rw [Dict.get?_set] at ha hb
  split at ha
  · next heq =>
    obtain rfl := Option.some.inj ha
    split at hb
    · next heq' => exact heq.trans heq'.symm
    · next hne => exact absurd ⟨b, found', hb, hne, hname.symm⟩ hfree
  · next hne =>
    split at hb
    · next heq =>
      obtain rfl := Option.some.inj hb
      exact absurd ⟨a, found, ha, hne, hname⟩ hfree
    · exact h a b found found' ha hb hname

theorem UniqueNames.erase {records : Dict UUID ConnectorRecord} (h : UniqueNames fold records) (id : UUID) :
    UniqueNames fold (records.erase id) := by
  intro a b found found' ha hb
  rw [Dict.get?_erase] at ha hb
  split at ha
  · cases ha
  · split at hb
    · cases hb
    · exact h a b found found' ha hb

/-- A connector that keeps its name takes nobody's. -/
theorem UniqueNames.keeps {records : Dict UUID ConnectorRecord} (h : UniqueNames fold records) {id : UUID}
    {current : ConnectorRecord} (hcurrent : records.get? id = some current) :
    ¬ Taken fold records id current.name := by
  rintro ⟨other, record, hrecord, hne, hname⟩
  exact hne (h other id record current hrecord hcurrent hname)

/-- Looking for a name finds a row of that name, if there is one. -/
def Finds (fold : String → String) (records : Dict UUID ConnectorRecord) (owner : String → Option UUID) : Prop :=
  ∀ name, (∀ id, owner name = some id → ∃ record, records.get? id = some record ∧ fold record.name = fold name) ∧
    (owner name = none → ∀ id record, records.get? id = some record → fold record.name ≠ fold name)

theorem Named.finds {repo : ConnectorRepository} (h : Named casefold repo) :
    Finds casefold repo.records (repo.nameOwner casefold) := by
  refine fun name => ⟨fun id hid => (h.indexed _ id).mp hid, ?_⟩
  intro hnone id record hrecord hname
  have hsome := (h.indexed (casefold name) id).mpr ⟨record, hrecord, hname⟩
  cases hnone.symm.trans hsome

theorem SqlConnectorRepository.finds (lower : String → String) (repo : SqlConnectorRepository) :
    Finds lower repo.rows (repo.nameOwner lower) := by
  intro name
  unfold SqlConnectorRepository.nameOwner
  constructor
  · intro id hid
    obtain ⟨row, hrow, rfl⟩ := Option.map_eq_some_iff.mp hid
    refine ⟨row.2, (Dict.get?_eq_some_iff _ _ _).mpr (List.mem_of_find?_eq_some hrow), ?_⟩
    simpa using List.find?_some hrow
  · intro hnone id record hrecord
    have hrow := List.find?_eq_none.mp (Option.map_eq_none_iff.mp hnone) (id, record)
      ((Dict.get?_eq_some_iff _ _ _).mp hrecord)
    simpa using hrow

/-- The check of an update: somebody else owns the name. -/
theorem Finds.any_ne {records : Dict UUID ConnectorRecord} {owner : String → Option UUID}
    (h : Finds fold records owner) (hunique : UniqueNames fold records) (id : UUID) (name : String) :
    (owner name).any (· ≠ id) = true ↔ Taken fold records id name := by
  cases howner : owner name with
  | none =>
    simp only [Option.any_none, Bool.false_eq_true, false_iff]
    rintro ⟨other, record, hrecord, -, hname⟩
    exact (h name).2 howner other record hrecord hname
  | some found =>
    obtain ⟨record, hrecord, hname⟩ := (h name).1 found howner
    simp only [Option.any_some, decide_eq_true_eq]
    constructor
    · exact fun hne => ⟨found, record, hrecord, hne, hname⟩
    · rintro ⟨other, record', hrecord', hne, hname'⟩
      rwa [hunique found other record record' hrecord hrecord' (hname.trans hname'.symm)]

/-- The check of a create, whose id is new: anybody owns the name. -/
theorem Finds.isSome {records : Dict UUID ConnectorRecord} {owner : String → Option UUID}
    (h : Finds fold records owner) {newId : UUID} (hnew : records.get? newId = none) (name : String) :
    (owner name).isSome = true ↔ Taken fold records newId name := by
  cases howner : owner name with
  | none =>
    simp only [Option.isSome_none, Bool.false_eq_true, false_iff]
    rintro ⟨other, record, hrecord, -, hname⟩
    exact (h name).2 howner other record hrecord hname
  | some found =>
    obtain ⟨record, hrecord, hname⟩ := (h name).1 found howner
    simp only [Option.isSome_some, true_iff]
    refine ⟨found, record, hrecord, ?_, hname⟩
    rintro rfl
    cases hnew.symm.trans hrecord

/-! ## What a call makes of a taken name -/

/-- What an API request promises: `timeout_seconds` is between 1 and 60. -/
def InRange : ConnectorCall → Prop
  | .create _ _ fields _ _ | .update _ _ _ fields _ _ _ => 1 ≤ fields.timeoutSeconds ∧ fields.timeoutSeconds ≤ 60
  | _ => True

/-- A call that looks for `name` answers with a conflict where it is taken, and otherwise with `answer`, whose record
may be written for `id`. -/
structure Answers (id : UUID) (name : String) (answer : Except Exn ConnectorRecord) : Prop where
  other : answer ≠ .error nameConflict
  record : ∀ record, answer = .ok record →
    record.id = id ∧ record.name = name ∧ SqlConnectorRepository.constraintsHold record = true

theorem encryptConnector_ne_nameConflict {random : Randomness} {text : String} {connectorId : UUID} {revision : Int} :
    encryptor.encryptConnector random text connectorId revision ≠ .error nameConflict := by
  intro h
  simp only [SecretEncryptor.encryptConnector, SecretEncryptor.encryptUnder, bind_eq_error_iff] at h
  rcases h with hkey | ⟨key, -, hkey⟩
  · unfold SecretEncryptor.requireKey at hkey
    split at hkey <;> simp [nameConflict] at hkey
  · cases hkey

theorem nextCredential_ne_nameConflict {random : Randomness} {connectorId : UUID} {current : ConnectorRecord}
    {authType : ConnectorAuthType} {credential : Option String} {credentialProvided : Bool} :
    nextCredential encryptor random connectorId current authType credential credentialProvided ≠
      .error nameConflict := by
  intro h
  unfold nextCredential at h
  split at h
  · cases h
  · split at h
    · rcases (bind_eq_error_iff _ _ _).mp h with hcredential | ⟨-, -, hrest⟩
      · unfold validateCredential at hcredential
        split at hcredential
        · cases hcredential
        · split at hcredential <;> simp [credentialRequired, nameConflict] at hcredential
      · rcases (bind_eq_error_iff _ _ _).mp hrest with hencrypted | ⟨encrypted, -, hok⟩
        · exact encryptConnector_ne_nameConflict hencrypted
        · cases hok
    · split at h
      · simp [credentialRequired, nameConflict] at h
      · cases h

/-- The credential an update leaves is there exactly if the connector has an authentication. -/
theorem nextCredential_ok {random : Randomness} {connectorId : UUID} {current : ConnectorRecord}
    {authType : ConnectorAuthType} {credential : Option String} {credentialProvided : Bool}
    {next : Option EncryptedSecret × Nat}
    (h : nextCredential encryptor random connectorId current authType credential credentialProvided = .ok next) :
    decide (authType = .none) = next.1.isNone := by
  unfold nextCredential at h
  split at h
  · next hauth =>
    obtain rfl := Except.ok.inj h
    simp [hauth]
  · next hauth =>
    split at h
    · simp only [bind_eq_ok_iff, pure_eq_ok_iff] at h
      obtain ⟨_, -, encrypted, -, rfl⟩ := h
      simp [hauth]
    · split at h
      · cases h
      · next hsome =>
        obtain rfl := Except.ok.inj h
        simpa [hauth, Option.isSome_iff_ne_none] using hsome

theorem firstCredential_ok {random : Randomness} {newId : UUID} {fields : ConnectorFields}
    {credential : Option String} {first : String × Option EncryptedSecret}
    (h : firstCredential encryptor random newId fields credential = .ok first) :
    decide (fields.authType = .none) = first.2.isNone := by
  simp only [firstCredential, bind_eq_ok_iff] at h
  obtain ⟨name, -, _, -, hrest⟩ := h
  split at hrest
  · next hauth =>
    obtain rfl := Except.ok.inj hrest
    simp [hauth]
  · next hauth =>
    simp only [bind_eq_ok_iff, pure_eq_ok_iff] at hrest
    obtain ⟨encrypted, -, rfl⟩ := hrest
    simp [hauth]

theorem prepareCreate_answers {random : Randomness} {newId : UUID} {fields : ConnectorFields}
    {credential : Option String} {enabled : Bool} {first : String × Option EncryptedSecret}
    (hrange : InRange (.create random newId fields credential enabled))
    (hfirst : firstCredential encryptor random newId fields credential = .ok first) :
    ∃ answer, Answers newId first.1 answer ∧ ∀ owner,
      prepareCreate encryptor owner random newId fields credential enabled =
        if (owner first.1).isSome then .error nameConflict else answer := by
  have hcredential := firstCredential_ok hfirst
  refine ⟨prepareCreate encryptor (fun _ => none) random newId fields credential enabled, ⟨?_, ?_⟩, ?_⟩
  · simp [prepareCreate, hfirst]
  · intro record hrecord
    simp only [prepareCreate, hfirst, ok_bind, Option.isSome_none, Bool.false_eq_true, if_false] at hrecord
    obtain rfl := Except.ok.inj hrecord
    refine ⟨rfl, rfl, ?_⟩
    simp [SqlConnectorRepository.constraintsHold, hrange.1, hrange.2, hcredential]
  · intro owner
    simp only [prepareCreate, hfirst, ok_bind, Option.isSome_none, Bool.false_eq_true, if_false]
    split <;> rfl

theorem prepareUpdate_answers (encryptor : SecretEncryptor) {random : Randomness} {connectorId : UUID} {current : ConnectorRecord}
    {expectedVersion : Nat} {fields : ConnectorFields} {credential : Option String} {credentialProvided : Bool}
    {enabled : Option Bool} (name : String)
    (hrange : InRange (.update random connectorId expectedVersion fields credential credentialProvided enabled))
    (hversion : checkVersion current expectedVersion = .ok ()) :
    ∃ answer, Answers current.id name answer ∧ ∀ owner,
      prepareUpdate encryptor owner random connectorId current expectedVersion fields name credential
          credentialProvided enabled =
        if (owner name).any (· ≠ connectorId) then .error nameConflict else answer := by
  refine ⟨prepareUpdate encryptor (fun _ => none) random connectorId current expectedVersion fields name credential
    credentialProvided enabled, ⟨?_, ?_⟩, ?_⟩
  · intro hconflict
    simp only [prepareUpdate, hversion, ok_bind, Option.any_none, Bool.false_eq_true, if_false] at hconflict
    rcases (bind_eq_error_iff _ _ _).mp hconflict with hnext | ⟨next, -, hok⟩
    · exact nextCredential_ne_nameConflict hnext
    · cases hok
  · intro record hrecord
    simp only [prepareUpdate, hversion, ok_bind, Option.any_none, Bool.false_eq_true, if_false, bind_eq_ok_iff,
      pure_eq_ok_iff] at hrecord
    obtain ⟨next, hnext, rfl⟩ := hrecord
    refine ⟨rfl, rfl, ?_⟩
    simp [SqlConnectorRepository.constraintsHold, hrange.1, hrange.2, nextCredential_ok hnext]
  · intro owner
    simp only [prepareUpdate, hversion, ok_bind, Option.any_none, Bool.false_eq_true, if_false]
    split <;> rfl

/-! ## The two repositories side by side -/

/-- The two repositories with the ids that were drawn for both. -/
structure Stores where
  memory : ConnectorRepository
  sql : SqlConnectorRepository
  drawn : List UUID

namespace Stores

def start : Stores := ⟨.empty, .empty, []⟩

variable (encryptor casefold lower)

/-- The same call of both; an id is not drawn twice. -/
def step (x : Stores) (call : ConnectorCall) : Option Stores :=
  if (ConnectorHistory.draws call).any (· ∈ x.drawn) then none
  else some {
    memory := (x.memory.on encryptor casefold call).2
    sql := (x.sql.on encryptor lower call).2
    drawn := x.drawn ++ (ConnectorHistory.draws call).toList }

/-- Both return, with the same record, or both raise the same. -/
def Alike (x : Stores) (call : ConnectorCall) : Prop :=
  (x.memory.on encryptor casefold call).1 = (x.sql.on encryptor lower call).1

/-- Where the call comes to look for a name, another connector has it up to `casefold` exactly if one has it up to
`lower`. -/
def NamesAgree (x : Stores) : ConnectorCall → Prop
  | .create random newId fields credential _ =>
    ∀ first, firstCredential encryptor random newId fields credential = .ok first →
      (Taken casefold x.memory.records newId first.1 ↔ Taken lower x.memory.records newId first.1)
  | .update _ connectorId expectedVersion fields _ _ _ =>
    ∀ name current, validateConnectorName fields.name = .ok name → x.memory.records.get? connectorId = some current →
      checkVersion current expectedVersion = .ok () →
      (Taken casefold x.memory.records connectorId name ↔ Taken lower x.memory.records connectorId name)
  | _ => True

variable {encryptor casefold lower}

/-- The repositories have the same records, and each has its names once. -/
structure Lockstep (casefold lower : String → String) (x : Stores) : Prop where
  rows : x.sql.rows = x.memory.records
  named : Named casefold x.memory
  folded : UniqueNames casefold x.memory.records
  lowered : UniqueNames lower x.memory.records
  known : ∀ id record, x.memory.records.get? id = some record → id ∈ x.drawn

theorem Lockstep.start (casefold lower : String → String) : Lockstep casefold lower start where
  rows := rfl
  named := ⟨.empty _, fun id record hrecord => by cases hrecord⟩
  folded := .empty casefold
  lowered := .empty lower
  known := fun id record hrecord => by cases hrecord

/-- A free name passes the constraints of the table. -/
theorem Lockstep.write_eq {x : Stores} (h : Lockstep casefold lower x) {id : UUID} {record : ConnectorRecord}
    (hfree : ¬ Taken lower x.memory.records id record.name)
    (hconstraints : SqlConnectorRepository.constraintsHold record = true) :
    x.sql.write id record = (.ok record, ⟨x.memory.records.set id record⟩) := by
  have hsame : x.sql.rows.entries.any (fun row => row.1 ≠ id && row.2.name = record.name) = false := by
    rw [List.any_eq_false]
    rintro ⟨other, found⟩ hrow hname
    simp only [ne_eq, decide_not, Bool.and_eq_true, Bool.not_eq_true', decide_eq_false_iff_not,
      decide_eq_true_eq] at hname
    rw [h.rows] at hrow
    exact hfree ⟨other, found, (Dict.get?_eq_some_iff _ _ _).mpr hrow, hname.1, by rw [hname.2]⟩
  unfold SqlConnectorRepository.write
  rw [if_neg (by rw [hsame]; simp), if_neg (by simp [hconstraints]), h.rows]

/-- What both write, under a name that is free in both. -/
theorem Lockstep.set {x y : Stores} (h : Lockstep casefold lower x) {id : UUID} {record : ConnectorRecord}
    (hid : record.id = id) (hfolded : ¬ Taken casefold x.memory.records id record.name)
    (hlowered : ¬ Taken lower x.memory.records id record.name)
    (hmemory : y.memory.records = x.memory.records.set id record)
    (hindexed : Indexed (foldedName casefold) (x.memory.records.set id record) y.memory.names)
    (hsql : y.sql.rows = x.memory.records.set id record) (hdrawn : x.drawn ⊆ y.drawn) (hknown : id ∈ y.drawn) :
    Lockstep casefold lower y where
  rows := hsql.trans hmemory.symm
  named := h.named.set hid hmemory hindexed
  folded := by rw [hmemory]; exact h.folded.set hfolded
  lowered := by rw [hmemory]; exact h.lowered.set hlowered
  known := by
    intro other found hfound
    rw [hmemory, Dict.get?_set] at hfound
    split at hfound
    · next heq => rwa [heq]
    · exact hdrawn (h.known other found hfound)

/-- What the two do with a name they look for: a conflict where it is taken, and the same answer otherwise. -/
structure Looked (casefold lower : String → String) (x : Stores) (id : UUID) (name : String)
    (memory : Except Exn ConnectorRecord × ConnectorRepository)
    (sql : Except Exn ConnectorRecord × SqlConnectorRepository) (answer : Except Exn ConnectorRecord) : Prop where
  answers : Answers id name answer
  memoryTaken : Taken casefold x.memory.records id name → memory = (.error nameConflict, x.memory)
  memoryRaised : ¬ Taken casefold x.memory.records id name → ∀ e, answer = .error e → memory = (.error e, x.memory)
  memoryWritten : ¬ Taken casefold x.memory.records id name → ∀ record, answer = .ok record → ∃ names,
    memory = (.ok record, ⟨x.memory.records.set id record, names⟩) ∧
    Indexed (foldedName casefold) (x.memory.records.set id record) names
  sqlTaken : Taken lower x.memory.records id name → sql = (.error nameConflict, x.sql)
  sqlRaised : ¬ Taken lower x.memory.records id name → ∀ e, answer = .error e → sql = (.error e, x.sql)
  sqlWritten : ¬ Taken lower x.memory.records id name → ∀ record, answer = .ok record →
    sql = (.ok record, ⟨x.memory.records.set id record⟩)

theorem Looked.memory_fst {x : Stores} {id : UUID} {name : String}
    {memory : Except Exn ConnectorRecord × ConnectorRepository}
    {sql : Except Exn ConnectorRecord × SqlConnectorRepository} {answer : Except Exn ConnectorRecord}
    (h : Looked casefold lower x id name memory sql answer) (hfree : ¬ Taken casefold x.memory.records id name) :
    memory.1 = answer := by
  cases hanswer : answer with
  | error e => rw [h.memoryRaised hfree e hanswer]
  | ok record =>
    obtain ⟨names, hmemory, -⟩ := h.memoryWritten hfree record hanswer
    rw [hmemory]

theorem Looked.sql_fst {x : Stores} {id : UUID} {name : String}
    {memory : Except Exn ConnectorRecord × ConnectorRepository}
    {sql : Except Exn ConnectorRecord × SqlConnectorRepository} {answer : Except Exn ConnectorRecord}
    (h : Looked casefold lower x id name memory sql answer) (hfree : ¬ Taken lower x.memory.records id name) :
    sql.1 = answer := by
  cases hanswer : answer with
  | error e => rw [h.sqlRaised hfree e hanswer]
  | ok record => rw [h.sqlWritten hfree record hanswer]

theorem Looked.alike_iff {x : Stores} {id : UUID} {name : String}
    {memory : Except Exn ConnectorRecord × ConnectorRepository}
    {sql : Except Exn ConnectorRecord × SqlConnectorRepository} {answer : Except Exn ConnectorRecord}
    (h : Looked casefold lower x id name memory sql answer) :
    memory.1 = sql.1 ↔ (Taken casefold x.memory.records id name ↔ Taken lower x.memory.records id name) := by
  by_cases hfolded : Taken casefold x.memory.records id name
  · rw [h.memoryTaken hfolded]
    by_cases hlowered : Taken lower x.memory.records id name
    · simp [h.sqlTaken hlowered, hfolded, hlowered]
    · simp [h.sql_fst hlowered, hfolded, hlowered, h.answers.other.symm]
  · rw [h.memory_fst hfolded]
    by_cases hlowered : Taken lower x.memory.records id name
    · simp [h.sqlTaken hlowered, hfolded, hlowered, h.answers.other]
    · simp [h.sql_fst hlowered, hfolded, hlowered]

theorem Lockstep.draw {x : Stores} (h : Lockstep casefold lower x) {drawn : List UUID} (hdrawn : x.drawn ⊆ drawn) :
    Lockstep casefold lower { x with drawn := drawn } :=
  ⟨h.rows, h.named, h.folded, h.lowered, fun id record hrecord => hdrawn (h.known id record hrecord)⟩

theorem Looked.lockstep {x : Stores} (hx : Lockstep casefold lower x) {id : UUID} {name : String}
    {memory : Except Exn ConnectorRecord × ConnectorRepository}
    {sql : Except Exn ConnectorRecord × SqlConnectorRepository} {answer : Except Exn ConnectorRecord}
    (h : Looked casefold lower x id name memory sql answer) (halike : memory.1 = sql.1) {drawn : List UUID}
    (hdrawn : x.drawn ⊆ drawn) (hid : id ∈ drawn) : Lockstep casefold lower ⟨memory.2, sql.2, drawn⟩ := by
  have hagree := h.alike_iff.mp halike
  by_cases hfolded : Taken casefold x.memory.records id name
  · rw [h.memoryTaken hfolded, h.sqlTaken (hagree.mp hfolded)]
    exact hx.draw hdrawn
  · have hlowered : ¬ Taken lower x.memory.records id name := fun hl => hfolded (hagree.mpr hl)
    cases hanswer : answer with
    | error e =>
      rw [h.memoryRaised hfolded e hanswer, h.sqlRaised hlowered e hanswer]
      exact hx.draw hdrawn
    | ok record =>
      obtain ⟨names, hmemory, hindexed⟩ := h.memoryWritten hfolded record hanswer
      obtain ⟨hown, rfl, -⟩ := h.answers.record record hanswer
      rw [hmemory, h.sqlWritten hlowered record hanswer]
      exact hx.set hown hfolded hlowered rfl hindexed rfl hdrawn hid

/-! ## One call -/

theorem Lockstep.looked_create {x : Stores} (h : Lockstep casefold lower x) {random : Randomness} {newId : UUID}
    {fields : ConnectorFields} {credential : Option String} {enabled : Bool} (hnew : newId ∉ x.drawn)
    (hrange : InRange (.create random newId fields credential enabled)) {first : String × Option EncryptedSecret}
    (hfirst : firstCredential encryptor random newId fields credential = .ok first) :
    ∃ answer, Looked casefold lower x newId first.1
      (x.memory.createConnector encryptor casefold random newId fields credential enabled)
      (x.sql.createConnector encryptor lower random newId fields credential enabled) answer := by
  obtain ⟨answer, hanswers, hprepared⟩ := prepareCreate_answers hrange hfirst
  have hfresh : x.memory.records.get? newId = none := by
    cases hget : x.memory.records.get? newId with
    | none => rfl
    | some record => exact absurd (h.known newId record hget) hnew
  have hmemory := h.named.finds.isSome hfresh first.1
  have hsql := (SqlConnectorRepository.finds lower x.sql).isSome (h.rows ▸ hfresh) first.1
  rw [h.rows] at hsql
  unfold ConnectorRepository.createConnector SqlConnectorRepository.createConnector
  simp only [hprepared]
  refine ⟨answer, hanswers, ?_, ?_, ?_, ?_, ?_, ?_⟩
  · intro htaken
    rw [if_pos (hmemory.mpr htaken)]
  · rintro hfree e rfl
    rw [if_neg (mt hmemory.mp hfree)]
  · rintro hfree record rfl
    rw [if_neg (mt hmemory.mp hfree)]
    obtain ⟨-, hname, -⟩ := hanswers.record record rfl
    refine ⟨_, rfl, h.named.indexed.insert hfresh ?_⟩
    have hnone : x.memory.nameOwner casefold first.1 = none := by simpa using mt hmemory.mp hfree
    rw [← hname] at hnone
    exact hnone
  · intro htaken
    rw [if_pos (hsql.mpr htaken)]
  · rintro hfree e rfl
    rw [if_neg (mt hsql.mp hfree)]
  · rintro hfree record rfl
    rw [if_neg (mt hsql.mp hfree)]
    obtain ⟨-, hname, hconstraints⟩ := hanswers.record record rfl
    exact h.write_eq (by rwa [hname]) hconstraints

theorem Lockstep.looked_update {x : Stores} (h : Lockstep casefold lower x) {random : Randomness} {connectorId : UUID}
    {expectedVersion : Nat} {fields : ConnectorFields} {credential : Option String} {credentialProvided : Bool}
    {enabled : Option Bool}
    (hrange : InRange (.update random connectorId expectedVersion fields credential credentialProvided enabled))
    {name : String} {current : ConnectorRecord} (hname : validateConnectorName fields.name = .ok name)
    (hcurrent : x.memory.records.get? connectorId = some current)
    (hversion : checkVersion current expectedVersion = .ok ()) :
    ∃ answer, Looked casefold lower x connectorId name
      (x.memory.updateConnector encryptor casefold random connectorId expectedVersion fields credential
        credentialProvided enabled)
      (x.sql.updateConnector encryptor lower random connectorId expectedVersion fields credential credentialProvided
        enabled) answer := by
  obtain ⟨answer, hanswers, hprepared⟩ := prepareUpdate_answers encryptor name hrange hversion
  rw [h.named.ids connectorId current hcurrent] at hanswers
  have hmemory := h.named.finds.any_ne h.folded connectorId name
  have hsql := (SqlConnectorRepository.finds lower x.sql).any_ne (h.rows ▸ h.lowered) connectorId name
  rw [h.rows] at hsql
  have hlocked : x.sql.locked connectorId = .ok current := by
    simp [SqlConnectorRepository.locked, h.rows, hcurrent]
  unfold ConnectorRepository.updateConnector SqlConnectorRepository.updateConnector
  simp only [hname, ok_bind, getConnector_eq_ok.mpr hcurrent, hlocked, hprepared]
  refine ⟨answer, hanswers, ?_, ?_, ?_, ?_, ?_, ?_⟩
  · intro htaken
    rw [if_pos (hmemory.mpr htaken)]
    rfl
  · rintro hfree e rfl
    rw [if_neg (mt hmemory.mp hfree)]
    rfl
  · rintro hfree record rfl
    obtain ⟨-, hrecord, -⟩ := hanswers.record record rfl
    rw [if_neg (mt hmemory.mp hfree), ok_bind]
    refine ⟨_, h.named.writeUpdate_eq hcurrent, h.named.renamed hcurrent ?_⟩
    intro other hother
    by_contra hne
    exact hfree (hmemory.mp (by rw [hrecord] at hother; simp [hother, hne]))
  · intro htaken
    rw [if_pos (hsql.mpr htaken)]
  · rintro hfree e rfl
    rw [if_neg (mt hsql.mp hfree)]
  · rintro hfree record rfl
    rw [if_neg (mt hsql.mp hfree)]
    obtain ⟨-, hrecord, hconstraints⟩ := hanswers.record record rfl
    exact h.write_eq (by rwa [hrecord]) hconstraints

/-- An update that does not come to look for its name raises the same in both. -/
theorem Lockstep.update_unreached {x : Stores} (h : Lockstep casefold lower x) {connectorId : UUID}
    {expectedVersion : Nat} {fields : ConnectorFields}
    (hreached : ¬ ∃ name current, validateConnectorName fields.name = .ok name ∧
      x.memory.records.get? connectorId = some current ∧ checkVersion current expectedVersion = .ok ())
    (encryptor : SecretEncryptor) (random : Randomness) (credential : Option String) (credentialProvided : Bool)
    (enabled : Option Bool) :
    ∃ e, x.memory.updateConnector encryptor casefold random connectorId expectedVersion fields credential
        credentialProvided enabled = (.error e, x.memory) ∧
      x.sql.updateConnector encryptor lower random connectorId expectedVersion fields credential credentialProvided
        enabled = (.error e, x.sql) := by
  have hlocked : x.sql.locked connectorId = x.memory.getConnector connectorId := by
    simp [SqlConnectorRepository.locked, ConnectorRepository.getConnector, h.rows]
  unfold ConnectorRepository.updateConnector SqlConnectorRepository.updateConnector
  rw [hlocked]
  cases hname : validateConnectorName fields.name with
  | error e => exact ⟨e, rfl, rfl⟩
  | ok name =>
    cases hget : x.memory.getConnector connectorId with
    | error e => exact ⟨e, rfl, rfl⟩
    | ok current =>
      cases hversion : checkVersion current expectedVersion with
      | error e => exact ⟨e, by simp only [ok_bind, prepareUpdate, hversion, error_bind], by
          simp only [ok_bind, prepareUpdate, hversion, error_bind]⟩
      | ok _ => exact absurd ⟨name, current, hname, getConnector_eq_ok.mp hget, hversion⟩ hreached

theorem Lockstep.change {x : Stores} (h : Lockstep casefold lower x) (connectorId : UUID)
    {f : ConnectorRecord → Except Exn ConnectorRecord}
    (hf : ∀ current updated, f current = .ok updated → updated.name = current.name ∧ updated.id = current.id) :
    (x.memory.change connectorId f).1 = (x.sql.change connectorId f).1 ∧
      Lockstep casefold lower ⟨(x.memory.change connectorId f).2, (x.sql.change connectorId f).2, x.drawn⟩ := by
  have hlocked : x.sql.locked connectorId = x.memory.getConnector connectorId := by
    simp [SqlConnectorRepository.locked, ConnectorRepository.getConnector, h.rows]
  unfold ConnectorRepository.change SqlConnectorRepository.change
  rw [hlocked]
  cases hchanged : x.memory.getConnector connectorId >>= f with
  | error e => exact ⟨rfl, h⟩
  | ok updated =>
    refine ⟨rfl, ?_⟩
    obtain ⟨current, hget, hupdated⟩ := (bind_eq_ok_iff _ _ _).mp hchanged
    have hcurrent := getConnector_eq_ok.mp hget
    obtain ⟨hname, hid⟩ := hf current updated hupdated
    apply h.set (hid.trans (h.named.ids connectorId current hcurrent))
    · exact hname ▸ h.folded.keeps hcurrent
    · exact hname ▸ h.lowered.keeps hcurrent
    · rfl
    · exact h.named.indexed.keep hcurrent (by rw [foldedName, hname, foldedName])
    · rw [h.rows]
    · exact List.Subset.refl _
    · exact h.known connectorId current hcurrent

theorem Lockstep.delete {x : Stores} (h : Lockstep casefold lower x) (connectorId : UUID) :
    (x.memory.deleteConnector casefold connectorId).1 = (x.sql.deleteConnector connectorId).1 ∧
      Lockstep casefold lower
        ⟨(x.memory.deleteConnector casefold connectorId).2, (x.sql.deleteConnector connectorId).2, x.drawn⟩ := by
  unfold ConnectorRepository.deleteConnector SqlConnectorRepository.deleteConnector ConnectorRepository.getConnector
  rw [h.rows]
  cases hcurrent : x.memory.records.get? connectorId with
  | none => exact ⟨rfl, h⟩
  | some current =>
    have hname : x.memory.names.get? (casefold current.name) = some connectorId := h.named.indexed.get hcurrent
    simp only [hname, Option.isNone_some, Bool.false_eq_true, if_false, true_and]
    refine ⟨rfl, ⟨h.named.indexed.remove hcurrent, ?_⟩, h.folded.erase connectorId, h.lowered.erase connectorId, ?_⟩
    · intro id record hrecord
      rw [Dict.get?_erase] at hrecord
      split at hrecord
      · cases hrecord
      · exact h.named.ids id record hrecord
    · intro id record hrecord
      rw [Dict.get?_erase] at hrecord
      split at hrecord
      · cases hrecord
      · exact h.known id record hrecord

/-- The call is answered alike exactly if the names agree, and after such an answer the records are still the same. -/
theorem Lockstep.on {x y : Stores} (h : Lockstep casefold lower x) {call : ConnectorCall} (hrange : InRange call)
    (hstep : step encryptor casefold lower x call = some y) :
    (Alike encryptor casefold lower x call ↔ NamesAgree encryptor casefold lower x call) ∧
      (Alike encryptor casefold lower x call → Lockstep casefold lower y) := by
  unfold step at hstep
  split at hstep
  · cases hstep
  next hfresh =>
  obtain rfl := Option.some.inj hstep
  cases call with
  | create random newId fields credential enabled =>
    have hnew : newId ∉ x.drawn := by simpa [ConnectorHistory.draws] using hfresh
    cases hfirst : firstCredential encryptor random newId fields credential with
    | error e =>
      have hraised : ∀ owner, prepareCreate encryptor owner random newId fields credential enabled = .error e := by
        intro owner
        rw [prepareCreate, hfirst, error_bind]
      simp only [Alike, NamesAgree, ConnectorRepository.on, ConnectorRepository.createConnector,
        SqlConnectorRepository.on, SqlConnectorRepository.createConnector, hraised, hfirst]
      exact ⟨by simp, fun _ => h.draw (List.subset_append_left _ _)⟩
    | ok first =>
      obtain ⟨answer, hlooked⟩ := h.looked_create hnew hrange hfirst
      refine ⟨?_, fun halike => hlooked.lockstep h halike (List.subset_append_left _ _) ?_⟩
      · simp only [NamesAgree, hfirst, Except.ok.injEq, forall_eq']
        exact hlooked.alike_iff
      · simp [ConnectorHistory.draws]
  | update random connectorId expectedVersion fields credential credentialProvided enabled =>
    simp only [ConnectorHistory.draws, Option.toList_none, List.append_nil]
    by_cases hreached : ∃ name current, validateConnectorName fields.name = .ok name ∧
        x.memory.records.get? connectorId = some current ∧ checkVersion current expectedVersion = .ok ()
    · obtain ⟨name, current, hname, hcurrent, hversion⟩ := hreached
      obtain ⟨answer, hlooked⟩ := h.looked_update hrange hname hcurrent hversion
      refine ⟨?_, fun halike =>
        hlooked.lockstep h halike (List.Subset.refl _) (h.known connectorId current hcurrent)⟩
      refine hlooked.alike_iff.trans ⟨?_, fun hagree => hagree name current hname hcurrent hversion⟩
      intro hagree name' current' hname' hcurrent' _
      obtain rfl := Except.ok.inj (hname.symm.trans hname')
      exact hagree
    · obtain ⟨e, hmemory, hsql⟩ := h.update_unreached hreached encryptor random credential credentialProvided enabled
      simp only [Alike, ConnectorRepository.on, SqlConnectorRepository.on, hmemory, hsql]
      refine ⟨iff_of_true trivial ?_, fun _ => h⟩
      intro name current hname hcurrent hversion
      exact absurd ⟨name, current, hname, hcurrent, hversion⟩ hreached
  | setEnabled connectorId enabled expectedVersion =>
    simp only [ConnectorHistory.draws, Option.toList_none, List.append_nil]
    have hchange := h.change connectorId (f := fun current => Connector.setEnabled current enabled expectedVersion) ?_
    · exact ⟨iff_of_true hchange.1 trivial, fun _ => hchange.2⟩
    · intro current updated hupdated
      simp only [Connector.setEnabled, bind_eq_ok_iff, pure_eq_ok_iff] at hupdated
      obtain ⟨_, -, rfl⟩ := hupdated
      exact ⟨rfl, rfl⟩
  | recordTest connectorId expectedVersion success tools error =>
    simp only [ConnectorHistory.draws, Option.toList_none, List.append_nil]
    have hchange := h.change connectorId
      (f := fun current => Connector.recordTest current expectedVersion success tools error) ?_
    · exact ⟨iff_of_true hchange.1 trivial, fun _ => hchange.2⟩
    · intro current updated hupdated
      simp only [Connector.recordTest, bind_eq_ok_iff, pure_eq_ok_iff] at hupdated
      obtain ⟨_, -, rfl⟩ := hupdated
      exact ⟨rfl, rfl⟩
  | delete connectorId =>
    simp only [ConnectorHistory.draws, Option.toList_none, List.append_nil]
    have hdelete := h.delete connectorId
    exact ⟨iff_of_true hdelete.1 trivial, fun _ => hdelete.2⟩

/-- From empty repositories, every call is answered alike exactly if the names agree at every call. -/
theorem connector_names_agree_iff {calls : List ConnectorCall} {x : Stores}
    (hrun : runSteps (step encryptor casefold lower) start calls = some x) (hrange : ∀ call ∈ calls, InRange call) :
    Along (step encryptor casefold lower) (Alike encryptor casefold lower) start calls ↔
      Along (step encryptor casefold lower) (NamesAgree encryptor casefold lower) start calls := by
  apply along_iff_along (I := Lockstep casefold lower) (P := InRange) _ _ (.start casefold lower) hrange hrun
  · exact fun s call t hs hcall hstep => (hs.on hcall hstep).1
  · exact fun s call t hs hcall halike hstep => (hs.on hcall hstep).2 halike

open ConnectorHistory (sealDraws searchFields lowerAscii)

def createNamed (id name : String) : ConnectorCall :=
  .create (sealDraws 1) ⟨id⟩ { searchFields .none with name := name } none true

/-- Two connectors of one name, in different case. -/
def searchTwice : List ConnectorCall := [createNamed "c" "Search", createNamed "d" "SEARCH"]

theorem search_names_alike :
    Along (step framedEncryptor lowerAscii lowerAscii) (Alike framedEncryptor lowerAscii lowerAscii) start
      searchTwice := by
  have hkept : (runSteps (step framedEncryptor lowerAscii lowerAscii) start searchTwice).isSome = true := by
    decide +kernel
  obtain ⟨x, hrun⟩ := Option.isSome_iff_exists.mp hkept
  refine (connector_names_agree_iff hrun ?_).mpr (along_of_forall ?_)
  · simp [searchTwice, createNamed, InRange, searchFields]
  · intro call hcall s
    simp only [searchTwice, List.mem_cons, List.not_mem_nil, or_false] at hcall
    rcases hcall with rfl | rfl <;> exact fun _ _ => Iff.rfl

/-- Python's `casefold` on the names below: it also writes out the sharp s. -/
def foldSharp (name : String) : String :=
  .ofList (name.toList.flatMap fun c => if c = 'ß' then ['s', 's'] else [c.toLower])

def streetCalls : List ConnectorCall := [createNamed "c" "Straße", createNamed "d" "STRASSE"]

/-- The call returns in one repository and raises in the other. -/
def apart (call : ConnectorCall) (x : Stores) : Bool :=
  (x.memory.on framedEncryptor foldSharp call).1.toOption.isSome !=
    (x.sql.on framedEncryptor lowerAscii call).1.toOption.isSome

/-- In memory the second name is taken, in SQL it is free. -/
theorem street_names_differ :
    (∃ x, runSteps (step framedEncryptor foldSharp lowerAscii) start streetCalls = some x) ∧
    (∀ call ∈ streetCalls, InRange call) ∧
    ¬ Along (step framedEncryptor foldSharp lowerAscii) (Alike framedEncryptor foldSharp lowerAscii) start
      streetCalls := by
  refine ⟨Option.isSome_iff_exists.mp (by decide +kernel), ?_, ?_⟩
  · simp [streetCalls, createNamed, InRange, searchFields]
  rintro ⟨-, hlater⟩
  have happart : (step framedEncryptor foldSharp lowerAscii start (createNamed "c" "Straße")).any
      (apart (createNamed "d" "STRASSE")) = true := by decide +kernel
  obtain ⟨x, hx, hdiffer⟩ := (Option.any_eq_true _ _).mp happart
  obtain ⟨halike, -⟩ := hlater x hx
  unfold Alike at halike
  unfold apart at hdiffer
  rw [halike] at hdiffer
  simp at hdiffer

end Stores

end SmartTest.Connector
