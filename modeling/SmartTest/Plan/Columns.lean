import SmartTest.Plan.Encoding
import SmartTest.Plan.SqlRecords

/-!
# Environments in columns

`_add_revision` and `_values` of `services/api/environment_sql_repository.py`, column by
column. The values of a revision are two runs, the environment variables before the common
parameters; each row has its place in its run, and the query puts the names of the categories
in descending order.
-/

open SmartTest.Lib SmartTest.Run SmartTest.Runner SmartTest.Environment

namespace SmartTest.Plan

/-- A row of `environment_values`. -/
structure EnvironmentValueColumns where
  environmentId : String
  revision : Nat
  category : String
  name : String
  position : Nat
  isSecret : Bool
  publicValue : Json
  secretRef : Option String
  ciphertext : Option ByteArray
  tag : Option ByteArray
  nonce : Option ByteArray
  wrappedDek : Option ByteArray
  wrapNonce : Option ByteArray
  keyId : Option String
  algorithm : Option String

/-! ## Writing -/

def columnsOf (row : EnvironmentValueModel) : EnvironmentValueColumns where
  environmentId := row.environmentId.text
  revision := row.revision
  category := row.category.value
  name := row.name
  position := row.position
  isSecret := row.isSecret
  publicValue := row.publicValue
  secretRef := row.secretRef.map (·.text)
  ciphertext := row.encrypted.map (·.ciphertext)
  tag := row.encrypted.map (·.tag)
  nonce := row.encrypted.map (·.nonce)
  wrappedDek := row.encrypted.map (·.wrappedDek)
  wrapNonce := row.encrypted.map (·.wrapNonce)
  keyId := row.encrypted.map (·.keyId)
  algorithm := row.encrypted.map (·.algorithm)

/-- The values that `_add_revision` adds, with the positions from zero on in each category. -/
def addRevision (record : EnvironmentRecord) : List EnvironmentValueColumns :=
  (Tables.valueRows record (fun _ => 0) record.values).map columnsOf

/-! ## Reading -/

/-- `ORDER BY category DESC, position`. -/
def columnsBefore (a b : EnvironmentValueColumns) : Prop :=
  b.category < a.category ∨ a.category = b.category ∧ a.position ≤ b.position

instance : DecidableRel columnsBefore := fun _ _ => inferInstanceAs (Decidable (_ ∨ _))

/-- `ConfigurationCategory(text)`. -/
def categoryOf (text : String) : Option ConfigurationCategory :=
  [ConfigurationCategory.environmentVariable, .commonParameter].find? (·.value = text)

/-- The secret of a row, of which no column may be missing. -/
def encryptedOf (row : EnvironmentValueColumns) : Option EncryptedSecret := do
  return ⟨← row.ciphertext, ← row.tag, ← row.nonce, ← row.wrappedDek, ← row.wrapNonce, ← row.keyId, ← row.algorithm⟩

def valueOf (row : EnvironmentValueColumns) : Except Exn ConfigurationValue := do
  let encrypted ←
    if row.isSecret then
      match encryptedOf row with
      | some encrypted => .ok (some encrypted)
      | none => .error (Environment.notFound "environment secret data was not found")
    else .ok none
  let some category := categoryOf row.category
    | .error ⟨.valueError, row.category ++ " is not a valid ConfigurationCategory"⟩
  return {
    category := category
    name := row.name
    secret := row.isSecret
    value := if row.isSecret then .null else row.publicValue
    secretRef := (row.secretRef.filter (· ≠ "")).map UUID.mk
    encrypted := encrypted }

/-- `_values`. The table has its rows in any order. -/
def readValues (table : List EnvironmentValueColumns) (environmentId : String) (revision : Nat) :
    Except Exn (List ConfigurationValue) :=
  let rows := table.filter fun row => row.environmentId = environmentId && row.revision = revision
  (rows.insertionSort columnsBefore).mapM valueOf

/-! ## Nothing is lost -/

variable {floatRepr : Rat → List Char} {encryptor : SecretEncryptor}

theorem categoryOf_value (category : ConfigurationCategory) : categoryOf category.value = some category := by
  cases category <;> rfl

instance : Std.Total columnsBefore where
  total a b := by
    unfold columnsBefore
    rcases lt_trichotomy a.category b.category with hlt | heq | hgt
    · exact .inr (.inl hlt)
    · rcases Nat.le_total a.position b.position with hle | hle
      · exact .inl (.inr ⟨heq, hle⟩)
      · exact .inr (.inr ⟨heq.symm, hle⟩)
    · exact .inl (.inl hgt)

instance : IsTrans EnvironmentValueColumns columnsBefore where
  trans a b c := by
    unfold columnsBefore
    rintro (hab | ⟨hab, hle⟩) (hbc | ⟨hbc, hle'⟩)
    · exact .inl (hbc.trans hab)
    · exact .inl (hbc ▸ hab)
    · exact .inl (hab ▸ hbc)
    · exact .inr ⟨hab.trans hbc, hle.trans hle'⟩

/-- The query puts the rows of a revision in the order in which they were written. -/
theorem insertionSort_addRevision {record : EnvironmentRecord} {rows : List EnvironmentValueColumns}
    (hvalues : record.values.Pairwise fun a b => b.category = a.category ∨ b.category.value < a.category.value)
    (hrows : rows.Perm (addRevision record)) : rows.insertionSort columnsBefore = addRevision record := by
  have hstrict : (addRevision record).Pairwise fun a b =>
      b.category < a.category ∨ a.category = b.category ∧ a.position < b.position := by
    refine List.pairwise_map.mpr ((valueRows_strict hvalues).imp ?_)
    rintro a b (hlater | ⟨hsame, hlt⟩)
    · exact .inl hlater
    · exact .inr ⟨congrArg ConfigurationCategory.value hsame, hlt⟩
  have hsorted : (addRevision record).Pairwise columnsBefore :=
    hstrict.imp fun hab => hab.imp_right fun hsame => ⟨hsame.1, hsame.2.le⟩
  have hperm := (List.perm_insertionSort columnsBefore rows).trans hrows
  refine List.Perm.eq_of_pairwise ?_ (List.pairwise_insertionSort columnsBefore rows) hsorted hperm
  -- No two rows are at one place, so the order leaves no choice.
  intro a b ha hb hab hba
  obtain ⟨i, hi, rfl⟩ := List.getElem_of_mem (hperm.mem_iff.mp ha)
  obtain ⟨j, hj, rfl⟩ := List.getElem_of_mem hb
  have hapart : ∀ x y : EnvironmentValueColumns,
      (y.category < x.category ∨ x.category = y.category ∧ x.position < y.position) → ¬ columnsBefore y x := by
    rintro x y (hlater | ⟨hsame, hlt⟩) (hlater' | ⟨hsame', hle⟩)
    · exact lt_asymm hlater hlater'
    · exact absurd hsame' hlater.ne
    · exact absurd hsame hlater'.ne
    · omega
  rcases Nat.lt_trichotomy i j with hlt | rfl | hgt
  · exact absurd hba (hapart _ _ (List.pairwise_iff_getElem.mp hstrict i j hi hj hlt))
  · rfl
  · exact absurd hab (hapart _ _ (List.pairwise_iff_getElem.mp hstrict j i hj hi hgt))

theorem valueOf_columnsOf {value : ConfigurationValue} (hmaterial : value.Material)
    (href : ∀ ref ∈ value.secretRef, ref.text ≠ "") (record : EnvironmentRecord) (position : Nat) :
    valueOf (columnsOf (Tables.valueRow record position value)) = .ok value := by
  obtain ⟨category, name, secret, json, secretRef, encrypted⟩ := value
  cases secret with
  | true =>
    obtain ⟨rfl, -, hsealed⟩ : json = .null ∧ secretRef.isSome ∧ encrypted.isSome := hmaterial
    obtain ⟨material, rfl⟩ := Option.isSome_iff_exists.mp hsealed
    have hread : ((secretRef.map (·.text)).filter (· ≠ "")).map UUID.mk = secretRef := by
      cases secretRef with
      | none => rfl
      | some ref => simp [Option.filter, href ref rfl]
    simp only [valueOf, columnsOf, Tables.valueRow, encryptedOf, Option.map_some, categoryOf_value, hread, if_true]
    rfl
  | false =>
    obtain ⟨rfl, rfl⟩ : secretRef = none ∧ encrypted = none := hmaterial
    simp only [valueOf, columnsOf, Tables.valueRow, categoryOf_value]
    rfl

theorem mapM_valueOf {values : List ConfigurationValue} (hmaterial : ∀ value ∈ values, value.Material)
    (hrefs : ∀ value ∈ values, ∀ ref ∈ value.secretRef, ref.text ≠ "") (record : EnvironmentRecord)
    (positions : ConfigurationCategory → Nat) :
    ((Tables.valueRows record positions values).map columnsOf).mapM valueOf = .ok values := by
  induction values generalizing positions with
  | nil => rfl
  | cons value rest ih =>
    obtain ⟨hvalue, hrest⟩ := List.forall_mem_cons.mp hmaterial
    obtain ⟨href, hothers⟩ := List.forall_mem_cons.mp hrefs
    rw [Tables.valueRows, List.map_cons, List.mapM_cons, valueOf_columnsOf hvalue href, ok_bind, ih hrest hothers,
      ok_bind]
    rfl

theorem Canonical.text_ne {id : UUID} (h : Canonical id) : id.text ≠ "" := by
  intro hempty
  have hlength := h.length
  rw [hempty] at hlength
  cases hlength

/-- The rows of a revision among any others, read back. -/
theorem readValues_addRevision {record : EnvironmentRecord} {first second : List ConfigurationValue}
    (hvalues : record.values = first ++ second) (hfirst : CategoryOk floatRepr .environmentVariable first)
    (hsecond : CategoryOk floatRepr .commonParameter second)
    (hrefs : ∀ value ∈ record.values, ∀ ref ∈ value.secretRef, ref.text ≠ "")
    {others table : List EnvironmentValueColumns}
    (hothers : ∀ row ∈ others, ¬ (row.environmentId = record.id.text ∧ row.revision = record.revision))
    (htable : table.Perm (others ++ addRevision record)) :
    readValues table record.id.text record.revision = .ok record.values := by
  have hmaterial : ∀ value ∈ record.values, value.Material := by
    intro value hvalue
    rw [hvalues] at hvalue
    rcases List.mem_append.mp hvalue with hmem | hmem
    · exact hfirst.material value hmem
    · exact hsecond.material value hmem
  have hnone : (others.filter fun row => row.environmentId = record.id.text && row.revision = record.revision) = [] := by
    rw [List.filter_eq_nil_iff]
    intro row hrow
    simpa using hothers row hrow
  have hown : ((addRevision record).filter fun row =>
      row.environmentId = record.id.text && row.revision = record.revision) = addRevision record := by
    rw [List.filter_eq_self]
    intro columns hcolumns
    obtain ⟨row, hrow, rfl⟩ := List.mem_map.mp hcolumns
    obtain ⟨hid, hrevision, -⟩ := mem_valueRows hrow
    simp [columnsOf, hid, hrevision]
  have hrows := htable.filter fun row => row.environmentId = record.id.text && row.revision = record.revision
  rw [List.filter_append, hnone, hown, List.nil_append] at hrows
  unfold readValues
  dsimp only
  rw [insertionSort_addRevision (hvalues ▸ values_descending hfirst hsecond) hrows]
  exact mapM_valueOf hmaterial hrefs record _

/-- What the plan and the environment repositories write to their columns, they read back: the items of a plan with
their policies, and the values of a revision in their order, wherever its rows lie in the table. -/
theorem sql_encodings_lose_nothing (codec : Codec) (hint : ∀ n, codec.readInt (.int n) = some n)
    (floatRepr : Rat → List Char) (encryptor : SecretEncryptor) :
    (∀ items normalized, normalizePlanItems floatRepr items = .ok normalized →
      (∀ item ∈ normalized, ∀ id ∈ item.environmentId, Canonical id) →
      ∃ definition, planDefinition (normalized.map itemObject) = some definition ∧
        planItems codec definition = .ok (normalized.map itemObject)) ∧
    ∀ draws projectId environmentId revision previous environmentVariables commonParameters values,
      (∀ category i, Canonical (draws.secretRef category i)) →
      buildConfigurationValues floatRepr encryptor draws projectId environmentId revision previous
        environmentVariables commonParameters = .ok values →
      ∀ record : EnvironmentRecord, record.id = environmentId → record.revision = revision → record.values = values →
      ∀ others table : List EnvironmentValueColumns,
        (∀ row ∈ others, ¬ (row.environmentId = record.id.text ∧ row.revision = record.revision)) →
        table.Perm (others ++ addRevision record) →
        readValues table record.id.text record.revision = .ok values := by
  constructor
  · intro items normalized _ hids
    exact planItems_planDefinition hint fun item hitem id hid => (hids item hitem id hid).text_ne
  · intro draws projectId environmentId revision previous environmentVariables commonParameters values hdraws hbuilt
      record _ _ hvalues others table hothers htable
    obtain ⟨first, second, hsplit, hfirst, hsecond, hvariables, hparameters⟩ := buildConfigurationValues_split hbuilt
    have hrefs : ∀ value ∈ record.values, ∀ ref ∈ value.secretRef, ref.text ≠ "" := by
      intro value hvalue ref href
      rw [hvalues, hsplit] at hvalue
      rcases List.mem_append.mp hvalue with hmem | hmem
      · obtain ⟨i, -, rfl⟩ := buildFrom_drawn hfirst ref (List.mem_filterMap.mpr ⟨value, hmem, href⟩)
        exact (hdraws _ i).text_ne
      · obtain ⟨i, -, rfl⟩ := buildFrom_drawn hsecond ref (List.mem_filterMap.mpr ⟨value, hmem, href⟩)
        exact (hdraws _ i).text_ne
    rw [← hvalues]
    exact readValues_addRevision (hvalues.trans hsplit) hvariables hparameters hrefs hothers htable

/-! ## A plan and an environment -/

/-- A policy with a step before the script and a value that nests. -/
def loginPolicy : ExecutionPolicy where
  beforeSteps := [{
    name := "login"
    request := ⟨[("method", .str "POST"), ("headers", .obj [("X-Trace", .arr [.int 1, .null])])], by decide⟩
    assertions := [⟨.jsonPath, some "data.roles", .eq, .arr [.str "admin", .obj [("level", .int 2)]], by decide, by decide⟩]
    extractions := [⟨"TOKEN", .jsonPath, "data.token", true, by decide, by decide, by decide⟩]
    required := true
    name_pos := by decide
    name_le := by decide
    assertions_le := by decide
    extractions_le := by decide }]
  assertions := []
  extractions := []
  afterSteps := []
  retry := .default
  before_le := by decide
  assertions_le := by decide
  extractions_le := by decide
  after_le := by decide
  names_nodup := by decide

def loginStepItem : TestPlanItem :=
  ⟨someId, someId, 1, some someId, some 2, .empty, [⟨"row", ⟨[("user", .str "ada")], by decide⟩⟩], loginPolicy⟩

/-- One value in the open, one sealed. -/
def tokenValues : Except Exn (List ConfigurationValue) :=
  buildConfigurationValues zeroRepr sizeTagEncryptor (tokenDraws someId.text) someId someId 1 none
    [⟨"HOST", .str "example.com", false, none⟩] [⟨"token", .str "hunter2", true, none⟩]

def tokenRecord (values : List ConfigurationValue) : EnvironmentRecord := ⟨someId, someId, "staging", .draft, 1, 0, values⟩

theorem login_plan_and_token_read_back : ∃ normalized definition values,
    normalizePlanItems zeroRepr [loginStepItem] = .ok normalized ∧
    planDefinition (normalized.map itemObject) = some definition ∧
    planItems epochCodec definition = .ok (normalized.map itemObject) ∧
    tokenValues = .ok values ∧
    readValues (addRevision (tokenRecord values)).reverse someId.text 1 = .ok values := by
  have hlossless := sql_encodings_lose_nothing epochCodec (fun _ => rfl) zeroRepr sizeTagEncryptor
  have hnormal : normalizePlanItems zeroRepr [loginStepItem] = .ok [loginStepItem] := rfl
  obtain ⟨definition, hdefinition, hitems⟩ := hlossless.1 [loginStepItem] [loginStepItem] hnormal (by
    intro item hitem id hid
    obtain rfl := List.mem_singleton.mp hitem
    obtain rfl := Option.some.inj hid
    exact someId_canonical)
  have hbuilt : tokenValues.isOk = true := by decide +kernel
  cases hvalues : tokenValues with
  | error e =>
    rw [hvalues] at hbuilt
    cases hbuilt
  | ok values =>
    refine ⟨[loginStepItem], definition, values, hnormal, hdefinition, hitems, rfl, ?_⟩
    exact hlossless.2 _ _ _ _ _ _ _ values (fun _ _ => someId_canonical) hvalues (tokenRecord values) rfl rfl rfl []
      _ (by simp) (List.reverse_perm _)

end SmartTest.Plan
