import SmartTest.Plan.SqlTables

/-!
# What the tables hold

After the same calls the tables hold the same scripts, environments and plans as the
repositories in memory.
-/

open SmartTest.Lib SmartTest.Run SmartTest.Environment

namespace SmartTest.Plan

open Tables

variable {floatRepr : Rat → List Char} {encryptor : SecretEncryptor}

/-! ## The rows of a revision -/

theorem mem_valueRows {record : EnvironmentRecord} {positions : ConfigurationCategory → Nat}
    {values : List ConfigurationValue} {row : EnvironmentValueModel} (h : row ∈ valueRows record positions values) :
    row.environmentId = record.id ∧ row.revision = record.revision ∧ positions row.category ≤ row.position ∧
      ∃ value ∈ values, row.category = value.category := by
  induction values generalizing positions with
  | nil => simp [valueRows] at h
  | cons value rest ih =>
    rcases List.mem_cons.mp h with rfl | hrest
    · exact ⟨rfl, rfl, le_rfl, value, List.mem_cons_self, rfl⟩
    · obtain ⟨hid, hrevision, hposition, other, hother, hcategory⟩ := ih hrest
      refine ⟨hid, hrevision, ?_, other, List.mem_cons_of_mem _ hother, hcategory⟩
      by_cases hcase : row.category = value.category
      · rw [hcase, Function.update_self] at hposition
        rw [hcase]
        omega
      · rwa [Function.update_of_ne hcase] at hposition

/-- Rows are written in the order in which the query reads them, each at a place of its own. -/
theorem valueRows_strict {record : EnvironmentRecord} {positions : ConfigurationCategory → Nat}
    {values : List ConfigurationValue}
    (h : values.Pairwise fun a b => b.category = a.category ∨ b.category.value < a.category.value) :
    (valueRows record positions values).Pairwise fun a b =>
      b.category.value < a.category.value ∨ a.category = b.category ∧ a.position < b.position := by
  induction h generalizing positions with
  | nil => exact .nil
  | @cons value rest hvalue _ ih =>
    refine .cons (fun row hrow => ?_) ih
    obtain ⟨-, -, hposition, other, hother, hcategory⟩ := mem_valueRows hrow
    rcases hvalue other hother with hsame | hlater
    · right
      have hcase : row.category = value.category := hcategory.trans hsame
      rw [hcase, Function.update_self] at hposition
      exact ⟨hcase.symm, by simp only [valueRow]; omega⟩
    · left
      rw [hcategory]
      exact hlater

theorem valueRows_sorted {record : EnvironmentRecord} {positions : ConfigurationCategory → Nat}
    {values : List ConfigurationValue}
    (h : values.Pairwise fun a b => b.category = a.category ∨ b.category.value < a.category.value) :
    (valueRows record positions values).Pairwise rowBefore :=
  (valueRows_strict h).imp fun hab => hab.imp_right fun hsame => ⟨hsame.1, hsame.2.le⟩

theorem values_descending {first second : List ConfigurationValue}
    (hfirst : CategoryOk floatRepr .environmentVariable first) (hsecond : CategoryOk floatRepr .commonParameter second) :
    (first ++ second).Pairwise fun a b => b.category = a.category ∨ b.category.value < a.category.value := by
  rw [List.pairwise_append]
  refine ⟨?_, ?_, ?_⟩
  · exact List.pairwise_of_forall_mem_list fun a ha b hb =>
      .inl ((hfirst.kind b hb).trans (hfirst.kind a ha).symm)
  · exact List.pairwise_of_forall_mem_list fun a ha b hb =>
      .inl ((hsecond.kind b hb).trans (hsecond.kind a ha).symm)
  · intro a ha b hb
    rw [hfirst.kind a ha, hsecond.kind b hb]
    exact .inr (by decide)

theorem addRow_valueRow (record : EnvironmentRecord) (position : Nat) (value : ConfigurationValue)
    (snapshot : EnvironmentSnapshot) : addRow snapshot (valueRow record position value) = addValue snapshot value := by
  unfold addRow addValue valueRow
  cases hsecret : value.secret with
  | true => rfl
  | false => simp

theorem foldlM_addRow (record : EnvironmentRecord) (positions : ConfigurationCategory → Nat)
    (values : List ConfigurationValue) (snapshot : EnvironmentSnapshot) :
    (valueRows record positions values).foldlM addRow snapshot = values.foldlM addValue snapshot := by
  induction values generalizing positions snapshot with
  | nil => rfl
  | cons value rest ih =>
    simp only [valueRows, List.foldlM_cons, addRow_valueRow]
    cases addValue snapshot value with
    | error e => rfl
    | ok next => exact ih _ next

theorem configurationValue_valueRow {value : ConfigurationValue} (h : value.Material) (record : EnvironmentRecord)
    (position : Nat) : configurationValue (valueRow record position value) = .ok value := by
  obtain ⟨category, name, secret, json, secretRef, encrypted⟩ := value
  cases secret with
  | true =>
    obtain ⟨rfl, -, hsealed⟩ : json = .null ∧ secretRef.isSome ∧ encrypted.isSome := h
    simp [configurationValue, valueRow, Option.isSome_iff_ne_none.mp hsealed]
  | false =>
    obtain ⟨rfl, rfl⟩ : secretRef = none ∧ encrypted = none := h
    rfl

theorem mapM_configurationValue {values : List ConfigurationValue} (h : ∀ value ∈ values, value.Material)
    (record : EnvironmentRecord) (positions : ConfigurationCategory → Nat) :
    (valueRows record positions values).mapM configurationValue = .ok values := by
  induction values generalizing positions with
  | nil => rfl
  | cons value rest ih =>
    obtain ⟨hvalue, hrest⟩ := List.forall_mem_cons.mp h
    rw [valueRows, List.mapM_cons, configurationValue_valueRow hvalue, ok_bind, ih hrest, ok_bind]
    rfl

/-! ## What the tables hold -/

/-- The tables hold what the repositories in memory hold. -/
structure Represents (tables : Tables) (catalog : Catalog) : Prop where
  scripts : ∀ id, tables.scripts.get? id = (catalog.scripts.scripts.get? id).map scriptModel
  scriptRevisions : ∀ id k record, Stored catalog.scripts.revisions id k record →
    tables.scriptRevisions.get? (id, k + 1) = some (scriptValues record)
  environments : ∀ id, tables.environments.get? id =
    (catalog.environments.environments.get? id).map environmentModel
  environmentRevisions : ∀ id k record, Stored catalog.environments.revisions id k record →
    tables.environmentRevisions.get? (id, k + 1) = some ⟨record.name, record.status⟩
  environmentValues : ∀ id k record, Stored catalog.environments.revisions id k record →
    (tables.environmentValues.filter fun row => row.environmentId = id && row.revision = k + 1) =
      valueRows record (fun _ => 0) record.values
  written : ∀ row ∈ tables.environmentValues, ∃ k record, row.revision = k + 1 ∧
    Stored catalog.environments.revisions row.environmentId k record
  plans : ∀ id, tables.plans.get? id = catalog.plans.plans.get? id

/-- The query gives the values of a revision in their order. -/
theorem Represents.revisionRows {tables : Tables} {catalog : Catalog} (h : Represents tables catalog)
    (hok : CatalogOk floatRepr catalog) {id : UUID} {k : Nat} {record : EnvironmentRecord}
    (hstored : Stored catalog.environments.revisions id k record) :
    tables.revisionRows id (k + 1) = valueRows record (fun _ => 0) record.values := by
  rw [Tables.revisionRows, h.environmentValues id k record hstored]
  obtain ⟨first, second, hvalues, hfirst, hsecond⟩ := (hok.environments.values id k record hstored).split
  rw [hvalues]
  exact (valueRows_sorted (values_descending hfirst hsecond)).insertionSort_eq

/-! ### Scripts -/

theorem Represents.putScript {tables : Tables} {catalog : Catalog} (h : Represents tables catalog)
    {scripts : AutomationRepository} {record : ScriptRecord}
    (hscripts : scripts.scripts = catalog.scripts.scripts.set record.id record)
    (hrevisions : ∀ id k found, Stored scripts.revisions id k found →
      (id = record.id ∧ k + 1 = record.revision ∧ found = record) ∨
        ((id, k + 1) ≠ (record.id, record.revision) ∧ Stored catalog.scripts.revisions id k found)) :
    Represents (tables.putScript record) { catalog with scripts := scripts } := by
  refine ⟨?_, ?_, h.environments, h.environmentRevisions, h.environmentValues, h.written, h.plans⟩
  · intro id
    simp only [hscripts, Tables.putScript, Dict.get?_set, h.scripts]
    split <;> rfl
  · intro id k found hfound
    rcases hrevisions id k found hfound with ⟨rfl, hk, rfl⟩ | ⟨hne, hold⟩
    · simp [Tables.putScript, hk]
    · rw [Tables.putScript, Dict.get?_set_ne _ _ hne]
      exact h.scriptRevisions id k found hold

theorem Represents.createScript {tables : Tables} {catalog : Catalog} (h : Represents tables catalog)
    {newId projectId : UUID} {engine : Engine} {body : ScriptBody}
    (hnew : catalog.scripts.scripts.get? newId = none) :
    Represents (tables.createScript newId projectId engine body)
      { catalog with scripts := (catalog.scripts.createScript newId projectId engine body).2 } := by
  refine h.putScript rfl ?_
  rintro id k found ⟨history, hhistory, hfound⟩
  simp only [AutomationRepository.createScript, Dict.get?_set] at hhistory
  split at hhistory
  · next hid =>
    subst hid
    obtain rfl := Option.some.inj hhistory
    cases k with
    | zero => exact .inl ⟨rfl, rfl, by simpa using hfound.symm⟩
    | succ k => simp at hfound
  · next hid => exact .inr ⟨by simp [hid], history, hhistory, hfound⟩

theorem scriptRecord_scriptModel {scriptId : UUID} {record : ScriptRecord} (h : record.id = scriptId) :
    scriptRecord scriptId (scriptModel record) = record := by
  subst h
  rfl

/-- The last revision is the only one that an update adds. -/
theorem stored_of_append {κ α : Type} [DecidableEq κ] {revisions : Dict κ (List α)} {id other : κ} {history : List α}
    {record found : α} {k : Nat} (h : Stored (revisions.set id (history ++ [record])) other k found)
    (hhistory : revisions.get? id = some history) :
    (other = id ∧ k = history.length ∧ found = record) ∨
      ((other, k) ≠ (id, history.length) ∧ Stored revisions other k found) := by
  obtain ⟨others, hothers, hfound⟩ := h
  by_cases hcase : other = id
  · subst hcase
    obtain rfl : history ++ [record] = others := by simpa using hothers
    rcases Nat.lt_trichotomy k history.length with hlt | rfl | hgt
    · rw [List.getElem?_append_left hlt] at hfound
      exact .inr ⟨by simp; omega, history, hhistory, hfound⟩
    · exact .inl ⟨rfl, rfl, by simpa using hfound.symm⟩
    · rw [List.getElem?_eq_none (by simp; omega)] at hfound
      cases hfound
  · exact .inr ⟨by simp [hcase], others, by simpa [hcase] using hothers, hfound⟩

theorem Represents.updateScript {tables tables' : Tables} {catalog : Catalog} (h : Represents tables catalog)
    (hok : CatalogOk floatRepr catalog) {scriptId : UUID} {expectedVersion : Nat} {body : ScriptBody}
    {status : AutomationScriptStatus} {updated : ScriptRecord} {scripts : AutomationRepository}
    (hmemory : catalog.scripts.updateScript scriptId expectedVersion body status = .ok (updated, scripts))
    (hsql : tables.updateScript scriptId expectedVersion body status = .ok tables') :
    Represents tables' { catalog with scripts := scripts } := by
  obtain ⟨current, history, hcurrent, hhistory, hupdate, rfl⟩ := updateScript_ok hmemory
  obtain ⟨-, hid, hrevision, -, -⟩ := ScriptRecord.update_ok hupdate
  obtain ⟨found, hfound, hlast⟩ := hok.scripts.versions.latest scriptId current hcurrent
  obtain rfl : history = found := Option.some.inj (hhistory.symm.trans hfound)
  obtain ⟨hcurrentId, hcount⟩ := hok.scripts.versions.current_eq hhistory hlast
  -- The row of the script is read back as the record in memory.
  have hrow : tables.scripts.get? scriptId = some (scriptModel current) := by rw [h.scripts, hcurrent]; rfl
  simp only [Tables.updateScript, hrow, scriptRecord_scriptModel hcurrentId] at hsql
  split at hsql
  · simp [error_bind] at hsql
  · rw [hupdate, ok_bind, pure_eq_ok_iff] at hsql
    subst hsql
    have hid' : updated.id = scriptId := hid.trans hcurrentId
    refine h.putScript (by rw [hid']) ?_
    intro id k record hstored
    rw [hid', hrevision, hcount]
    rcases stored_of_append hstored hhistory with ⟨rfl, rfl, rfl⟩ | ⟨hne, hold⟩
    · exact .inl ⟨rfl, rfl, rfl⟩
    · exact .inr ⟨by simpa using hne, hold⟩

/-! ### Environments -/

theorem filter_append_other {α : Type} {p : α → Bool} {l l' : List α} (h : ∀ a ∈ l', p a = false) :
    (l ++ l').filter p = l.filter p := by
  have hnil : l'.filter p = [] := List.filter_eq_nil_iff.mpr fun a ha => by simp [h a ha]
  rw [List.filter_append, hnil, List.append_nil]

theorem Represents.putEnvironment {tables : Tables} {catalog : Catalog} (h : Represents tables catalog)
    {environments : EnvironmentRepository} {record : EnvironmentRecord}
    (henvironments : environments.environments = catalog.environments.environments.set record.id record)
    (hkept : ∀ id k found, Stored catalog.environments.revisions id k found →
      Stored environments.revisions id k found ∧ (id, k + 1) ≠ (record.id, record.revision))
    (hadded : ∃ k, k + 1 = record.revision ∧ Stored environments.revisions record.id k record)
    (hrevisions : ∀ id k found, Stored environments.revisions id k found →
      (id = record.id ∧ k + 1 = record.revision ∧ found = record) ∨
        Stored catalog.environments.revisions id k found) :
    Represents (tables.putEnvironment record) { catalog with environments := environments } := by
  refine ⟨h.scripts, h.scriptRevisions, ?_, ?_, ?_, ?_, h.plans⟩
  · intro id
    simp only [henvironments, Tables.putEnvironment, Dict.get?_set, h.environments]
    split <;> rfl
  · intro id k found hfound
    rcases hrevisions id k found hfound with ⟨rfl, hk, rfl⟩ | hold
    · simp [Tables.putEnvironment, hk]
    · rw [Tables.putEnvironment, Dict.get?_set_ne _ _ (hkept id k found hold).2]
      exact h.environmentRevisions id k found hold
  · intro id k found hfound
    have hnew : ∀ row ∈ valueRows record (fun _ => 0) record.values,
        row.environmentId = record.id ∧ row.revision = record.revision := fun row hrow =>
      ⟨(mem_valueRows hrow).1, (mem_valueRows hrow).2.1⟩
    rcases hrevisions id k found hfound with ⟨rfl, hk, rfl⟩ | hold
    · -- No older row has the number of the new revision.
      have hold : ∀ row ∈ tables.environmentValues,
          (row.environmentId = found.id && row.revision = k + 1 : Bool) = false := by
        intro row hrow
        obtain ⟨k', other, hrevision, hother⟩ := h.written row hrow
        have hne := (hkept _ _ _ hother).2
        rw [hrevision, ← hk] at *
        by_contra hcontra
        simp only [Bool.not_eq_false, Bool.and_eq_true, decide_eq_true_eq] at hcontra
        exact hne (by rw [hcontra.1, hcontra.2])
      rw [Tables.putEnvironment, List.filter_append, List.filter_eq_nil_iff.mpr (fun a ha => by simp [hold a ha]),
        List.nil_append, List.filter_eq_self.mpr]
      intro row hrow
      simp [hnew row hrow, hk]
    · rw [Tables.putEnvironment, filter_append_other]
      · exact h.environmentValues id k found hold
      · intro row hrow
        have hne := (hkept id k found hold).2
        by_contra hcontra
        simp only [Bool.not_eq_false, Bool.and_eq_true, decide_eq_true_eq, hnew row hrow] at hcontra
        exact hne (by rw [hcontra.1, hcontra.2])
  · intro row hrow
    rcases List.mem_append.mp hrow with hold | hnew
    · obtain ⟨k, other, hrevision, hother⟩ := h.written row hold
      exact ⟨k, other, hrevision, (hkept _ _ _ hother).1⟩
    · obtain ⟨hid, hrevision, -⟩ := mem_valueRows hnew
      obtain ⟨k, hk, hstored⟩ := hadded
      exact ⟨k, record, hrevision.trans hk.symm, hid ▸ hstored⟩

theorem Represents.createEnvironment {tables tables' : Tables} {catalog : Catalog} (h : Represents tables catalog)
    (hok : CatalogOk floatRepr catalog) {draws : Draws} {projectId environmentId : UUID} {name : String}
    {environmentVariables commonParameters : List ConfigurationValueInput} {record : EnvironmentRecord}
    {environments : EnvironmentRepository}
    (hnew : catalog.environments.environments.get? environmentId = none)
    (hmemory : catalog.environments.createEnvironment floatRepr encryptor draws projectId environmentId name
      environmentVariables commonParameters = (.ok record, environments))
    (hsql : tables.createEnvironment floatRepr encryptor draws projectId environmentId name environmentVariables
      commonParameters = .ok tables') :
    Represents tables' { catalog with environments := environments } := by
  have hunknown : catalog.environments.revisions.get? environmentId = none := by
    cases hhistory : catalog.environments.revisions.get? environmentId with
    | none => rfl
    | some history => simpa [hnew] using hok.environments.shape.versions.known environmentId history hhistory
  obtain ⟨hid, hproject, hrevision, -, -, rfl⟩ := createEnvironment_ok hmemory
  -- Both build the record from the same arguments and draws.
  have hsame : tables' = tables.putEnvironment record := by
    simp only [EnvironmentRepository.createEnvironment] at hmemory
    split at hmemory
    · simp at hmemory
    · next created hcreated =>
      simp only [Prod.mk.injEq, Except.ok.injEq] at hmemory
      simp only [EnvironmentRepository.prepareCreate, bind_eq_ok_iff, pure_eq_ok_iff, error_bind,
        ite_error_eq_ok_iff] at hcreated
      simp only [Tables.createEnvironment, bind_eq_ok_iff, pure_eq_ok_iff, error_bind, ite_error_eq_ok_iff] at hsql
      obtain ⟨normalized, hname, -, values, hvalues, hcreated⟩ := hcreated
      obtain ⟨normalized', hname', values', hvalues', -, rfl⟩ := hsql
      obtain rfl := Except.ok.inj (hname.symm.trans hname')
      obtain rfl := Except.ok.inj (hvalues.symm.trans hvalues')
      rw [← hmemory.1, ← hcreated]
  subst hsame
  refine h.putEnvironment (by rw [hid]) ?_ ⟨0, hrevision.symm, [record], by rw [hid, Dict.get?_set_self], rfl⟩ ?_
  · intro id k found hfound
    refine ⟨hfound.create hunknown, ?_⟩
    rintro heq
    obtain ⟨history, hhistory, -⟩ := hfound
    rw [(Prod.mk.inj heq).1, hid, hunknown] at hhistory
    cases hhistory
  · rintro id k found ⟨history, hhistory, hfound⟩
    rw [Dict.get?_set] at hhistory
    split at hhistory
    · next hcase =>
      obtain rfl := Option.some.inj hhistory
      cases k with
      | zero => exact .inl ⟨hcase.trans hid.symm, hrevision.symm, by simpa using hfound.symm⟩
      | succ k => simp at hfound
    · exact .inr ⟨history, hhistory, hfound⟩

/-- The current record is read back as it is in memory. -/
theorem Represents.currentRecord {tables : Tables} {catalog : Catalog} (h : Represents tables catalog)
    (hok : CatalogOk floatRepr catalog) {environmentId : UUID} {current : EnvironmentRecord}
    (hcurrent : catalog.environments.environments.get? environmentId = some current) :
    tables.environments.get? environmentId = some (environmentModel current) ∧
      tables.currentRecord environmentId (environmentModel current) = .ok current := by
  refine ⟨by rw [h.environments, hcurrent]; rfl, ?_⟩
  obtain ⟨history, hhistory, hlast⟩ := hok.environments.shape.versions.latest environmentId current hcurrent
  obtain ⟨hid, hcount⟩ := hok.environments.shape.versions.current_eq hhistory hlast
  have hpos : 0 < history.length := by
    rw [List.length_pos_iff]
    rintro rfl
    simp at hlast
  obtain ⟨k, hk⟩ : ∃ k, current.revision = k + 1 := ⟨history.length - 1, by omega⟩
  have hstored : Stored catalog.environments.revisions environmentId k current :=
    ⟨history, hhistory, by rw [← hlast, List.getLast?_eq_getElem?]; congr 1; omega⟩
  have hmaterial : ∀ value ∈ current.values, value.Material := by
    obtain ⟨first, second, hsplit, hfirst, hsecond⟩ := (hok.environments.values _ _ _ hstored).split
    rw [hsplit]
    intro value hvalue
    rcases List.mem_append.mp hvalue with hmem | hmem
    · exact hfirst.material value hmem
    · exact hsecond.material value hmem
  simp only [Tables.currentRecord, environmentModel, hk, h.environmentRevisions _ _ _ hstored,
    Tables.environmentValuesOf, h.revisionRows hok hstored, mapM_configurationValue hmaterial, ok_bind]
  subst hid
  rw [← hk]
  rfl

theorem Represents.updateEnvironment {tables tables' : Tables} {catalog : Catalog} (h : Represents tables catalog)
    (hok : CatalogOk floatRepr catalog) {draws : Draws} {environmentId : UUID} {expectedVersion : Nat}
    {name : String} {status : EnvironmentStatus}
    {environmentVariables commonParameters : List ConfigurationValueInput} {record : EnvironmentRecord}
    {environments : EnvironmentRepository}
    (hmemory : catalog.environments.updateEnvironment floatRepr encryptor draws environmentId expectedVersion name
      status environmentVariables commonParameters = (.ok record, environments))
    (hsql : tables.updateEnvironment floatRepr encryptor draws environmentId expectedVersion name status
      environmentVariables commonParameters = .ok tables') :
    Represents tables' { catalog with environments := environments } := by
  obtain ⟨current, history, hhistory, hlast, -, -, henvironments, hrevisions, hshape⟩ :=
    hok.environments.shape.updateEnvironment_ok hmemory
  simp only [EnvironmentRepository.updateEnvironment] at hmemory
  split at hmemory
  · simp at hmemory
  · next current' updated hprepared =>
    have hwritten : updated = record := by
      obtain ⟨hget, -⟩ := prepareUpdate_ok hprepared
      obtain ⟨_, -, -, hwrite⟩ := hok.environments.shape.writeUpdate_eq hget updated
      rw [hwrite] at hmemory
      exact Except.ok.inj (Prod.mk.inj hmemory).1
    subst hwritten
    obtain ⟨hget, hid, -, hrevision, -, -⟩ := prepareUpdate_ok hprepared
    obtain ⟨hrow, hread⟩ := h.currentRecord hok hget
    obtain ⟨found, hfound, hlast'⟩ := hok.environments.shape.versions.latest environmentId current' hget
    obtain rfl : history = found := Option.some.inj (hhistory.symm.trans hfound)
    obtain ⟨hcurrentId, hcount⟩ := hok.environments.shape.versions.current_eq hhistory hlast'
    have hsame : tables' = tables.putEnvironment updated := by
      simp only [EnvironmentRepository.prepareUpdate, bind_eq_ok_iff, pure_eq_ok_iff, error_bind,
        ite_error_eq_ok_iff, Prod.mk.injEq] at hprepared
      obtain ⟨normalized, hname, _, hcurrent, -, -, -, -, values, hvalues, _, hupdate, rfl, rfl⟩ := hprepared
      simp only [Tables.updateEnvironment, hname, ok_bind, hrow, hread, bind_eq_ok_iff, pure_eq_ok_iff, error_bind,
        ite_error_eq_ok_iff] at hsql
      obtain ⟨-, -, -, values', hvalues', updated', hupdate', -, rfl⟩ := hsql
      obtain rfl := Except.ok.inj (hvalues.symm.trans hvalues')
      obtain rfl := Except.ok.inj (hupdate.symm.trans hupdate')
      rfl
    subst hsame
    have hid' : updated.id = environmentId := hid.trans hcurrentId
    have hrevision' : updated.revision = history.length + 1 := by rw [hrevision, hcount]
    refine h.putEnvironment (by rw [henvironments, hid']) ?_ ?_ ?_
    · intro id k found hfound
      rw [hrevisions]
      refine ⟨hfound.update hhistory, ?_⟩
      rintro heq
      obtain ⟨rfl, hk⟩ := Prod.mk.inj heq
      obtain ⟨others, hothers, hlt⟩ := hfound
      rw [hid', hhistory] at hothers
      obtain rfl := Option.some.inj hothers
      have := (List.getElem?_eq_some_iff.mp hlt).1
      omega
    · exact ⟨history.length, hrevision'.symm, history ++ [updated], by rw [hrevisions, hid', Dict.get?_set_self],
        by simp⟩
    · intro id k found hfound
      rw [hrevisions] at hfound
      rw [hid', hrevision']
      rcases stored_of_append hfound hhistory with ⟨rfl, rfl, rfl⟩ | ⟨-, hold⟩
      · exact .inl ⟨rfl, rfl, rfl⟩
      · exact .inr hold

/-! ### Plans -/

theorem Represents.withPlan {tables : Tables} {catalog : Catalog} (h : Represents tables catalog) {planId : UUID}
    {plan : TestPlanRecord} :
    Represents { tables with plans := tables.plans.set planId plan }
      { catalog with plans := { catalog.plans with plans := catalog.plans.plans.set planId plan } } := by
  refine ⟨h.scripts, h.scriptRevisions, h.environments, h.environmentRevisions, h.environmentValues, h.written, ?_⟩
  intro id
  simp only [Dict.get?_set, h.plans]

theorem Represents.createPlan {tables tables' : Tables} {catalog catalog' : Catalog} (h : Represents tables catalog)
    {newId tenantId projectId : UUID} {items : List TestPlanItem} {maxParallel : Int}
    (hmemory : catalog.createPlan floatRepr newId tenantId projectId items maxParallel = .ok catalog')
    (hsql : tables.createPlan floatRepr newId tenantId projectId items maxParallel = .ok tables') :
    Represents tables' catalog' := by
  simp only [Catalog.createPlan, bind_eq_ok_iff, pure_eq_ok_iff] at hmemory
  simp only [Tables.createPlan, bind_eq_ok_iff, pure_eq_ok_iff] at hsql
  obtain ⟨normalized, hnormal, parallel, hparallel, _, -, rfl⟩ := hmemory
  obtain ⟨normalized', hnormal', parallel', hparallel', _, -, rfl⟩ := hsql
  obtain rfl := Except.ok.inj (hnormal.symm.trans hnormal')
  obtain rfl := Except.ok.inj (hparallel.symm.trans hparallel')
  exact h.withPlan

theorem Represents.updatePlan {tables tables' : Tables} {catalog catalog' : Catalog} (h : Represents tables catalog)
    {planId : UUID} {expectedVersion : Nat} {items : List TestPlanItem} {status : TestPlanStatus}
    {maxParallel : Int}
    (hmemory : catalog.updatePlan floatRepr planId expectedVersion items status maxParallel = .ok catalog')
    (hsql : tables.updatePlan floatRepr planId expectedVersion items status maxParallel = .ok tables') :
    Represents tables' catalog' := by
  simp only [Catalog.updatePlan, bind_eq_ok_iff] at hmemory
  obtain ⟨normalized, hnormal, parallel, hparallel, current, hcurrent, hmemory⟩ := hmemory
  have hget := getPlan_ok_iff.mp hcurrent
  simp only [Tables.updatePlan, hnormal, hparallel, ok_bind, h.plans, hget, bind_eq_ok_iff, pure_eq_ok_iff,
    error_bind, ite_error_eq_ok_iff, ne_eq, not_not] at hsql
  obtain ⟨hversion, _, -, updated, hupdate, rfl⟩ := hsql
  rw [if_pos hversion] at hmemory
  simp only [bind_eq_ok_iff, pure_eq_ok_iff, TestPlanRepository.updatePlan, hcurrent, ok_bind, error_bind,
    ite_error_eq_ok_iff] at hmemory
  obtain ⟨_, -, ⟨written, plans⟩, ⟨-, updated', hupdate', hpair⟩, rfl⟩ := hmemory
  obtain rfl := Except.ok.inj (hupdate.symm.trans hupdate')
  obtain ⟨rfl, rfl⟩ := Prod.mk.inj hpair
  exact h.withPlan

/-! ## The same calls on both -/

theorem executePlan_plans {catalog catalog' : Catalog} {drawn : Drawn} {now : Instant}
    {sourceOverride : Option (String × String)} {planId : UUID} {idempotencyKey : String}
    {answer : ExecutionBatchRecord × Bool}
    (h : catalog.executePlan floatRepr drawn now sourceOverride planId idempotencyKey = .ok (answer, catalog')) :
    catalog'.scripts = catalog.scripts ∧ catalog'.environments = catalog.environments ∧
      catalog'.plans.plans = catalog.plans.plans := by
  simp only [Catalog.executePlan, bind_eq_ok_iff, pure_eq_ok_iff] at h
  obtain ⟨⟨_, plans, runs⟩, hexecute, hcatalog⟩ := h
  obtain ⟨-, rfl⟩ := Prod.mk.inj hcatalog
  obtain ⟨key, plan, -, -, ⟨_, -, -, -, hstate⟩ | ⟨pairs, -, -, -, hstate⟩⟩ := execute_ok hexecute
  · obtain ⟨rfl, rfl⟩ := Prod.mk.inj hstate
    exact ⟨rfl, rfl, rfl⟩
  · obtain ⟨rfl, rfl⟩ := Prod.mk.inj hstate
    exact ⟨rfl, rfl, rfl⟩

/-- The catalog and the tables after the same accepted calls, with the same draws. -/
inductive Mirrors (floatRepr : Rat → List Char) (encryptor : SecretEncryptor) : Catalog → Tables → Prop
  | empty : Mirrors floatRepr encryptor .empty .empty
  | createScript {catalog : Catalog} {tables : Tables} (h : Mirrors floatRepr encryptor catalog tables)
      (newId projectId : UUID) (engine : Engine) (body : ScriptBody)
      (hnew : catalog.scripts.scripts.get? newId = none) :
      Mirrors floatRepr encryptor
        { catalog with scripts := (catalog.scripts.createScript newId projectId engine body).2 }
        (tables.createScript newId projectId engine body)
  | updateScript {catalog : Catalog} {tables tables' : Tables} (h : Mirrors floatRepr encryptor catalog tables)
      (scriptId : UUID) (expectedVersion : Nat) (body : ScriptBody) (status : AutomationScriptStatus)
      (updated : ScriptRecord) (scripts : AutomationRepository)
      (hmemory : catalog.scripts.updateScript scriptId expectedVersion body status = .ok (updated, scripts))
      (hsql : tables.updateScript scriptId expectedVersion body status = .ok tables') :
      Mirrors floatRepr encryptor { catalog with scripts := scripts } tables'
  | createEnvironment {catalog : Catalog} {tables tables' : Tables} (h : Mirrors floatRepr encryptor catalog tables)
      (draws : Draws) (projectId environmentId : UUID) (name : String)
      (environmentVariables commonParameters : List ConfigurationValueInput) (record : EnvironmentRecord)
      (environments : EnvironmentRepository) (hdraws : draws.Distinct)
      (hnew : catalog.environments.environments.get? environmentId = none)
      (hmemory : catalog.environments.createEnvironment floatRepr encryptor draws projectId environmentId name
        environmentVariables commonParameters = (.ok record, environments))
      (hsql : tables.createEnvironment floatRepr encryptor draws projectId environmentId name environmentVariables
        commonParameters = .ok tables') :
      Mirrors floatRepr encryptor { catalog with environments := environments } tables'
  | updateEnvironment {catalog : Catalog} {tables tables' : Tables} (h : Mirrors floatRepr encryptor catalog tables)
      (draws : Draws) (environmentId : UUID) (expectedVersion : Nat) (name : String) (status : EnvironmentStatus)
      (environmentVariables commonParameters : List ConfigurationValueInput) (record : EnvironmentRecord)
      (environments : EnvironmentRepository) (hdraws : draws.Distinct)
      (hmemory : catalog.environments.updateEnvironment floatRepr encryptor draws environmentId expectedVersion name
        status environmentVariables commonParameters = (.ok record, environments))
      (hsql : tables.updateEnvironment floatRepr encryptor draws environmentId expectedVersion name status
        environmentVariables commonParameters = .ok tables') :
      Mirrors floatRepr encryptor { catalog with environments := environments } tables'
  | createPlan {catalog catalog' : Catalog} {tables tables' : Tables}
      (h : Mirrors floatRepr encryptor catalog tables) (newId tenantId projectId : UUID) (items : List TestPlanItem)
      (maxParallel : Int) (hnew : catalog.plans.plans.get? newId = none)
      (hmemory : catalog.createPlan floatRepr newId tenantId projectId items maxParallel = .ok catalog')
      (hsql : tables.createPlan floatRepr newId tenantId projectId items maxParallel = .ok tables') :
      Mirrors floatRepr encryptor catalog' tables'
  | updatePlan {catalog catalog' : Catalog} {tables tables' : Tables}
      (h : Mirrors floatRepr encryptor catalog tables) (planId : UUID) (expectedVersion : Nat)
      (items : List TestPlanItem) (status : TestPlanStatus) (maxParallel : Int)
      (hmemory : catalog.updatePlan floatRepr planId expectedVersion items status maxParallel = .ok catalog')
      (hsql : tables.updatePlan floatRepr planId expectedVersion items status maxParallel = .ok tables') :
      Mirrors floatRepr encryptor catalog' tables'
  | executePlan {catalog catalog' : Catalog} {tables : Tables} (h : Mirrors floatRepr encryptor catalog tables)
      (drawn : Drawn) (now : Instant) (sourceOverride : Option (String × String)) (planId : UUID)
      (idempotencyKey : String) (answer : ExecutionBatchRecord × Bool)
      (hsource : ∀ source ∈ sourceOverride, AcceptedSource source)
      (hmemory : catalog.executePlan floatRepr drawn now sourceOverride planId idempotencyKey = .ok (answer, catalog'))
      (batches : Dict UUID ExecutionBatchModel) (specs : Dict UUID RunSpecModel) (runs : Dict UUID RunRecord) :
      Mirrors floatRepr encryptor catalog' { tables with batches := batches, specs := specs, runs := runs }
  | runs {catalog : Catalog} {tables : Tables} (h : Mirrors floatRepr encryptor catalog tables)
      (runs : RunRepository) (sqlRuns : Dict UUID RunRecord) :
      Mirrors floatRepr encryptor { catalog with runs := runs } { tables with runs := sqlRuns }

theorem Mirrors.reaches {catalog : Catalog} {tables : Tables} (h : Mirrors floatRepr encryptor catalog tables) :
    catalog.Reaches floatRepr encryptor := by
  induction h with
  | empty => exact .empty
  | createScript _ newId projectId engine body hnew ih => exact .createScript ih newId projectId engine body hnew
  | updateScript _ scriptId expectedVersion body status updated scripts hmemory _ ih =>
    exact .updateScript ih scriptId expectedVersion body status updated scripts hmemory
  | createEnvironment _ draws projectId environmentId name vs cs record environments hdraws hnew hmemory _ ih =>
    exact .createEnvironment ih draws projectId environmentId name vs cs record environments hdraws hnew hmemory
  | updateEnvironment _ draws environmentId version name status vs cs record environments hdraws hmemory _ ih =>
    exact .updateEnvironment ih draws environmentId version name status vs cs record environments hdraws hmemory
  | createPlan _ newId tenantId projectId items maxParallel hnew hmemory _ ih =>
    exact .createPlan ih newId tenantId projectId items maxParallel hnew hmemory
  | updatePlan _ planId expectedVersion items status maxParallel hmemory _ ih =>
    exact .updatePlan ih planId expectedVersion items status maxParallel hmemory
  | executePlan _ drawn now sourceOverride planId idempotencyKey answer hsource hmemory batches specs runs ih =>
    exact .executePlan ih drawn now sourceOverride planId idempotencyKey answer hsource hmemory
  | runs _ runs sqlRuns ih => exact .runs ih runs

theorem Mirrors.represents {catalog : Catalog} {tables : Tables} (h : Mirrors floatRepr encryptor catalog tables) :
    Represents tables catalog := by
  induction h with
  | empty =>
    constructor <;> simp [Tables.empty, Catalog.empty, AutomationRepository.empty, EnvironmentRepository.empty, Stored]
  | createScript _ newId projectId engine body hnew ih => exact ih.createScript hnew
  | updateScript h scriptId expectedVersion body status updated scripts hmemory hsql ih =>
    exact ih.updateScript (catalogOk_of_reaches h.reaches) hmemory hsql
  | createEnvironment h draws projectId environmentId name vs cs record environments hdraws hnew hmemory hsql ih =>
    exact ih.createEnvironment (catalogOk_of_reaches h.reaches) hnew hmemory hsql
  | updateEnvironment h draws environmentId version name status vs cs record environments hdraws hmemory hsql ih =>
    exact ih.updateEnvironment (catalogOk_of_reaches h.reaches) hmemory hsql
  | createPlan _ newId tenantId projectId items maxParallel hnew hmemory hsql ih => exact ih.createPlan hmemory hsql
  | updatePlan _ planId expectedVersion items status maxParallel hmemory hsql ih => exact ih.updatePlan hmemory hsql
  | executePlan _ drawn now sourceOverride planId idempotencyKey answer hsource hmemory batches specs runs ih =>
    have hplans := executePlan_plans hmemory
    exact ⟨by rw [hplans.1]; exact ih.scripts, by rw [hplans.1]; exact ih.scriptRevisions,
      by rw [hplans.2.1]; exact ih.environments, by rw [hplans.2.1]; exact ih.environmentRevisions,
      by rw [hplans.2.1]; exact ih.environmentValues, by rw [hplans.2.1]; exact ih.written,
      by rw [hplans.2.2]; exact ih.plans⟩
  | runs _ runs sqlRuns ih =>
    exact ⟨ih.scripts, ih.scriptRevisions, ih.environments, ih.environmentRevisions, ih.environmentValues, ih.written,
      ih.plans⟩

end SmartTest.Plan
