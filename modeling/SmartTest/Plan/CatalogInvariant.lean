import SmartTest.Environment.Revisions
import SmartTest.Environment.Values
import SmartTest.Plan.Catalog
import SmartTest.Plan.Idempotency

/-!
# What stored plans refer to

Revisions are never changed or removed, so what `_validate_references` found of a plan's
items holds for as long as the plan is stored.
-/

open SmartTest.Lib SmartTest.Run SmartTest.Environment

namespace SmartTest.Plan

variable {floatRepr : Rat → List Char} {encryptor : SecretEncryptor}

/-! ## Scripts -/

/-- What the schema has checked of every stored script. -/
structure ScriptRecord.Accepted (record : ScriptRecord) : Prop where
  entrypoint : 1 ≤ record.entrypoint.length ∧ record.entrypoint.length ≤ 512
  sourceRef : 1 ≤ record.sourceRef.length ∧ record.sourceRef.length ≤ 512
  contentDigest : isContentDigest record.contentDigest = true
  timeoutSeconds : 1 ≤ record.timeoutSeconds

structure ScriptsOk (repo : AutomationRepository) : Prop where
  versions : Versioned (fun record : ScriptRecord => record.id) (·.revision) repo.scripts repo.revisions
  accepted : ∀ id k record, Stored repo.revisions id k record → record.Accepted
  fixed : ∀ id current, repo.scripts.get? id = some current → ∀ k record, Stored repo.revisions id k record →
    record.engine = current.engine ∧ record.projectId = current.projectId

theorem ScriptsOk.unknown {repo : AutomationRepository} (h : ScriptsOk repo) {id : UUID}
    (hnew : repo.scripts.get? id = none) : repo.revisions.get? id = none := by
  cases hhistory : repo.revisions.get? id with
  | none => rfl
  | some history => simpa [hnew] using h.versions.known id history hhistory

theorem ScriptsOk.create {repo : AutomationRepository} (h : ScriptsOk repo) {newId projectId : UUID}
    {engine : Engine} {body : ScriptBody} (hnew : repo.scripts.get? newId = none) :
    ScriptsOk (repo.createScript newId projectId engine body).2 := by
  refine ⟨h.versions.create rfl rfl, ?_, ?_⟩
  · intro id k record hstored
    rcases hstored.of_create with rfl | hold
    · exact ⟨body.entrypoint_length, body.sourceRef_length, body.contentDigest_hex, body.timeoutSeconds_range.1⟩
    · exact h.accepted id k record hold
  · intro id current hcurrent k record hstored
    by_cases hcase : id = newId
    · subst hcase
      rcases hstored.of_create with rfl | hold
      · obtain rfl := Option.some.inj ((Dict.get?_set_self _ _ _).symm.trans hcurrent)
        exact ⟨rfl, rfl⟩
      · obtain ⟨history, hhistory, -⟩ := hold
        simp [h.unknown hnew] at hhistory
    · have hold : repo.scripts.get? id = some current := by
        simpa [AutomationRepository.createScript, hcase] using hcurrent
      obtain ⟨history, hhistory, hrecord⟩ := hstored
      exact h.fixed id current hold k record
        ⟨history, by simpa [AutomationRepository.createScript, hcase] using hhistory, hrecord⟩

theorem updateScript_ok {repo repo' : AutomationRepository} {scriptId : UUID} {expectedVersion : Nat}
    {body : ScriptBody} {status : AutomationScriptStatus} {updated : ScriptRecord}
    (h : repo.updateScript scriptId expectedVersion body status = .ok (updated, repo')) :
    ∃ current history, repo.scripts.get? scriptId = some current ∧
      repo.revisions.get? scriptId = some history ∧ current.update body status = .ok updated ∧
      repo' = ⟨repo.scripts.set scriptId updated, repo.revisions.set scriptId (history ++ [updated])⟩ := by
  simp only [AutomationRepository.updateScript, bind_eq_ok_iff] at h
  obtain ⟨current, hcurrent, h⟩ := h
  have hget : repo.scripts.get? scriptId = some current := by
    unfold AutomationRepository.getScript at hcurrent
    split at hcurrent
    · next hfound =>
      cases hcurrent
      exact hfound
    · cases hcurrent
  split at h
  · simp [error_bind] at h
  · rw [bind_eq_ok_iff] at h
    obtain ⟨written, hwritten, h⟩ := h
    cases hhistory : repo.revisions.get? scriptId with
    | none => simp [hhistory] at h
    | some history =>
      simp only [hhistory, pure_eq_ok_iff, Prod.mk.injEq] at h
      obtain ⟨rfl, rfl⟩ := h
      exact ⟨current, history, hget, rfl, hwritten, rfl⟩

theorem ScriptRecord.update_ok {record updated : ScriptRecord} {body : ScriptBody} {status : AutomationScriptStatus}
    (h : record.update body status = .ok updated) : updated.Accepted ∧ updated.id = record.id ∧
      updated.revision = record.revision + 1 ∧ updated.engine = record.engine ∧
      updated.projectId = record.projectId := by
  simp only [ScriptRecord.update, bind_eq_ok_iff, pure_eq_ok_iff] at h
  obtain ⟨_, -, rfl⟩ := h
  exact ⟨⟨body.entrypoint_length, body.sourceRef_length, body.contentDigest_hex, body.timeoutSeconds_range.1⟩,
    rfl, rfl, rfl, rfl⟩

theorem ScriptsOk.update {repo repo' : AutomationRepository} (h : ScriptsOk repo) {scriptId : UUID}
    {expectedVersion : Nat} {body : ScriptBody} {status : AutomationScriptStatus} {updated : ScriptRecord}
    (hok : repo.updateScript scriptId expectedVersion body status = .ok (updated, repo')) :
    ScriptsOk repo' ∧ ∀ id k record, Stored repo.revisions id k record → Stored repo'.revisions id k record := by
  obtain ⟨current, history, hcurrent, hhistory, hupdate, rfl⟩ := updateScript_ok hok
  obtain ⟨haccepted, hid, hrevision, hengine, hproject⟩ := ScriptRecord.update_ok hupdate
  obtain ⟨found, hfound, hlast⟩ := h.versions.latest scriptId current hcurrent
  obtain rfl : history = found := Option.some.inj (hhistory.symm.trans hfound)
  refine ⟨⟨h.versions.update hhistory hlast hid hrevision, ?_, ?_⟩, fun id k record hstored =>
    hstored.update hhistory⟩
  · intro id k record hstored
    rcases hstored.of_update hhistory with rfl | hold
    · exact haccepted
    · exact h.accepted id k record hold
  · intro id latest hlatest k record hstored
    by_cases hcase : id = scriptId
    · subst hcase
      obtain rfl : updated = latest := by simpa using hlatest
      rcases hstored.of_update hhistory with rfl | hold
      · exact ⟨rfl, rfl⟩
      · obtain ⟨he, hp⟩ := h.fixed id current hcurrent k record hold
        exact ⟨he.trans hengine.symm, hp.trans hproject.symm⟩
    · have hold : repo.scripts.get? id = some latest := by simpa [hcase] using hlatest
      obtain ⟨others, hothers, hrecord⟩ := hstored
      exact h.fixed id latest hold k record ⟨others, by simpa [hcase] using hothers, hrecord⟩

theorem ScriptsOk.getRevision_eq {repo : AutomationRepository} (h : ScriptsOk repo) {id : UUID} {k : Nat}
    {record : ScriptRecord} (hstored : Stored repo.revisions id k record) :
    repo.getRevision id (k + 1) = .ok record := by
  obtain ⟨history, hhistory, hrecord⟩ := hstored
  obtain ⟨current, hcurrent⟩ := Option.isSome_iff_exists.mp (h.versions.known id history hhistory)
  have hk : k < history.length := (List.getElem?_eq_some_iff.mp hrecord).1
  have hrange : ¬ (k + 1 < 1 ∨ k + 1 > history.length) := by omega
  simp only [AutomationRepository.getRevision, AutomationRepository.getScript, hcurrent, ok_bind, hhistory,
    if_neg hrange, Nat.add_sub_cancel, hrecord]
  rfl

theorem stored_of_getScriptRevision {repo : AutomationRepository} {id : UUID} {revision : Nat}
    {record : ScriptRecord} (h : repo.getRevision id revision = .ok record) :
    ∃ k, revision = k + 1 ∧ Stored repo.revisions id k record := by
  simp only [AutomationRepository.getRevision, bind_eq_ok_iff] at h
  obtain ⟨_, -, h⟩ := h
  cases hhistory : repo.revisions.get? id with
  | none => simp [hhistory] at h
  | some history =>
    simp only [hhistory] at h
    split at h
    · simp [error_bind] at h
    · next hrange =>
      cases hrecord : history[revision - 1]? with
      | none => simp [hrecord] at h
      | some found =>
        simp only [hrecord, pure_eq_ok_iff] at h
        subst h
        exact ⟨revision - 1, by omega, history, hhistory, hrecord⟩

/-! ## Environments -/

structure EnvironmentsOk (floatRepr : Rat → List Char) (repo : EnvironmentRepository) : Prop where
  shape : RepositoryShape repo
  values : ∀ id k record, Stored repo.revisions id k record → ValuesOk floatRepr record.values
  fixed : ∀ id current, repo.environments.get? id = some current → ∀ k record,
    Stored repo.revisions id k record → record.projectId = current.projectId

theorem EnvironmentsOk.create {repo repo' : EnvironmentRepository} (h : EnvironmentsOk floatRepr repo)
    {draws : Draws} (hdraws : draws.Distinct) {projectId environmentId : UUID} {name : String}
    {environmentVariables commonParameters : List ConfigurationValueInput} {record : EnvironmentRecord}
    (hnew : repo.environments.get? environmentId = none)
    (hok : repo.createEnvironment floatRepr encryptor draws projectId environmentId name environmentVariables
      commonParameters = (.ok record, repo')) :
    EnvironmentsOk floatRepr repo' ∧
      ∀ id k found, Stored repo.revisions id k found → Stored repo'.revisions id k found := by
  have hshape := h.shape.create hok
  obtain ⟨-, -, -, -, hvalues, rfl⟩ := createEnvironment_ok hok
  have hunknown : repo.revisions.get? environmentId = none := by
    cases hhistory : repo.revisions.get? environmentId with
    | none => rfl
    | some history => simpa [hnew] using h.shape.versions.known environmentId history hhistory
  refine ⟨⟨hshape, ?_, ?_⟩, fun id k found hstored => hstored.create hunknown⟩
  · intro id k found hstored
    rcases hstored.of_create with rfl | hold
    · exact buildConfigurationValues_ok hdraws hvalues
    · exact h.values id k found hold
  · intro id current hcurrent k found hstored
    by_cases hcase : id = environmentId
    · subst hcase
      obtain rfl : record = current := by simpa using hcurrent
      rcases hstored.of_create with rfl | ⟨history, hhistory, -⟩
      · rfl
      · simp [hunknown] at hhistory
    · obtain ⟨history, hhistory, hfound⟩ := hstored
      exact h.fixed id current (by simpa [hcase] using hcurrent) k found
        ⟨history, by simpa [hcase] using hhistory, hfound⟩

theorem EnvironmentsOk.update {repo repo' : EnvironmentRepository} (h : EnvironmentsOk floatRepr repo)
    {draws : Draws} (hdraws : draws.Distinct) {environmentId : UUID} {expectedVersion : Nat} {name : String}
    {status : EnvironmentStatus} {environmentVariables commonParameters : List ConfigurationValueInput}
    {record : EnvironmentRecord}
    (hok : repo.updateEnvironment floatRepr encryptor draws environmentId expectedVersion name status
      environmentVariables commonParameters = (.ok record, repo')) :
    EnvironmentsOk floatRepr repo' ∧
      ∀ id k found, Stored repo.revisions id k found → Stored repo'.revisions id k found := by
  obtain ⟨current, history, hhistory, hlast, hproject, hvalues, henvironments, hrevisions, hshape⟩ :=
    h.shape.updateEnvironment_ok hok
  have hcurrent : ∃ k, Stored repo.revisions environmentId k current :=
    ⟨history.length - 1, history, hhistory, by rw [← List.getLast?_eq_getElem?, hlast]⟩
  refine ⟨⟨hshape, ?_, ?_⟩, fun id k found hstored => by rw [hrevisions]; exact hstored.update hhistory⟩
  · intro id k found hstored
    rw [hrevisions] at hstored
    rcases hstored.of_update hhistory with rfl | hold
    · exact buildConfigurationValues_ok hdraws hvalues
    · exact h.values id k found hold
  · intro id latest hlatest k found hstored
    rw [henvironments] at hlatest
    rw [hrevisions] at hstored
    by_cases hcase : id = environmentId
    · subst hcase
      obtain rfl : record = latest := by simpa using hlatest
      rcases hstored.of_update hhistory with rfl | hold
      · rfl
      · obtain ⟨old, hold'⟩ := Option.isSome_iff_exists.mp (h.shape.versions.known id history hhistory)
        obtain ⟨k', hk'⟩ := hcurrent
        rw [hproject, h.fixed id old hold' k found hold, h.fixed id old hold' k' current hk']
    · obtain ⟨others, hothers, hfound⟩ := hstored
      exact h.fixed id latest (by simpa [hcase] using hlatest) k found
        ⟨others, by simpa [hcase] using hothers, hfound⟩

/-! ## Items -/

/-- What `normalize_plan_items` has checked of an item. -/
structure NormalItem (floatRepr : Rat → List Char) (item : TestPlanItem) : Prop where
  paired : item.environmentId.isNone = item.environmentRevision.isNone
  rows : item.dataRows ≠ []
  rowKeys : (item.dataRows.map (·.rowKey)).Nodup
  rowsSized : ∀ row ∈ item.dataRows, objectSize floatRepr row.values ≤ MAX_JSON_MAP_BYTES
  defaultsSized : objectSize floatRepr item.defaultParameters ≤ MAX_JSON_MAP_BYTES

theorem checkedObject_ok {value result : Dict String Json} {label : String}
    (h : checkedObject floatRepr value label = .ok result) :
    result = value ∧ objectSize floatRepr value ≤ MAX_JSON_MAP_BYTES := by
  simp only [checkedObject, ite_error_eq_ok_iff, Nat.not_lt, gt_iff_lt, Except.ok.injEq] at h
  exact ⟨h.2.symm, h.1⟩

theorem normalizeRows_ok {rowKeys : List String} {rows normalized : List TestPlanDataRow}
    (h : normalizeRows floatRepr rowKeys rows = .ok normalized) :
    normalized.length = rows.length ∧ (normalized.map (·.rowKey)).Nodup ∧
      (∀ row ∈ normalized, row.rowKey ∉ rowKeys) ∧
      ∀ row ∈ normalized, objectSize floatRepr row.values ≤ MAX_JSON_MAP_BYTES := by
  induction rows generalizing rowKeys normalized with
  | nil =>
    cases h
    simp
  | cons row rest ih =>
    simp only [normalizeRows, error_bind, ite_error_eq_ok_iff, bind_eq_ok_iff, pure_eq_ok_iff] at h
    obtain ⟨-, hnew, values, hvalues, others, hothers, rfl⟩ := h
    obtain ⟨rfl, hsized⟩ := checkedObject_ok hvalues
    obtain ⟨hlength, hnodup, hdisjoint, hsizes⟩ := ih hothers
    refine ⟨by simp [hlength], ?_, ?_, ?_⟩
    · rw [List.map_cons, List.nodup_cons, List.mem_map]
      refine ⟨?_, hnodup⟩
      rintro ⟨other, hother, heq⟩
      exact hdisjoint other hother (heq ▸ List.mem_cons_self)
    · rintro other (_ | ⟨_, hother⟩)
      · exact hnew
      · exact fun hmem => hdisjoint other hother (List.mem_cons_of_mem _ hmem)
    · rintro other (_ | ⟨_, hother⟩)
      · exact hsized
      · exact hsizes other hother

theorem normalizeItems_ok {itemIds : List UUID} {items normalized : List TestPlanItem}
    (h : normalizeItems floatRepr itemIds items = .ok normalized) :
    ∀ item ∈ normalized, NormalItem floatRepr item := by
  induction items generalizing itemIds normalized with
  | nil =>
    cases h
    simp
  | cons item rest ih =>
    simp only [normalizeItems, error_bind, ite_error_eq_ok_iff, bind_eq_ok_iff, pure_eq_ok_iff, ne_eq, not_not] at h
    obtain ⟨-, -, hpaired, -, rows, hrows, defaults, hdefaults, others, hothers, rfl⟩ := h
    obtain ⟨rfl, hsized⟩ := checkedObject_ok hdefaults
    obtain ⟨hlength, hnodup, -, hsizes⟩ := normalizeRows_ok hrows
    rintro x (_ | ⟨_, hx⟩)
    · refine ⟨hpaired, ?_, hnodup, hsizes, hsized⟩
      rintro rfl
      unfold rowsOrDefault at hlength
      split at hlength
      · simp at hlength
      · next hne => exact hne (List.length_eq_zero_iff.mp hlength.symm)
    · exact ih hothers x hx

theorem normalizePlanItems_ok {items normalized : List TestPlanItem}
    (h : normalizePlanItems floatRepr items = .ok normalized) :
    ∀ item ∈ normalized, NormalItem floatRepr item := by
  simp only [normalizePlanItems, error_bind, ite_error_eq_ok_iff, bind_eq_ok_iff, pure_eq_ok_iff] at h
  obtain ⟨-, -, _, hitems, -, rfl⟩ := h
  exact normalizeItems_ok hitems

/-- The active revisions an item refers to. -/
structure ItemRefs (catalog : Catalog) (projectId : UUID) (item : TestPlanItem) : Prop where
  script : ∃ k record, item.scriptRevision = k + 1 ∧
    Stored catalog.scripts.revisions item.scriptId k record ∧ record.projectId = projectId ∧
    record.status = .active ∧ (record.engine = .http ∨ item.executionPolicy.needsHttp = false)
  environment : (item.environmentId = none ∧ item.environmentRevision = none) ∨
    ∃ id k record, item.environmentId = some id ∧ item.environmentRevision = some (k + 1) ∧
      Stored catalog.environments.revisions id k record ∧ record.projectId = projectId ∧ record.status = .active

theorem itemRefs_of_validateItem {catalog : Catalog} {projectId : UUID} {item : TestPlanItem}
    (hpaired : item.environmentId.isNone = item.environmentRevision.isNone)
    (h : catalog.validateItem projectId item = .ok ()) : ItemRefs catalog projectId item := by
  simp only [Catalog.validateItem, bind_eq_ok_iff, error_bind, ite_error_eq_ok_iff, ne_eq, not_not] at h
  obtain ⟨script, hscript, hproject, hactive, hhttp, henvironment⟩ := h
  obtain ⟨k, hk, hstored⟩ := stored_of_getScriptRevision hscript
  refine ⟨⟨k, script, hk, hstored, hproject, hactive, ?_⟩, ?_⟩
  · by_cases hengine : script.engine = .http
    · exact .inl hengine
    · exact .inr (by simpa [hengine] using hhttp)
  · split at henvironment
    · next id revision hid hrevision =>
      simp only [bind_eq_ok_iff, ite_error_eq_ok_iff, not_not] at henvironment
      obtain ⟨record, hrecord, hproject', hactive', -⟩ := henvironment
      obtain ⟨k', rfl, hstored'⟩ := stored_of_getRevision hrecord
      exact .inr ⟨id, k', record, hid, hrevision, hstored', hproject', hactive'⟩
    · next hnone =>
      left
      cases hid : item.environmentId with
      | none => exact ⟨rfl, by simpa [hid] using hpaired.symm⟩
      | some id =>
        cases hrevision : item.environmentRevision with
        | none => simp [hid, hrevision] at hpaired
        | some revision => exact (hnone id revision hid hrevision).elim

theorem validateReferences_ok {catalog : Catalog} {projectId : UUID} {items : List TestPlanItem}
    (h : catalog.validateReferences projectId items = .ok ()) :
    ∀ item ∈ items, catalog.validateItem projectId item = .ok () := by
  induction items with
  | nil => simp
  | cons item rest ih =>
    simp only [Catalog.validateReferences, bind_eq_ok_iff] at h
    obtain ⟨_, hitem, hrest⟩ := h
    rintro x (_ | ⟨_, hx⟩)
    · exact hitem
    · exact ih hrest x hx

end SmartTest.Plan
