import SmartTest.Asset.Runs
import SmartTest.Asset.Sql
import SmartTest.Plan.SqlTables

/-!
# Scripts as plans read them

The repository of scripts that plans read is the one of the assets without names, descriptions,
times and links: seen that way, a call of the assets is the call of that repository, in memory
and in SQL.
-/

open SmartTest.Lib SmartTest.Run SmartTest.Plan

namespace SmartTest.Asset

/-- The values of an accepted body. -/
def ScriptValues.ofBody (name description : String) (body : ScriptBody) : ScriptValues where
  name := name
  description := description
  entrypoint := body.entrypoint
  sourceRef := body.sourceRef
  contentDigest := body.contentDigest
  timeoutSeconds := body.timeoutSeconds

/-- The fields that plans read. -/
def Record.forPlans (record : AutomationScriptRecord) : ScriptRecord where
  id := record.id
  revision := record.revision
  engine := record.fixed
  entrypoint := record.values.entrypoint
  sourceRef := record.values.sourceRef
  contentDigest := record.values.contentDigest
  timeoutSeconds := record.values.timeoutSeconds
  projectId := record.projectId
  status := record.status
  stateVersion := record.stateVersion

variable {newId projectId scriptId : UUID} {engine : Engine} {name description : String} {body : ScriptBody}
  {expectedVersion : Nat} {status : AutomationScriptStatus} {now : Instant}

theorem forPlans_update (record : AutomationScriptRecord) :
    (record.update scriptKind (.ofBody name description body) status now).map Record.forPlans =
      record.forPlans.update body status := by
  have hstatus : record.forPlans.status = record.status := rfl
  unfold Record.update ScriptRecord.update
  rw [hstatus]
  show Except.map _ (nextScriptStatus record.status status >>= _) = _
  cases nextScriptStatus record.status status <;> rfl

theorem missingRevision_script (scriptId : UUID) (revision : Nat) : scriptKind.missingRevision scriptId revision =
    Plan.AutomationRepository.scriptNotFound ("automation script " ++ scriptId.text ++ " revision " ++
      toString revision ++ " was not found") := rfl

/-! ## In memory -/

namespace AutomationRepository

def forPlans (repo : AutomationRepository) : Plan.AutomationRepository where
  scripts := repo.scripts.records.mapValues Record.forPlans
  revisions := repo.scripts.revisions.mapValues (List.map Record.forPlans)

variable (repo : AutomationRepository)

theorem forPlans_createScript :
    (repo.createScript newId projectId engine (.ofBody name description body) now).2.forPlans =
      (repo.forPlans.createScript newId projectId engine body).2 := by
  simp only [forPlans, createScript, Store.create, Plan.AutomationRepository.createScript, Dict.mapValues_set]
  rfl

theorem linkTestCase_scripts {repo after : AutomationRepository} {testCases : QualityRepository} {testCaseId : UUID}
    {answer : LinkRecord × Bool} (h : repo.linkTestCase testCases testCaseId scriptId now = .ok (answer, after)) :
    after.scripts = repo.scripts := by
  simp only [linkTestCase, bind_eq_ok_iff] at h
  obtain ⟨testCase, -, script, -, -, -, h⟩ := h
  split at h
  · cases h
    rfl
  · obtain ⟨-, -, h⟩ := (bind_eq_ok_iff _ _ _).mp h
    cases h
    rfl

theorem forPlans_getScript (scriptId : UUID) :
    (repo.getScript scriptId).map Record.forPlans = repo.forPlans.getScript scriptId := by
  unfold getScript Store.get Plan.AutomationRepository.getScript forPlans
  rw [Dict.get?_mapValues]
  cases repo.scripts.records.get? scriptId <;> rfl

theorem forPlans_updateScript :
    (repo.updateScript scriptId expectedVersion (.ofBody name description body) status now).map
        (fun a => (a.1.forPlans, a.2.forPlans)) =
      repo.forPlans.updateScript scriptId expectedVersion body status := by
  unfold updateScript Store.update Plan.AutomationRepository.updateScript
  rw [← forPlans_getScript]
  unfold getScript
  cases repo.scripts.get scriptKind scriptId with
  | error e => rfl
  | ok current =>
    have hversion : current.forPlans.stateVersion = current.stateVersion := rfl
    have hnext := @forPlans_update name description body status now current
    have hrevisions : repo.forPlans.revisions.get? scriptId =
        (repo.scripts.revisions.get? scriptId).map (List.map Record.forPlans) := Dict.get?_mapValues _ _ _
    by_cases hexpected : current.stateVersion = expectedVersion
    · cases hupdate : current.update scriptKind (.ofBody name description body) status now with
      | error e =>
        rw [hupdate] at hnext
        simp [Except.map, ok_bind, error_bind, checkVersion, hversion, hexpected, hupdate, ← hnext]
      | ok updated =>
        rw [hupdate] at hnext
        cases hstored : repo.scripts.revisions.get? scriptId with
        | none =>
          simp [Except.map, ok_bind, error_bind, checkVersion, hversion, hexpected, hupdate, ← hnext, hrevisions, hstored]
        | some revisions =>
          simp [Except.map, ok_bind, checkVersion, hversion, hexpected, hupdate, ← hnext, hstored, forPlans,
            Dict.get?_mapValues, Dict.mapValues_set, pure, Except.pure]
    · simp [Except.map, ok_bind, error_bind, checkVersion, hversion, hexpected]

theorem forPlans_getRevision (scriptId : UUID) (revision : Nat) :
    (repo.getRevision scriptId revision).map Record.forPlans = repo.forPlans.getRevision scriptId revision := by
  have hrevisions : repo.forPlans.revisions.get? scriptId =
      (repo.scripts.revisions.get? scriptId).map (List.map Record.forPlans) := Dict.get?_mapValues _ _ _
  unfold getRevision Store.getRevision Store.listRevisions Plan.AutomationRepository.getRevision
  rw [← forPlans_getScript, hrevisions]
  unfold getScript
  cases repo.scripts.get scriptKind scriptId with
  | error e => rfl
  | ok current =>
    cases repo.scripts.revisions.get? scriptId with
    | none => rfl
    | some revisions =>
      have hrange : ((revision : Int) < 1 ∨ (revision : Int) > revisions.length) ↔
          (revision < 1 ∨ revision > revisions.length) := by omega
      simp only [Except.map, ok_bind, Option.map_some, List.length_map, List.getElem?_map, missingRevision_script]
      by_cases hout : revision < 1 ∨ revision > revisions.length
      · rw [if_pos (hrange.mpr hout), if_pos hout]
        rfl
      · rw [if_neg (hrange.not.mpr hout), if_neg hout, Int.toNat_natCast]
        cases revisions[revision - 1]? <;> rfl

end AutomationRepository

/-! ## Over a run -/

/-- A call that writes to the repository that plans read. -/
inductive ScriptCall where
  | create (newId projectId : UUID) (engine : Engine) (body : ScriptBody)
  | update (scriptId : UUID) (expectedVersion : Nat) (body : ScriptBody) (status : AutomationScriptStatus)

def ScriptCall.on (repo : Plan.AutomationRepository) : ScriptCall → Plan.AutomationRepository
  | .create newId projectId engine body => (repo.createScript newId projectId engine body).2
  | .update scriptId expectedVersion body status =>
    (written repo (repo.updateScript scriptId expectedVersion body status)).2

/-- What the plans see of a call on an accepted body. -/
inductive SeenAs : AssetCall → Option ScriptCall → Prop where
  | create (newId projectId : UUID) (engine : Engine) (name description : String) (body : ScriptBody) (now : Instant) :
    SeenAs (.createScript newId projectId engine (.ofBody name description body) now)
      (some (.create newId projectId engine body))
  | update (scriptId : UUID) (expectedVersion : Nat) (name description : String) (body : ScriptBody)
      (status : AutomationScriptStatus) (now : Instant) :
    SeenAs (.updateScript scriptId expectedVersion (.ofBody name description body) status now)
      (some (.update scriptId expectedVersion body status))
  | other {call : AssetCall} (hcreate : ∀ newId projectId engine values now,
      call ≠ .createScript newId projectId engine values now)
    (hupdate : ∀ scriptId expectedVersion values status now,
      call ≠ .updateScript scriptId expectedVersion values status now) : SeenAs call none

/-- A call is, for the plans, what they see of it. -/
theorem forPlans_on {assets : Assets} {call : AssetCall} {seen : Option ScriptCall} (h : SeenAs call seen) :
    (assets.on call).2.automation.forPlans = seen.toList.foldl ScriptCall.on assets.automation.forPlans := by
  cases h with
  | create newId projectId engine name description body now =>
    exact AutomationRepository.forPlans_createScript assets.automation
  | update scriptId expectedVersion name description body status now =>
    have hcall := @AutomationRepository.forPlans_updateScript scriptId name description body expectedVersion status now
      assets.automation
    simp only [Assets.on, Assets.onAutomation, Option.toList_some, List.foldl_cons, List.foldl_nil, ScriptCall.on,
      ← hcall]
    cases assets.automation.updateScript scriptId expectedVersion (.ofBody name description body) status now with
    | error e => rfl
    | ok answer => rfl
  | other hcreate hupdate =>
    cases call with
    | createScript newId projectId engine values now => exact absurd rfl (hcreate newId projectId engine values now)
    | updateScript scriptId expectedVersion values status now =>
      exact absurd rfl (hupdate scriptId expectedVersion values status now)
    | linkTestCase testCaseId scriptId now =>
      simp only [Assets.on, Assets.onAutomation]
      cases hlink : assets.automation.linkTestCase assets.quality testCaseId scriptId now with
      | error e => rfl
      | ok answer =>
        have hscripts := AutomationRepository.linkTestCase_scripts hlink
        simp only [written, AutomationRepository.forPlans, hscripts]
        rfl
    | _ => rfl

/-- After any run of calls, plans read the scripts that the same writes leave in their own repository. -/
theorem forPlans_run {calls : List AssetCall} {seen : List (Option ScriptCall)} (hseen : List.Forall₂ SeenAs calls seen)
    {x y : History} (hrun : runSteps History.step x calls = some y) :
    y.assets.automation.forPlans = (seen.flatMap Option.toList).foldl ScriptCall.on x.assets.automation.forPlans := by
  induction hseen generalizing x with
  | nil =>
    obtain rfl := Option.some.inj hrun
    rfl
  | cons hcall hrest ih =>
    obtain ⟨next, hstep, hrun⟩ := runSteps_cons.mp hrun
    unfold History.step at hstep
    split at hstep
    · cases hstep
    · obtain rfl := Option.some.inj hstep
      rw [ih hrun, List.flatMap_cons, List.foldl_append, ← forPlans_on hcall]

/-! ## In SQL -/

namespace SqlAssets

/-- The tables of scripts as plans have them, beside the other tables. -/
def forPlans (sql : SqlAssets) (tables : Tables) : Tables :=
  { tables with
    scripts := sql.scripts.rows.mapValues fun record => Tables.scriptModel record.forPlans
    scriptRevisions := sql.scripts.revisions.mapValues fun row =>
      ⟨row.values.entrypoint, row.values.sourceRef, row.values.contentDigest, row.values.timeoutSeconds, row.status⟩ }

variable {db : Database} {sql after : SqlAssets} {record : AutomationScriptRecord} (tables : Tables)

/-- A row and its revision are written as `putScript` writes them. -/
theorem forPlans_insert {scripts : SqlStore Engine Unit ScriptValues AutomationScriptStatus}
    (h : sql.scripts.insert db scriptColumns record = .ok scripts) :
    forPlans { sql with scripts := scripts } tables = (sql.forPlans tables).putScript record.forPlans := by
  unfold SqlStore.insert at h
  split at h
  · cases h
  · cases h
    simp only [forPlans, Dict.mapValues_set, Tables.putScript]
    rfl

theorem forPlans_createScript
    (h : sql.createScript db newId projectId engine (.ofBody name description body) now = .ok (record, after)) :
    after.forPlans tables = (sql.forPlans tables).createScript newId projectId engine body := by
  simp only [createScript, SqlStore.create, bind_eq_ok_iff, pure_eq_ok_iff, error_bind, ite_error_eq_ok_iff,
    Prod.mk.injEq] at h
  obtain ⟨scripts, ⟨-, stored, hinsert, rfl⟩, rfl, rfl⟩ := h
  exact forPlans_insert tables hinsert

theorem forPlans_updateScript (hkeyed : ∀ current, sql.scripts.rows.get? scriptId = some current → current.id = scriptId)
    (h : sql.updateScript db scriptId expectedVersion (.ofBody name description body) status now = .ok (record, after)) :
    (sql.forPlans tables).updateScript scriptId expectedVersion body status = .ok (after.forPlans tables) := by
  simp only [updateScript, SqlStore.update, bind_eq_ok_iff, pure_eq_ok_iff, Prod.mk.injEq] at h
  obtain ⟨answer, ⟨current, hget, _, hversion, updated, hupdate, stored, hinsert, rfl⟩, rfl, rfl⟩ := h
  have hrow : sql.scripts.rows.get? scriptId = some current := by
    unfold SqlStore.get at hget
    split at hget
    · next found hfound =>
      cases hget
      exact hfound
    · cases hget
  have hmodel : (sql.forPlans tables).scripts.get? scriptId = some (Tables.scriptModel current.forPlans) := by
    simp only [forPlans, Dict.get?_mapValues, hrow, Option.map_some]
  have hrecord : Tables.scriptRecord scriptId (Tables.scriptModel current.forPlans) = current.forPlans := by
    rw [← hkeyed current hrow]
    rfl
  have hsame : ¬ current.forPlans.stateVersion ≠ expectedVersion := not_not.mpr (checkVersion_ok_iff.mp hversion)
  have hnext := @forPlans_update name description body status now current
  rw [hupdate] at hnext
  rw [Tables.updateScript, hmodel]
  simp only [hrecord, if_neg hsame, ← hnext]
  exact congrArg Except.ok (forPlans_insert tables hinsert).symm

end SqlAssets

end SmartTest.Asset
