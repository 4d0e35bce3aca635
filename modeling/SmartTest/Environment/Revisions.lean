import SmartTest.Environment.Repository
import SmartTest.Lib.Except
import SmartTest.Lib.Versioned

/-!
# The revisions of environments

What an accepted call writes: every environment stands under its name, and its revisions
are numbered in their order.
-/

open SmartTest.Lib SmartTest.Run

namespace SmartTest.Environment

variable {floatRepr : Rat → List Char} {encryptor : SecretEncryptor}

structure RepositoryShape (repo : EnvironmentRepository) : Prop where
  versions : Versioned EnvironmentRecord.id EnvironmentRecord.revision repo.environments repo.revisions
  named : ∀ id record, repo.environments.get? id = some record →
    repo.names.get? (record.projectId, record.name) = some id

theorem RepositoryShape.empty : RepositoryShape .empty := ⟨.empty, by simp [EnvironmentRepository.empty]⟩

/-! ## Creating -/

theorem createEnvironment_ok {repo repo' : EnvironmentRepository} {draws : Draws} {projectId environmentId : UUID}
    {name : String} {environmentVariables commonParameters : List ConfigurationValueInput}
    {record : EnvironmentRecord}
    (h : repo.createEnvironment floatRepr encryptor draws projectId environmentId name environmentVariables
      commonParameters = (.ok record, repo')) :
    record.id = environmentId ∧ record.projectId = projectId ∧ record.revision = 1 ∧
      repo.names.get? (projectId, record.name) = none ∧
      buildConfigurationValues floatRepr encryptor draws record.projectId record.id record.revision none
        environmentVariables commonParameters = .ok record.values ∧
      repo' = ⟨repo.environments.set environmentId record, repo.revisions.set environmentId [record],
        repo.names.set (projectId, record.name) environmentId⟩ := by
  simp only [EnvironmentRepository.createEnvironment] at h
  split at h
  · simp at h
  · next created hcreated =>
    simp only [Prod.mk.injEq, Except.ok.injEq] at h
    obtain ⟨rfl, rfl⟩ := h
    simp only [EnvironmentRepository.prepareCreate, bind_eq_ok_iff, pure_eq_ok_iff, error_bind,
      ite_error_eq_ok_iff] at hcreated
    obtain ⟨normalized, hname, hfree, values, hvalues, rfl⟩ := hcreated
    exact ⟨rfl, rfl, rfl, by simpa using hfree, hvalues, rfl⟩

theorem RepositoryShape.create {repo repo' : EnvironmentRepository} (hrepo : RepositoryShape repo)
    {draws : Draws} {projectId environmentId : UUID} {name : String}
    {environmentVariables commonParameters : List ConfigurationValueInput} {record : EnvironmentRecord}
    (h : repo.createEnvironment floatRepr encryptor draws projectId environmentId name environmentVariables
      commonParameters = (.ok record, repo')) : RepositoryShape repo' := by
  obtain ⟨hid, hproject, hrevision, hname, -, rfl⟩ := createEnvironment_ok h
  refine ⟨hrepo.versions.create hid hrevision, ?_⟩
  intro id found hfound
  by_cases hcase : id = environmentId
  · subst hcase
    obtain rfl : record = found := by simpa using hfound
    rw [hproject]
    simp
  · have hname' := hrepo.named id found (by simpa [hcase] using hfound)
    have hne : (found.projectId, found.name) ≠ (projectId, record.name) := by
      intro heq
      rw [heq, hname] at hname'
      cases hname'
    simpa [hne] using hname'

/-! ## Updating -/

/-- The names after the writes of an update. -/
def renamed (names : Dict (UUID × String) UUID) (environmentId : UUID) (current updated : EnvironmentRecord) :
    Dict (UUID × String) UUID :=
  if updated.name = current.name then names
  else (names.erase (current.projectId, current.name)).set (current.projectId, updated.name) environmentId

/-- The writes of an update all go through: the name it takes back is there, and so are the revisions. -/
theorem RepositoryShape.writeUpdate_eq {repo : EnvironmentRepository} (hrepo : RepositoryShape repo)
    {environmentId : UUID} {current : EnvironmentRecord}
    (hcurrent : repo.environments.get? environmentId = some current) (updated : EnvironmentRecord) :
    ∃ revisions, repo.revisions.get? environmentId = some revisions ∧
      revisions.getLast? = some current ∧
      repo.writeUpdate environmentId current updated = (.ok updated, {
        environments := repo.environments.set environmentId updated
        revisions := repo.revisions.set environmentId (revisions ++ [updated])
        names := renamed repo.names environmentId current updated }) := by
  obtain ⟨revisions, hrevisions, hlast⟩ := hrepo.versions.latest environmentId current hcurrent
  have hname := hrepo.named environmentId current hcurrent
  refine ⟨revisions, hrevisions, hlast, ?_⟩
  by_cases hsame : updated.name = current.name
  · simp [EnvironmentRepository.writeUpdate, renamed, hsame, hrevisions]
  · simp [EnvironmentRepository.writeUpdate, renamed, hsame, hrevisions, hname]

theorem prepareUpdate_ok {repo : EnvironmentRepository} {draws : Draws} {environmentId : UUID}
    {expectedVersion : Nat} {name : String} {status : EnvironmentStatus}
    {environmentVariables commonParameters : List ConfigurationValueInput} {current updated : EnvironmentRecord}
    (h : repo.prepareUpdate floatRepr encryptor draws environmentId expectedVersion name status
      environmentVariables commonParameters = .ok (current, updated)) :
    repo.environments.get? environmentId = some current ∧
      updated.id = current.id ∧ updated.projectId = current.projectId ∧
      updated.revision = current.revision + 1 ∧
      (∀ owner ∈ repo.names.get? (current.projectId, updated.name), owner = environmentId) ∧
      buildConfigurationValues floatRepr encryptor draws updated.projectId updated.id updated.revision
        (some current) environmentVariables commonParameters = .ok updated.values := by
  simp only [EnvironmentRepository.prepareUpdate, EnvironmentRecord.update, bind_eq_ok_iff, pure_eq_ok_iff,
    error_bind, ite_error_eq_ok_iff, Prod.mk.injEq] at h
  obtain ⟨normalized, -, found, hfound, -, -, -, howner, values, hvalues, written, ⟨-, -, hwritten⟩, rfl, rfl⟩ := h
  subst hwritten
  have hget : repo.environments.get? environmentId = some found := by
    simp only [EnvironmentRepository.getEnvironment] at hfound
    split at hfound
    · next record hrecord =>
      cases hfound
      exact hrecord
    · simp at hfound
  refine ⟨hget, rfl, rfl, rfl, ?_, hvalues⟩
  intro owner hmem
  by_contra hne
  rw [Option.mem_def] at hmem
  simp [hmem, hne] at howner

/-- Renaming one environment leaves the others under their names. -/
theorem renamed_other {names : Dict (UUID × String) UUID} {environmentId id : UUID}
    {current updated : EnvironmentRecord} (hcurrent : names.get? (current.projectId, current.name) = some environmentId)
    (howner : ∀ owner ∈ names.get? (current.projectId, updated.name), owner = environmentId)
    {key : UUID × String} (hkey : names.get? key = some id) (hne : id ≠ environmentId) :
    (renamed names environmentId current updated).get? key = some id := by
  have hold : key ≠ (current.projectId, current.name) := by
    rintro rfl
    rw [hcurrent] at hkey
    exact hne (Option.some.inj hkey).symm
  have hnew : key ≠ (current.projectId, updated.name) := by
    rintro rfl
    exact hne (howner id hkey)
  by_cases hsame : updated.name = current.name
  · simpa [renamed, hsame] using hkey
  · simpa [renamed, hsame, hold, hnew] using hkey

/-- What an accepted update writes. -/
theorem RepositoryShape.updateEnvironment_ok {repo repo' : EnvironmentRepository} (hrepo : RepositoryShape repo)
    {draws : Draws} {environmentId : UUID} {expectedVersion : Nat} {name : String} {status : EnvironmentStatus}
    {environmentVariables commonParameters : List ConfigurationValueInput} {record : EnvironmentRecord}
    (h : repo.updateEnvironment floatRepr encryptor draws environmentId expectedVersion name status
      environmentVariables commonParameters = (.ok record, repo')) :
    ∃ current revisions, repo.revisions.get? environmentId = some revisions ∧
      revisions.getLast? = some current ∧ record.projectId = current.projectId ∧
      buildConfigurationValues floatRepr encryptor draws record.projectId record.id record.revision
        (some current) environmentVariables commonParameters = .ok record.values ∧
      repo'.environments = repo.environments.set environmentId record ∧
      repo'.revisions = repo.revisions.set environmentId (revisions ++ [record]) ∧ RepositoryShape repo' := by
  simp only [EnvironmentRepository.updateEnvironment] at h
  split at h
  · simp at h
  · next current updated hprepared =>
    obtain ⟨hcurrent, hid, hproject, hrevision, howner, hvalues⟩ := prepareUpdate_ok hprepared
    obtain ⟨revisions, hrevisions, hlast, hwrite⟩ := hrepo.writeUpdate_eq hcurrent updated
    rw [hwrite] at h
    simp only [Prod.mk.injEq, Except.ok.injEq] at h
    obtain ⟨rfl, rfl⟩ := h
    have hname := hrepo.named environmentId current hcurrent
    refine ⟨current, revisions, hrevisions, hlast, hproject, hvalues, rfl, rfl,
      hrepo.versions.update hrevisions hlast hid hrevision, ?_⟩
    intro id found hfound
    by_cases hcase : id = environmentId
    · subst hcase
      obtain rfl : updated = found := by simpa using hfound
      by_cases hsame : updated.name = current.name
      · simpa [renamed, hsame, hproject] using hname
      · simp [renamed, hsame, hproject]
    · exact renamed_other hname howner (hrepo.named id found (by simpa [hcase] using hfound)) hcase

/-! ## Reading -/

theorem RepositoryShape.getRevision_eq {repo : EnvironmentRepository} (hrepo : RepositoryShape repo) {id : UUID}
    {k : Nat} {record : EnvironmentRecord} (h : Stored repo.revisions id k record) :
    repo.getRevision id (k + 1) = .ok record := by
  obtain ⟨revisions, hrevisions, hrecord⟩ := h
  obtain ⟨current, hcurrent⟩ := Option.isSome_iff_exists.mp (hrepo.versions.known id revisions hrevisions)
  have hk : k < revisions.length := (List.getElem?_eq_some_iff.mp hrecord).1
  have hrange : ¬ (k + 1 < 1 ∨ k + 1 > revisions.length) := by omega
  simp only [EnvironmentRepository.getRevision, EnvironmentRepository.getEnvironment, hcurrent, ok_bind,
    hrevisions, if_neg hrange, Nat.add_sub_cancel, hrecord]
  rfl

theorem stored_of_getRevision {repo : EnvironmentRepository} {id : UUID} {revision : Nat}
    {record : EnvironmentRecord} (h : repo.getRevision id revision = .ok record) :
    ∃ k, revision = k + 1 ∧ Stored repo.revisions id k record := by
  simp only [EnvironmentRepository.getRevision, bind_eq_ok_iff] at h
  obtain ⟨_, -, h⟩ := h
  cases hrevisions : repo.revisions.get? id with
  | none => simp [hrevisions] at h
  | some revisions =>
    simp only [hrevisions] at h
    split at h
    · simp [error_bind] at h
    · next hrange =>
      cases hrecord : revisions[revision - 1]? with
      | none => simp [hrecord] at h
      | some found =>
        simp only [hrecord, pure_eq_ok_iff] at h
        subst h
        exact ⟨revision - 1, by omega, revisions, hrevisions, hrecord⟩

end SmartTest.Environment
