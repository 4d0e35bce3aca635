import SmartTest.Broker.SqlGrants

/-!
# Grants and their rows

What the constraints of the table ask of a call, and the relation of the two grant stores: the
table holds the grants in the order of the dictionary, each under its own digest.
-/

open SmartTest.Lib SmartTest.Run

namespace SmartTest.Broker

/-! ## Records and rows -/

def SecretGrantBinding.Valid (binding : SecretGrantBinding) : Prop :=
  ∀ reference ∈ binding.secretReferences, nameFits reference.name = true

@[simp] theorem categoryNamed_value (category : ConfigurationCategory) :
    categoryNamed category.value = some category := by
  cases category <;> rfl

theorem modelValidate_manifest {reference : SecretReference} (h : nameFits reference.name = true) :
    modelValidate [("category", reference.category.value), ("name", reference.name),
      ("secret_ref", reference.secretRef.text)] = some reference := by
  unfold modelValidate
  simp [List.lookup_cons, h, guard]

theorem mapM_manifest {binding : SecretGrantBinding} (h : binding.Valid) :
    (manifest binding).mapM modelValidate = some binding.secretReferences := by
  unfold manifest
  unfold SecretGrantBinding.Valid at h
  generalize binding.secretReferences = references at h ⊢
  induction references with
  | nil => rfl
  | cons reference rest ih =>
    rw [List.forall_mem_cons] at h
    rw [List.map_cons, List.mapM_cons, modelValidate_manifest h.1, ih h.2]
    rfl

theorem toRecord_toModel {record : SecretGrantRecord} (h : record.binding.Valid) :
    toRecord (toModel record) = .ok record := by
  unfold toRecord
  simp only [toModel, mapM_manifest h]

theorem value_inj {a b : ConfigurationCategory} (h : a.value = b.value) : a = b := by
  cases a <;> cases b <;> first | rfl | simp [ConfigurationCategory.value] at h

theorem manifest_inj {a b : SecretGrantBinding} (h : manifest a = manifest b) :
    a.secretReferences = b.secretReferences := by
  unfold manifest at h
  apply List.map_injective_iff.mpr ?_ h
  intro x y hxy
  simp only [List.cons.injEq, Prod.mk.injEq, true_and, and_true] at hxy
  obtain ⟨hcategory, hname, href⟩ := hxy
  obtain ⟨category, name, ⟨text⟩⟩ := x
  obtain ⟨category', name', ⟨text'⟩⟩ := y
  obtain rfl := value_inj hcategory
  obtain rfl : name = name' := hname
  obtain rfl : text = text' := href
  rfl

/-- The conditions of the `UPDATE` spell out that a live grant has the binding and its time. -/
theorem redeemable_toModel {record : SecretGrantRecord} {tokenDigest : String} {binding : SecretGrantBinding}
    {now : Instant} : GrantTable.redeemable tokenDigest binding now (toModel record) = true ↔
      record.tokenDigest = tokenDigest ∧ record.binding = binding ∧ now < record.expiresAt ∧ record.live = true := by
  unfold GrantTable.redeemable SecretGrantRecord.live
  simp only [Bool.and_eq_true, decide_eq_true_eq]
  simp only [toModel]
  constructor
  · rintro ⟨⟨⟨⟨⟨⟨⟨⟨⟨⟨⟨⟨hdigest, htask⟩, htenant⟩, hproject⟩, hrun⟩, hattempt⟩, hrunner⟩, henvironment⟩, hrevision⟩,
      hmanifest⟩, hexpires⟩, hconsumed⟩, hrevoked⟩
    refine ⟨hdigest, ?_, hexpires, hconsumed, hrevoked⟩
    have hreferences := manifest_inj hmanifest
    obtain ⟨_, _, ⟨⟨_⟩, ⟨_⟩, ⟨_⟩, ⟨_⟩, ⟨_⟩, _, ⟨_⟩, _, _⟩, _, _, _, _⟩ := record
    obtain ⟨⟨_⟩, ⟨_⟩, ⟨_⟩, ⟨_⟩, ⟨_⟩, _, ⟨_⟩, _, _⟩ := binding
    simp_all
  · rintro ⟨hdigest, rfl, hexpires, hconsumed, hrevoked⟩
    simp_all

/-! ## What the table asks of a call -/

/-- What the constraints of the table ask of a grant that the store in memory has taken. -/
structure TableAdmits (columns : Columns) (scene : Scene) (grants : Grants) (stored : SecretGrantRecord) : Prop where
  consumed : stored.consumedAt = none
  revoked : stored.revokedAt = none
  newId : ∀ other ∈ grants.values, other.id ≠ stored.id
  revision : (stored.binding.environmentId.text, stored.binding.environmentRevision) ∈ scene.environmentRevisions
  dates : stored.issuedAt < stored.expiresAt
  fits : columns (toModel stored) = true

/-- What is consumed or revoked is not so before it was issued. -/
def Meets (columns : Columns) (scene : Scene) (grants : Grants) : GrantCall → Prop
  | .issue record now => ∀ grants' stored,
    grants.issue record now (scene.runs.getAttempt record.binding.attemptId) = .ok grants' →
    grants'.get? record.tokenDigest = some stored → TableAdmits columns scene grants stored
  | .consume tokenDigest binding now => ∀ grants' record,
    grants.consume tokenDigest binding now (scene.runs.getAttempt binding.attemptId) = .ok grants' →
    grants.get? tokenDigest = some record → record.issuedAt ≤ now
  | .revoke tokenDigest now => ∀ record,
    grants.get? tokenDigest = some record → record.live = true → record.issuedAt ≤ now
  | .revokeAttempt attemptId now => ∀ record ∈ grants.values,
    record.binding.attemptId = attemptId → record.live = true → record.issuedAt ≤ now

/-- Every call of a sequence meets the constraints, on the grants there are by then. -/
def AllMeet (columns : Columns) : Grants → List (Scene × GrantCall) → Prop
  | _, [] => True
  | grants, (scene, next) :: rest =>
    Meets columns scene grants next ∧ AllMeet columns (grants.call scene next).2 rest

/-- The references of a call are values of their model. -/
def GrantCall.Valid : GrantCall → Prop
  | .issue record _ => record.binding.Valid
  | .consume _ binding _ => binding.Valid
  | .revoke _ _ | .revokeAttempt _ _ => True

/-! ## The relation of the stores -/

structure Mirrors (grants : Grants) (table : GrantTable) : Prop where
  rows : table = grants.values.map toModel
  keyed : ∀ {digest record}, grants.get? digest = some record → record.tokenDigest = digest
  valid : ∀ {digest record}, grants.get? digest = some record → record.binding.Valid
  checked : ∀ {digest record}, grants.get? digest = some record → checked (toModel record) = true

namespace Mirrors

variable {grants : Grants} {table : GrantTable}

theorem empty : Mirrors .empty [] := by
  constructor <;> simp

theorem mem_iff (h : Mirrors grants table) (row : SecretCapabilityGrantModel) :
    row ∈ table ↔ ∃ record, grants.get? record.tokenDigest = some record ∧ toModel record = row := by
  rw [h.rows, List.mem_map]
  constructor
  · rintro ⟨record, hmem, rfl⟩
    obtain ⟨digest, hget⟩ := (grants.mem_values_iff record).mp hmem
    exact ⟨record, by rw [h.keyed hget]; exact hget, rfl⟩
  · rintro ⟨record, hget, rfl⟩
    exact ⟨record, (grants.mem_values_iff record).mpr ⟨_, hget⟩, rfl⟩

theorem find? (h : Mirrors grants table) (tokenDigest : String) :
    table.find? (·.tokenDigest = tokenDigest) = (grants.get? tokenDigest).map toModel := by
  cases hfind : table.find? (·.tokenDigest = tokenDigest) with
  | some row =>
    obtain ⟨record, hget, rfl⟩ := (h.mem_iff row).mp (List.mem_of_find?_eq_some hfind)
    have hdigest : record.tokenDigest = tokenDigest := by
      have hchosen := List.find?_some hfind
      exact of_decide_eq_true hchosen
    rw [← hdigest, hget, Option.map_some]
  | none =>
    cases hget : grants.get? tokenDigest with
    | none => rfl
    | some record =>
      have hdigest := h.keyed hget
      have hmem := (h.mem_iff (toModel record)).mpr ⟨record, by rw [hdigest]; exact hget, rfl⟩
      have hnone := List.find?_eq_none.mp hfind _ hmem
      simp [toModel, hdigest] at hnone

/-- Rows that are changed in place. -/
theorem update (h : Mirrors grants table) {grants' : Grants} {chosen : SecretCapabilityGrantModel → Bool}
    {change : SecretCapabilityGrantModel → SecretCapabilityGrantModel} (mark : SecretGrantRecord → SecretGrantRecord)
    (hkeys : grants'.keys = grants.keys)
    (hget : ∀ digest record, grants.get? digest = some record →
      grants'.get? digest = some (if chosen (toModel record) then mark record else record))
    (hmark : ∀ record, toModel (mark record) = change (toModel record))
    (hdigest : ∀ record, (mark record).tokenDigest = record.tokenDigest)
    (hbinding : ∀ record, (mark record).binding = record.binding)
    (hchecked : ∀ row ∈ table, chosen row = true → Broker.checked (change row) = true) :
    Mirrors grants' (table.map fun row => if chosen row then change row else row) := by
  have hold : ∀ {digest record'}, grants'.get? digest = some record' → ∃ record,
      grants.get? digest = some record ∧ record' = if chosen (toModel record) then mark record else record := by
    intro digest record' hget'
    have hkey : digest ∈ grants.keys := hkeys ▸ (grants'.mem_keys_iff digest).mpr (by rw [hget']; rfl)
    obtain ⟨record, hrecord⟩ := Option.isSome_iff_exists.mp ((grants.mem_keys_iff digest).mp hkey)
    rw [hget _ _ hrecord, Option.some.injEq] at hget'
    exact ⟨record, hrecord, hget'.symm⟩
  constructor
  · rw [h.rows, Dict.values_of_kept hkeys hget, List.map_map, List.map_map]
    apply List.map_congr_left
    intro record _
    by_cases hchosen : chosen (toModel record) = true
    · simp [hchosen, hmark]
    · simp [hchosen]
  · intro digest record' hget'
    obtain ⟨record, hrecord, rfl⟩ := hold hget'
    split
    · rw [hdigest, h.keyed hrecord]
    · exact h.keyed hrecord
  · intro digest record' hget'
    obtain ⟨record, hrecord, rfl⟩ := hold hget'
    split
    · unfold SecretGrantBinding.Valid
      rw [hbinding]
      exact h.valid hrecord
    · exact h.valid hrecord
  · intro digest record' hget'
    obtain ⟨record, hrecord, rfl⟩ := hold hget'
    have hmem := (h.mem_iff (toModel record)).mpr ⟨record, by rw [h.keyed hrecord]; exact hrecord, rfl⟩
    split
    · next hchosen =>
      rw [hmark]
      exact hchecked _ hmem hchosen
    · exact h.checked hrecord

end Mirrors

/-! ## Statements -/

theorem attemptValue_inj {a b : AttemptState} (h : a.value = b.value) : a = b := by
  cases a <;> cases b <;> first | rfl | simp [AttemptState.value] at h

theorem active_value (state : AttemptState) :
    state.value ∈ ACTIVE_SECRET_STATES.map (·.value) ↔ state ∈ ACTIVE_SECRET_STATES := by
  rw [List.mem_map]
  constructor
  · rintro ⟨active, hmem, heq⟩
    rw [← attemptValue_inj heq]
    exact hmem
  · exact fun hmem => ⟨state, hmem, rfl⟩

/-- The two stores look at an attempt alike. -/
theorem validAttempt_row (scene : Scene) (binding : SecretGrantBinding) (now : Instant) :
    GrantTable.validAttempt scene binding now =
      (validAttempt (scene.runs.getAttempt binding.attemptId) binding now).map AttemptModel.of := by
  unfold GrantTable.validAttempt Scene.attemptRow RunRepository.getAttempt RunRepository.getAttemptLocked
  obtain ⟨⟨_⟩, ⟨_⟩, ⟨_⟩, ⟨run⟩, ⟨attempt⟩, _, ⟨_⟩, _, _⟩ := binding
  simp only
  cases hfound : scene.runs.attempts.get? ⟨attempt⟩ with
  | none => rfl
  | some record =>
    have hrun : record.runId.text ≠ run ↔ record.runId ≠ ⟨run⟩ := by
      obtain ⟨text⟩ := record.runId
      simp
    simp only [Option.map_some, AttemptModel.of, active_value, hrun, validAttempt]
    split
    · rfl
    · rfl

namespace GrantTable

variable {columns : Columns} {scene : Scene} {table table' : GrantTable}

theorem rejecting_eq_ok_iff {α : Type} {x : Except Exn α} {a : α} : rejecting x = .ok a ↔ x = .ok a := by
  cases x with
  | ok b => rfl
  | error e =>
    unfold rejecting
    constructor
    · intro h
      cases h
    · intro h
      cases h

theorem rejecting_error {α : Type} {x : Except Exn α} {e : Exn} (h : rejecting x = .error e) :
    e = capabilityRejected := by
  cases x with
  | ok b => cases h
  | error e' =>
    cases h
    rfl

theorem insert_eq_ok_iff {row : SecretCapabilityGrantModel} : insert columns scene table row = .ok table' ↔
    (∀ other ∈ table, other.id ≠ row.id ∧ other.tokenDigest ≠ row.tokenDigest) ∧
      (scene.attemptRow row.attemptId).isSome = true ∧
      (row.environmentId, row.environmentRevision) ∈ scene.environmentRevisions ∧ checked row = true ∧
      columns row = true ∧ table ++ [row] = table' := by
  unfold insert
  simp only [bind, Except.bind, pure, Except.pure]
  split_ifs with hsame hkeys hchecks
  · simp only [false_iff]
    rintro ⟨hnew, -⟩
    obtain ⟨other, hmem, hother⟩ := List.any_eq_true.mp hsame
    obtain ⟨hid, hdigest⟩ := hnew other hmem
    simp [hid, hdigest] at hother
  · simp only [false_iff]
    rintro ⟨-, hattempt, hrevision, -⟩
    obtain ⟨attempt, hattempt⟩ := Option.isSome_iff_exists.mp hattempt
    simp [hattempt, hrevision] at hkeys
  · simp only [false_iff]
    rintro ⟨-, -, -, hchecked, hcolumns, -⟩
    simp [hchecked, hcolumns] at hchecks
  · simp only [Except.ok.injEq]
    simp only [Bool.or_eq_true, Bool.not_eq_true', not_or, Bool.not_eq_false] at hchecks hkeys
    constructor
    · intro htable
      refine ⟨?_, ?_, ?_, hchecks.1, hchecks.2, htable⟩
      · intro other hmem
        have hnot := (List.any_eq_false.mp (Bool.eq_false_iff.mpr hsame)) other hmem
        simpa using hnot
      · cases hattempt : scene.attemptRow row.attemptId with
        | none => simp [hattempt] at hkeys
        | some attempt => rfl
      · simpa using hkeys.2
    · exact fun h => h.2.2.2.2.2

theorem update_eq_ok_iff {chosen : SecretCapabilityGrantModel → Bool}
    {change : SecretCapabilityGrantModel → SecretCapabilityGrantModel} {count : Nat} :
    update table chosen change = .ok (count, table') ↔
      (∀ row ∈ table, chosen row = true → checked (change row) = true) ∧ table.countP chosen = count ∧
        (table.map fun row => if chosen row then change row else row) = table' := by
  unfold update
  simp only [bind, Except.bind, pure, Except.pure]
  split_ifs with hfails
  · simp only [false_iff]
    rintro ⟨hchecked, -⟩
    obtain ⟨row, hrow, hnot⟩ := List.any_eq_true.mp hfails
    obtain ⟨hmem, hchosen⟩ := List.mem_filter.mp hrow
    simp [hchecked row hmem hchosen] at hnot
  · simp only [Except.ok.injEq, Prod.mk.injEq]
    constructor
    · rintro ⟨hcount, htable⟩
      refine ⟨?_, hcount, htable⟩
      intro row hmem hchosen
      have hnot := List.any_eq_false.mp (Bool.eq_false_iff.mpr hfails) row (List.mem_filter.mpr ⟨hmem, hchosen⟩)
      simpa using hnot
    · exact fun h => h.2

end GrantTable

end SmartTest.Broker
