import SmartTest.Asset.Agreement
import SmartTest.Asset.Transactions

/-!
# Asset calls side by side answer one after the other

Whatever a call has read of the rows that it does not lock, later commits leave as it counts on
it. So a call answers what it would answer alone at its last operation.
-/

open SmartTest.Lib SmartTest.Run SmartTest.Plan

namespace SmartTest.Asset

variable {Fixed Copied Values Status : Type} {db : Database} {columns : Columns Fixed Copied} {kind : Kind Status}

/-! ## One family -/

namespace SqlStore

variable {store after : SqlStore Fixed Copied Values Status} {id : UUID} {expectedVersion : Nat} {values : Values}
  {status : Status} {now : Instant} {updated : Record Fixed Values Status}

/-- Every row is at its id, with times as the columns keep them. -/
def Kept (db : Database) (store : SqlStore Fixed Copied Values Status) : Prop :=
  ∀ id record, store.rows.get? id = some record → record.id = id ∧ record.kept db = record

/-- Every row is still there, and but for one that was locked it is the same. -/
def Moves (locked : UUID → Prop) (store after : SqlStore Fixed Copied Values Status) : Prop :=
  ∀ id record, store.rows.get? id = some record → ∃ record', after.rows.get? id = some record' ∧
    record'.SameAsset record ∧ (¬ locked id → record' = record)

theorem Moves.refl (locked : UUID → Prop) (store : SqlStore Fixed Copied Values Status) : Moves locked store store :=
  fun _ record hrecord => ⟨record, hrecord, ⟨rfl, rfl, rfl, rfl⟩, fun _ => rfl⟩

theorem get_ok_iff {record : Record Fixed Values Status} :
    store.get kind id = .ok record ↔ store.rows.get? id = some record := by
  unfold SqlStore.get
  cases store.rows.get? id <;> simp

theorem update_of_changed (db : Database) (columns : Columns Fixed Copied)
    (h : store.changed kind id expectedVersion values status now = .ok updated) :
    store.update db columns kind id expectedVersion values status now =
      (store.insert db columns updated).map fun rows => (updated, rows) := by
  unfold changed at h
  simp only [bind_eq_ok_iff] at h
  obtain ⟨current, hcurrent, _, hversion, hupdate⟩ := h
  unfold SqlStore.update
  rw [hcurrent, ok_bind, hversion, ok_bind, hupdate, ok_bind]
  cases store.insert db columns updated <;> rfl

theorem update_of_error {e : Exn} (h : store.changed kind id expectedVersion values status now = .error e) :
    store.update db columns kind id expectedVersion values status now = .error e := by
  unfold changed at h
  unfold SqlStore.update
  cases hcurrent : store.get kind id with
  | error e' => simpa [hcurrent, error_bind] using h
  | ok current =>
    rw [hcurrent, ok_bind] at h
    cases hversion : checkVersion current.stateVersion expectedVersion with
    | error e' => simpa [hversion, ok_bind, error_bind] using h
    | ok _ =>
      rw [hversion, ok_bind] at h
      rw [ok_bind, hversion, ok_bind, h, error_bind]

/-- What an update makes of a row depends on that row. -/
theorem changed_congr (h : after.rows.get? id = store.rows.get? id) :
    after.changed kind id expectedVersion values status now = store.changed kind id expectedVersion values status now := by
  unfold changed SqlStore.get
  rw [h]

theorem insert_ok (h : store.insert db columns updated = .ok after) :
    after.rows = store.rows.set updated.id (updated.kept db) := by
  unfold SqlStore.insert at h
  split at h
  · cases h
  · obtain rfl := Except.ok.inj h
    rfl

theorem Kept.insert (hkept : store.Kept db) (h : store.insert db columns updated = .ok after) : after.Kept db := by
  intro other record hrecord
  rw [insert_ok h, Dict.get?_set] at hrecord
  split at hrecord
  · next hother =>
    obtain rfl := Option.some.inj hrecord
    exact ⟨hother.symm, updated.kept_kept db⟩
  · exact hkept other record hrecord

theorem Kept.update (hkept : store.Kept db)
    (hchanged : store.changed kind id expectedVersion values status now = .ok updated)
    (h : store.insert db columns updated = .ok after) : Moves (· = id) store after := by
  unfold changed at hchanged
  simp only [bind_eq_ok_iff] at hchanged
  obtain ⟨current, hcurrent, _, _, hupdate⟩ := hchanged
  have hrow := get_ok_iff.mp hcurrent
  obtain ⟨hid, htimes⟩ := hkept id current hrow
  obtain ⟨hsame, -, -, -⟩ := Record.update_same hupdate
  have hupdated : updated.id = id := hsame.1.trans hid
  intro other record hrecord
  rw [insert_ok h, hupdated, Dict.get?_set]
  by_cases hother : other = id
  · subst hother
    obtain rfl := Option.some.inj (hrow.symm.trans hrecord)
    refine ⟨_, if_pos rfl, ⟨hsame.1, hsame.2.1, hsame.2.2.1, ?_⟩, fun hne => absurd rfl hne⟩
    have hcreated : db.keep current.createdAt = current.createdAt := congrArg (·.createdAt) htimes
    simp only [Record.kept, hsame.2.2.2, hcreated]
  · exact ⟨record, by rw [if_neg hother, hrecord], ⟨rfl, rfl, rfl, rfl⟩, fun _ => rfl⟩

theorem create_ok {newId projectId : UUID} {fixed : Fixed} {record : Record Fixed Values Status} (hkept : store.Kept db)
    (h : store.create db columns kind newId projectId fixed values now = .ok (record, after)) :
    after.Kept db ∧ ∀ locked, Moves locked store after := by
  unfold SqlStore.create at h
  simp only at h
  split at h
  · cases h
  next hfree =>
  rw [Option.not_isSome_iff_eq_none] at hfree
  simp only [bind_eq_ok_iff, pure_eq_ok_iff, Prod.mk.injEq] at h
  obtain ⟨_, hinsert, -, rfl⟩ := h
  refine ⟨hkept.insert hinsert, ?_⟩
  intro locked other found hfound
  have hne : other ≠ newId := by
    rintro rfl
    cases hfree.symm.trans hfound
  refine ⟨found, ?_, ⟨rfl, rfl, rfl, rfl⟩, fun _ => rfl⟩
  rw [insert_ok hinsert, Dict.get?_set, if_neg (by simpa [Kind.first] using hne), hfound]

/-- The revisions of an asset take from its row what no update changes. -/
theorem revisionsOf_same {current record : Record Fixed Values Status} (h : record.SameAsset current) :
    store.revisionsOf columns current id = store.revisionsOf columns record id := by
  unfold revisionsOf revisionRecord
  rw [h.1, h.2.1, h.2.2.1, h.2.2.2]

theorem revisionOf_same {current record : Record Fixed Values Status} (h : record.SameAsset current) (revision : Int) :
    store.revisionOf columns kind current id revision = store.revisionOf columns kind record id revision := by
  unfold revisionOf revisionRecord
  rw [h.1, h.2.1, h.2.2.1, h.2.2.2]

theorem listRevisions_eq :
    store.listRevisions columns kind id = (store.get kind id).map fun current => store.revisionsOf columns current id := by
  unfold listRevisions revisionsOf
  cases store.get kind id <;> rfl

theorem getRevision_eq (revision : Int) : store.getRevision columns kind id revision =
    store.get kind id >>= fun current => store.revisionOf columns kind current id revision := rfl

end SqlStore

/-! ## What a call counts on -/

/-- Both ends of a trace link are there, in one project. -/
def TraceEnds (sql : SqlAssets) (requirementId testCaseId : UUID) : Prop :=
  ∃ requirement testCase, sql.requirements.rows.get? requirementId = some requirement ∧
    sql.testCases.rows.get? testCaseId = some testCase ∧ requirement.projectId = testCase.projectId

/-- Both ends of a script link are there and may be linked, and no link is there. -/
def Linkable (sql : SqlAssets) (testCaseId scriptId : UUID) : Prop :=
  ∃ testCase script, sql.testCases.rows.get? testCaseId = some testCase ∧ sql.scripts.rows.get? scriptId = some script ∧
    validateProject testCase script = .ok () ∧ validateLinkable testCase script = .ok () ∧
    sql.scriptLinks.get? (testCaseId, scriptId) = none

/-- What a call has read still holds, as far as it counts on it. -/
def Stands (sql : SqlAssets) : AssetCall → Progress → Prop
  | _, .begun => True
  | .updateRequirement requirementId values status expectedVersion now, .requirementChanged updated =>
    sql.requirements.changed requirementKind requirementId expectedVersion values status now = .ok updated
  | .updateTestCase testCaseId expectedVersion values status now, .testCaseChanged updated =>
    sql.testCases.changed testCaseKind testCaseId expectedVersion values status now = .ok updated
  | .updateScript scriptId expectedVersion values status now, .scriptChanged updated =>
    sql.scripts.changed scriptKind scriptId expectedVersion values status now = .ok updated
  | .linkRequirementTestCase requirementId _ _, .requirementRead current =>
    ∃ record, sql.requirements.rows.get? requirementId = some record ∧ record.SameAsset current
  | .linkRequirementTestCase requirementId testCaseId _, .traceEnds => TraceEnds sql requirementId testCaseId
  | .linkRequirementTestCase requirementId testCaseId _, .unlinked => TraceEnds sql requirementId testCaseId
  | .linkRequirementTestCase requirementId testCaseId _, .inserted =>
    TraceEnds sql requirementId testCaseId ∧ sql.traceLinks.get? (requirementId, testCaseId) = none
  | .linkRequirementTestCase requirementId testCaseId _, .rejected =>
    TraceEnds sql requirementId testCaseId ∧ (sql.traceLinks.get? (requirementId, testCaseId)).isSome
  | .linkTestCase testCaseId _ _, .testCaseRead testCase => sql.testCases.rows.get? testCaseId = some testCase
  | .linkTestCase testCaseId scriptId _, .scriptEnds testCase script =>
    sql.testCases.rows.get? testCaseId = some testCase ∧ sql.scripts.rows.get? scriptId = some script ∧
      validateProject testCase script = .ok ()
  | .linkTestCase testCaseId scriptId _, .unlinked => Linkable sql testCaseId scriptId
  | .linkTestCase testCaseId scriptId _, .inserted => Linkable sql testCaseId scriptId
  | .listRequirementRevisions requirementId, .requirementRead current =>
    ∃ record, sql.requirements.rows.get? requirementId = some record ∧ record.SameAsset current
  | .listTestCaseRevisions testCaseId, .testCaseRead current =>
    ∃ record, sql.testCases.rows.get? testCaseId = some record ∧ record.SameAsset current
  | .listRevisions scriptId, .scriptRead current =>
    ∃ record, sql.scripts.rows.get? scriptId = some record ∧ record.SameAsset current
  | .getRevision scriptId _, .scriptRead current =>
    ∃ record, sql.scripts.rows.get? scriptId = some record ∧ record.SameAsset current
  | .listRequirementTestCases requirementId, .requirementRead current =>
    ∃ record, sql.requirements.rows.get? requirementId = some record ∧ record.SameAsset current
  | .listTestCaseScripts testCaseId, .testCaseRead current =>
    ∃ record, sql.testCases.rows.get? testCaseId = some record ∧ record.SameAsset current
  | _, _ => False

namespace SqlAssets

/-- The rows that are written are at their ids. -/
structure Kept (db : Database) (sql : SqlAssets) : Prop where
  requirements : sql.requirements.Kept db
  testCases : sql.testCases.Kept db
  scripts : sql.scripts.Kept db

/-- What a commit leaves to the others, by the rows that it had locked. -/
structure Moves (locked : List Row) (sql after : SqlAssets) : Prop where
  requirements : SqlStore.Moves (Row.requirement · ∈ locked) sql.requirements after.requirements
  testCases : SqlStore.Moves (Row.testCase · ∈ locked) sql.testCases after.testCases
  scripts : SqlStore.Moves (Row.script · ∈ locked) sql.scripts after.scripts
  traces : ∀ key, (sql.traceLinks.get? key).isSome → (after.traceLinks.get? key).isSome
  newTraces : ∀ key, Row.traceLink key ∉ locked → sql.traceLinks.get? key = none → after.traceLinks.get? key = none
  newUses : ∀ key, Row.testCase key.1 ∉ locked → sql.scriptLinks.get? key = none → after.scriptLinks.get? key = none

theorem Moves.refl (locked : List Row) (sql : SqlAssets) : Moves locked sql sql :=
  ⟨.refl _ _, .refl _ _, .refl _ _, fun _ h => h, fun _ _ h => h, fun _ _ h => h⟩

end SqlAssets

theorem SqlStore.Moves.same {locked : UUID → Prop} {store after : SqlStore Fixed Copied Values Status}
    (h : SqlStore.Moves locked store after) {id : UUID} {current : Record Fixed Values Status}
    (hsame : ∃ record, store.rows.get? id = some record ∧ record.SameAsset current) :
    ∃ record, after.rows.get? id = some record ∧ record.SameAsset current := by
  obtain ⟨record, hrecord, hsame⟩ := hsame
  obtain ⟨record', hrecord', hsame', -⟩ := h id record hrecord
  exact ⟨record', hrecord', hsame'.trans hsame⟩

theorem SqlStore.Moves.kept {locked : UUID → Prop} {store after : SqlStore Fixed Copied Values Status}
    (h : SqlStore.Moves locked store after) {id : UUID} (hid : ¬ locked id) {record : Record Fixed Values Status}
    (hrecord : store.rows.get? id = some record) : after.rows.get? id = some record := by
  obtain ⟨record', hrecord', -, hkept⟩ := h id record hrecord
  rw [hrecord', hkept hid]

theorem SqlStore.Moves.changed {locked : UUID → Prop} {store after : SqlStore Fixed Copied Values Status}
    (h : SqlStore.Moves locked store after) {id : UUID} (hid : ¬ locked id) {expectedVersion : Nat} {values : Values}
    {status : Status} {now : Instant} {updated : Record Fixed Values Status}
    (hchanged : store.changed kind id expectedVersion values status now = .ok updated) :
    after.changed kind id expectedVersion values status now = .ok updated := by
  rw [← hchanged]
  apply SqlStore.changed_congr
  unfold SqlStore.changed at hchanged
  obtain ⟨current, hcurrent, -⟩ := (bind_eq_ok_iff _ _ _).mp hchanged
  rw [h.kept hid (SqlStore.get_ok_iff.mp hcurrent), SqlStore.get_ok_iff.mp hcurrent]

theorem TraceEnds.moves {sql after : SqlAssets} {locked : List Row} {requirementId testCaseId : UUID}
    (h : TraceEnds sql requirementId testCaseId) (hmoves : SqlAssets.Moves locked sql after) :
    TraceEnds after requirementId testCaseId := by
  obtain ⟨requirement, testCase, hrequirement, htestCase, hproject⟩ := h
  obtain ⟨requirement', hrequirement', hsame, -⟩ := hmoves.requirements _ _ hrequirement
  obtain ⟨testCase', htestCase', hsame', -⟩ := hmoves.testCases _ _ htestCase
  exact ⟨requirement', testCase', hrequirement', htestCase', hsame.2.1.trans (hproject.trans hsame'.2.1.symm)⟩

theorem Linkable.moves {sql after : SqlAssets} {locked : List Row} {testCaseId scriptId : UUID}
    (h : Linkable sql testCaseId scriptId) (hmoves : SqlAssets.Moves locked sql after)
    (htestCase : Row.testCase testCaseId ∉ locked) (hscript : Row.script scriptId ∉ locked) :
    Linkable after testCaseId scriptId := by
  obtain ⟨testCase, script, hcase, hrow, hproject, hlinkable, hnone⟩ := h
  exact ⟨testCase, script, hmoves.testCases.kept htestCase hcase, hmoves.scripts.kept hscript hrow, hproject, hlinkable,
    hmoves.newUses _ htestCase hnone⟩

/-- A commit of another call leaves a call what it counts on. -/
theorem Stands.moves {sql after : SqlAssets} {call : AssetCall} {progress : Progress} {locked : List Row}
    (h : Stands sql call progress) (hmoves : SqlAssets.Moves locked sql after)
    (hlocks : ∀ row ∈ (Transaction.mk call progress).locks, row ∉ locked) : Stands after call progress := by
  unfold Stands at h
  split at h
  case h_1 => trivial
  case h_2 => exact hmoves.requirements.changed (hlocks _ (by simp [Transaction.locks])) h
  case h_3 => exact hmoves.testCases.changed (hlocks _ (by simp [Transaction.locks])) h
  case h_4 => exact hmoves.scripts.changed (hlocks _ (by simp [Transaction.locks])) h
  case h_5 => exact hmoves.requirements.same h
  case h_6 => exact h.moves hmoves
  case h_7 => exact h.moves hmoves
  case h_8 => exact ⟨h.1.moves hmoves, hmoves.newTraces _ (hlocks _ (by simp [Transaction.locks])) h.2⟩
  case h_9 => exact ⟨h.1.moves hmoves, hmoves.traces _ h.2⟩
  case h_10 => exact hmoves.testCases.kept (hlocks _ (by simp [Transaction.locks])) h
  case h_11 =>
    exact ⟨hmoves.testCases.kept (hlocks _ (by simp [Transaction.locks])) h.1,
      hmoves.scripts.kept (hlocks _ (by simp [Transaction.locks])) h.2.1, h.2.2⟩
  case h_12 =>
    exact h.moves hmoves (hlocks _ (by simp [Transaction.locks])) (hlocks _ (by simp [Transaction.locks]))
  case h_13 =>
    exact h.moves hmoves (hlocks _ (by simp [Transaction.locks])) (hlocks _ (by simp [Transaction.locks]))
  case h_14 => exact hmoves.requirements.same h
  case h_15 => exact hmoves.testCases.same h
  case h_16 => exact hmoves.scripts.same h
  case h_17 => exact hmoves.scripts.same h
  case h_18 => exact hmoves.requirements.same h
  case h_19 => exact hmoves.testCases.same h
  case h_20 => exact h.elim

/-! ## One operation -/

/-- What an operation makes of a call: it goes on with rows that are free, or answers as it would alone. -/
def Good (db : Database) (sql : SqlAssets) (free : Row → Bool) (call : AssetCall) (locked : List Row) : Outcome → Prop
  | .waits => True
  | .goesOn progress => Stands sql call progress ∧ ∀ row ∈ (Transaction.mk call progress).locks, free row = true
  | .answers answer after =>
    sql.on db call = (answer, after) ∧ SqlAssets.Moves locked sql after ∧ SqlAssets.Kept db after

section Operations

variable {sql : SqlAssets} {free : Row → Bool} {call : AssetCall} {locked : List Row}

theorem good_answer (hkept : sql.Kept db) {answer : Except Exn AssetAnswer} (hon : sql.on db call = (answer, sql)) :
    Good db sql free call locked (.answers answer sql) :=
  ⟨hon, .refl _ _, hkept⟩

theorem good_reading (hkept : sql.Kept db) {α : Type} {read : Except Exn α} {next : α → Progress}
    (herror : ∀ e, read = .error e → sql.on db call = (.error e, sql))
    (hok : ∀ a, read = .ok a → Good db sql free call locked (.goesOn (next a))) :
    Good db sql free call locked (sql.reading read next) := by
  unfold SqlAssets.reading
  cases hread : read with
  | error e => exact good_answer hkept (herror e hread)
  | ok a => exact hok a hread

theorem good_locking (hkept : sql.Kept db) {α : Type} {row : Row} {read : Except Exn α} {next : α → Progress}
    (herror : ∀ e, read = .error e → sql.on db call = (.error e, sql))
    (hok : ∀ a, read = .ok a → free row = true → Good db sql free call locked (.goesOn (next a))) :
    Good db sql free call locked (sql.locking free row read next) := by
  unfold SqlAssets.locking
  split
  · next hfree => exact good_reading hkept herror fun a ha => hok a ha hfree
  · trivial

theorem good_existing (hkept : sql.Kept db) {links : Dict (UUID × UUID) LinkRecord} {key : UUID × UUID}
    {otherwise : Outcome} (hsome : ∀ link, links.get? key = some link → sql.on db call = (.ok (.link link true), sql))
    (hnone : links.get? key = none → Good db sql free call locked otherwise) :
    Good db sql free call locked (sql.existing links key otherwise) := by
  unfold SqlAssets.existing
  cases hlink : links.get? key with
  | some link => exact good_answer hkept (hsome link hlink)
  | none => exact hnone hlink

theorem good_inserting {row : Row} {links : Dict (UUID × UUID) LinkRecord} {key : UUID × UUID} {endsThere : Bool}
    (hends : endsThere = true)
    (hinserted : links.get? key = none → free row = true → Good db sql free call locked (.goesOn .inserted))
    (hrejected : (links.get? key).isSome → Good db sql free call locked (.goesOn .rejected)) :
    Good db sql free call locked (SqlAssets.inserting free row links key endsThere) := by
  unfold SqlAssets.inserting
  split
  · next hfree =>
    split
    · next hcase => exact hrejected (hcase.resolve_right (by simp [hends]))
    · next hcase =>
      rw [not_or, Option.not_isSome_iff_eq_none] at hcase
      exact hinserted hcase.1 hfree
  · trivial

end Operations

/-! ### Updates -/

section Updates

variable {sql : SqlAssets} {free : Row → Bool}

theorem good_requirement (hkept : sql.Kept db) {requirementId : UUID} {values : RequirementValues}
    {status : RequirementStatus} {expectedVersion : Nat} {now : Instant} {progress : Progress}
    (hstands : Stands sql (.updateRequirement requirementId values status expectedVersion now) progress) :
    Good db sql free (.updateRequirement requirementId values status expectedVersion now)
      (Transaction.mk (.updateRequirement requirementId values status expectedVersion now) progress).locks
      (sql.next db free (.updateRequirement requirementId values status expectedVersion now) progress) := by
  cases progress
  case begun =>
    apply good_locking hkept
    · intro e he
      simp only [SqlAssets.on, SqlAssets.updateRequirement, SqlStore.update_of_error he]
      rfl
    · exact fun updated hupdated hfree => ⟨hupdated, by simpa [Transaction.locks] using hfree⟩
  case requirementChanged updated =>
    have hupdate := SqlStore.update_of_changed db requirementColumns hstands
    simp only [SqlAssets.next, SqlAssets.committing]
    cases hinsert : sql.requirements.insert db requirementColumns updated with
    | error e =>
      apply good_answer hkept
      simp only [SqlAssets.on, SqlAssets.updateRequirement, hupdate, hinsert]
      rfl
    | ok rows =>
      refine ⟨?_, ⟨?_, .refl _ _, .refl _ _, fun _ h => h, fun _ _ h => h, fun _ _ h => h⟩,
        hkept.requirements.insert hinsert, hkept.testCases, hkept.scripts⟩
      · simp only [SqlAssets.on, SqlAssets.updateRequirement, hupdate, hinsert]
        rfl
      · simpa [Transaction.locks] using hkept.requirements.update hstands hinsert
  all_goals exact hstands.elim

theorem good_testCase (hkept : sql.Kept db) {testCaseId : UUID} {expectedVersion : Nat} {values : TestCaseValues}
    {status : TestCaseStatus} {now : Instant} {progress : Progress}
    (hstands : Stands sql (.updateTestCase testCaseId expectedVersion values status now) progress) :
    Good db sql free (.updateTestCase testCaseId expectedVersion values status now)
      (Transaction.mk (.updateTestCase testCaseId expectedVersion values status now) progress).locks
      (sql.next db free (.updateTestCase testCaseId expectedVersion values status now) progress) := by
  cases progress
  case begun =>
    apply good_locking hkept
    · intro e he
      simp only [SqlAssets.on, SqlAssets.updateTestCase, SqlStore.update_of_error he]
      rfl
    · exact fun updated hupdated hfree => ⟨hupdated, by simpa [Transaction.locks] using hfree⟩
  case testCaseChanged updated =>
    have hupdate := SqlStore.update_of_changed db testCaseColumns hstands
    simp only [SqlAssets.next, SqlAssets.committing]
    cases hinsert : sql.testCases.insert db testCaseColumns updated with
    | error e =>
      apply good_answer hkept
      simp only [SqlAssets.on, SqlAssets.updateTestCase, hupdate, hinsert]
      rfl
    | ok rows =>
      refine ⟨?_, ⟨.refl _ _, ?_, .refl _ _, fun _ h => h, fun _ _ h => h, fun _ _ h => h⟩,
        hkept.requirements, hkept.testCases.insert hinsert, hkept.scripts⟩
      · simp only [SqlAssets.on, SqlAssets.updateTestCase, hupdate, hinsert]
        rfl
      · simpa [Transaction.locks] using hkept.testCases.update hstands hinsert
  all_goals exact hstands.elim

theorem good_script (hkept : sql.Kept db) {scriptId : UUID} {expectedVersion : Nat} {values : ScriptValues}
    {status : AutomationScriptStatus} {now : Instant} {progress : Progress}
    (hstands : Stands sql (.updateScript scriptId expectedVersion values status now) progress) :
    Good db sql free (.updateScript scriptId expectedVersion values status now)
      (Transaction.mk (.updateScript scriptId expectedVersion values status now) progress).locks
      (sql.next db free (.updateScript scriptId expectedVersion values status now) progress) := by
  cases progress
  case begun =>
    apply good_locking hkept
    · intro e he
      simp only [SqlAssets.on, SqlAssets.updateScript, SqlStore.update_of_error he]
      rfl
    · exact fun updated hupdated hfree => ⟨hupdated, by simpa [Transaction.locks] using hfree⟩
  case scriptChanged updated =>
    have hupdate := SqlStore.update_of_changed db scriptColumns hstands
    simp only [SqlAssets.next, SqlAssets.committing]
    cases hinsert : sql.scripts.insert db scriptColumns updated with
    | error e =>
      apply good_answer hkept
      simp only [SqlAssets.on, SqlAssets.updateScript, hupdate, hinsert]
      rfl
    | ok rows =>
      refine ⟨?_, ⟨.refl _ _, .refl _ _, ?_, fun _ h => h, fun _ _ h => h, fun _ _ h => h⟩,
        hkept.requirements, hkept.testCases, hkept.scripts.insert hinsert⟩
      · simp only [SqlAssets.on, SqlAssets.updateScript, hupdate, hinsert]
        rfl
      · simpa [Transaction.locks] using hkept.scripts.update hstands hinsert
  all_goals exact hstands.elim

end Updates

/-! ### Links -/

section Links

variable {sql : SqlAssets} {free : Row → Bool}

theorem get?_set_none {links : Dict (UUID × UUID) LinkRecord} {key other : UUID × UUID} {link : LinkRecord}
    (hne : other ≠ key) (h : links.get? other = none) : (links.set key link).get? other = none := by
  simpa [hne] using h

theorem get?_set_isSome {links : Dict (UUID × UUID) LinkRecord} {key other : UUID × UUID} {link : LinkRecord}
    (h : (links.get? other).isSome) : ((links.set key link).get? other).isSome := by
  rw [Dict.get?_set]
  split
  · rfl
  · exact h

/-- Alone, a link between ends that are there is the one that is stored, or is stored. -/
theorem on_linkRequirementTestCase {requirementId testCaseId : UUID} (h : TraceEnds sql requirementId testCaseId)
    (now : Instant) : sql.on db (.linkRequirementTestCase requirementId testCaseId now) =
      sql.onCall ((linkRows db sql.traceLinks (requirementId, testCaseId) (.ok ()) now).map fun rows =>
        (rows.1, { sql with traceLinks := rows.2 })) fun a => .link a.1 a.2 := by
  obtain ⟨requirement, testCase, hrequirement, htestCase, hproject⟩ := h
  simp only [SqlAssets.on, SqlAssets.linkRequirementTestCase, SqlStore.get_ok_iff.mpr hrequirement,
    SqlStore.get_ok_iff.mpr htestCase, ok_bind, hproject, ne_eq, not_true_eq_false, if_false]
  cases linkRows db sql.traceLinks (requirementId, testCaseId) (.ok ()) now <;> rfl

theorem good_trace (hkept : sql.Kept db) {requirementId testCaseId : UUID} {now : Instant} {progress : Progress}
    (hstands : Stands sql (.linkRequirementTestCase requirementId testCaseId now) progress) :
    Good db sql free (.linkRequirementTestCase requirementId testCaseId now)
      (Transaction.mk (.linkRequirementTestCase requirementId testCaseId now) progress).locks
      (sql.next db free (.linkRequirementTestCase requirementId testCaseId now) progress) := by
  have hexisting (hends : TraceEnds sql requirementId testCaseId) (link : LinkRecord)
      (hlink : sql.traceLinks.get? (requirementId, testCaseId) = some link) :
      sql.on db (.linkRequirementTestCase requirementId testCaseId now) = (.ok (.link link true), sql) := by
    rw [on_linkRequirementTestCase hends, linkRows, hlink]
    rfl
  cases progress
  case begun =>
    apply good_reading hkept
    · intro e he
      simp only [SqlAssets.on, SqlAssets.linkRequirementTestCase, he, error_bind]
      rfl
    · intro requirement hrequirement
      exact ⟨⟨requirement, SqlStore.get_ok_iff.mp hrequirement, rfl, rfl, rfl, rfl⟩, by simp [Transaction.locks]⟩
  case requirementRead current =>
    obtain ⟨requirement, hrequirement, -, hsame, -⟩ := hstands
    have hget : sql.requirements.get requirementKind requirementId = .ok requirement :=
      SqlStore.get_ok_iff.mpr hrequirement
    apply good_reading hkept
    · intro e he
      simp only [SqlAssets.on, SqlAssets.linkRequirementTestCase, hget, ok_bind, hsame]
      cases htestCase : sql.testCases.get testCaseKind testCaseId with
      | error e' =>
        obtain rfl : e' = e := by simpa [htestCase, error_bind] using he
        rfl
      | ok testCase =>
        rw [htestCase, ok_bind] at he
        split at he
        · next hproject =>
          obtain rfl := Except.error.inj he
          simp only [ok_bind, if_pos hproject]
          rfl
        · cases he
    · rintro _ hok
      obtain ⟨testCase, htestCase, hok⟩ := (bind_eq_ok_iff _ _ _).mp hok
      obtain ⟨hproject, -⟩ := (ite_error_eq_ok_iff _ _ _).mp hok
      exact ⟨⟨requirement, testCase, hrequirement, SqlStore.get_ok_iff.mp htestCase,
        hsame.trans (not_not.mp hproject)⟩, by simp [Transaction.locks]⟩
  case traceEnds =>
    apply good_existing hkept (hexisting hstands)
    exact fun _ => ⟨hstands, by simp [Transaction.locks]⟩
  case unlinked =>
    obtain ⟨requirement, testCase, hrequirement, htestCase, -⟩ := id hstands
    apply good_inserting (by simp [hrequirement, htestCase])
    · exact fun hnone hfree => ⟨⟨hstands, hnone⟩, by simpa [Transaction.locks] using hfree⟩
    · exact fun hsome => ⟨⟨hstands, hsome⟩, by simp [Transaction.locks]⟩
  case inserted =>
    obtain ⟨hends, hnone⟩ := hstands
    refine ⟨?_, ⟨.refl _ _, .refl _ _, .refl _ _, fun _ h => get?_set_isSome h, ?_, fun _ _ h => h⟩, hkept.requirements,
      hkept.testCases, hkept.scripts⟩
    · rw [on_linkRequirementTestCase hends, linkRows, hnone]
      rfl
    · intro other hother h
      exact get?_set_none (by rintro rfl; simp [Transaction.locks] at hother) h
  case rejected =>
    obtain ⟨hends, hsome⟩ := hstands
    apply good_existing hkept (hexisting hends)
    intro hnone
    simp [hnone] at hsome
  all_goals exact hstands.elim

/-- Alone, a script link between ends that are there is the one that is stored, or is checked and stored. -/
theorem on_linkTestCase (db : Database) {testCaseId scriptId : UUID} {testCase : TestCaseRecord} {script : AutomationScriptRecord}
    (htestCase : sql.testCases.rows.get? testCaseId = some testCase)
    (hscript : sql.scripts.rows.get? scriptId = some script) (hproject : validateProject testCase script = .ok ())
    (now : Instant) : sql.on db (.linkTestCase testCaseId scriptId now) =
      sql.onCall ((linkRows db sql.scriptLinks (testCaseId, scriptId) (validateLinkable testCase script) now).map
        fun rows => (rows.1, { sql with scriptLinks := rows.2 })) fun a => .link a.1 a.2 := by
  simp only [SqlAssets.on, SqlAssets.linkTestCase, SqlStore.get_ok_iff.mpr htestCase, SqlStore.get_ok_iff.mpr hscript,
    ok_bind, hproject]
  cases linkRows db sql.scriptLinks (testCaseId, scriptId) (validateLinkable testCase script) now <;> rfl

theorem good_use (hkept : sql.Kept db) {testCaseId scriptId : UUID} {now : Instant} {progress : Progress}
    (hstands : Stands sql (.linkTestCase testCaseId scriptId now) progress)
    (hheld : ∀ row ∈ (Transaction.mk (.linkTestCase testCaseId scriptId now) progress).locks, free row = true) :
    Good db sql free (.linkTestCase testCaseId scriptId now)
      (Transaction.mk (.linkTestCase testCaseId scriptId now) progress).locks
      (sql.next db free (.linkTestCase testCaseId scriptId now) progress) := by
  cases progress
  case begun =>
    apply good_locking hkept
    · intro e he
      simp only [SqlAssets.on, SqlAssets.linkTestCase, he, error_bind]
      rfl
    · exact fun testCase htestCase hfree =>
        ⟨SqlStore.get_ok_iff.mp htestCase, by simpa [Transaction.locks] using hfree⟩
  case testCaseRead testCase =>
    have htestCase : sql.testCases.get testCaseKind testCaseId = .ok testCase := SqlStore.get_ok_iff.mpr hstands
    apply good_locking hkept
    · intro e he
      simp only [SqlAssets.on, SqlAssets.linkTestCase, htestCase, ok_bind]
      cases hscript : sql.scripts.get scriptKind scriptId with
      | error e' =>
        obtain rfl : e' = e := by simpa [hscript, error_bind] using he
        rfl
      | ok script =>
        rw [hscript, ok_bind] at he
        cases hproject : validateProject testCase script with
        | error e' =>
          obtain rfl : e' = e := by simpa [hproject, error_bind] using he
          simp only [ok_bind, hproject, error_bind]
          rfl
        | ok _ =>
          rw [hproject] at he
          cases he
    · intro script hok hfree
      obtain ⟨script', hscript, hok⟩ := (bind_eq_ok_iff _ _ _).mp hok
      obtain ⟨_, hproject, hok⟩ := (bind_eq_ok_iff _ _ _).mp hok
      obtain rfl := (pure_eq_ok_iff _ _).mp hok
      exact ⟨⟨hstands, SqlStore.get_ok_iff.mp hscript, hproject⟩,
        by simpa [Transaction.locks, hfree] using hheld⟩
  case scriptEnds testCase script =>
    obtain ⟨htestCase, hscript, hproject⟩ := hstands
    have hon := on_linkTestCase db htestCase hscript hproject now
    apply good_existing hkept
    · intro link hlink
      rw [hon, linkRows, hlink]
      rfl
    · intro hnone
      apply good_reading hkept
      · intro e he
        rw [hon, linkRows, hnone, he]
        rfl
      · exact fun _ hok => ⟨⟨testCase, script, htestCase, hscript, hproject, hok, hnone⟩,
          by simpa [Transaction.locks] using hheld⟩
  case unlinked =>
    obtain ⟨testCase, script, htestCase, hscript, -, -, hnone⟩ := id hstands
    apply good_inserting (by simp [htestCase, hscript])
    · exact fun _ hfree => ⟨hstands, by simpa [Transaction.locks, hfree] using hheld⟩
    · intro hsome
      simp [hnone] at hsome
  case inserted =>
    obtain ⟨testCase, script, htestCase, hscript, hproject, hlinkable, hnone⟩ := hstands
    refine ⟨?_, ⟨.refl _ _, .refl _ _, .refl _ _, fun _ h => h, fun _ _ h => h, ?_⟩, hkept.requirements,
      hkept.testCases, hkept.scripts⟩
    · rw [on_linkTestCase db htestCase hscript hproject, linkRows, hnone, hlinkable]
      rfl
    · intro other hother h
      exact get?_set_none (by rintro rfl; simp [Transaction.locks] at hother) h
  all_goals exact hstands.elim

end Links

/-! ### Reads -/

section Reads

variable {sql : SqlAssets} {free : Row → Bool}

/-- A list of revisions is read for an asset that was read before. -/
theorem listRevisions_of_same {store : SqlStore Fixed Copied Values Status} {id : UUID}
    {current : Record Fixed Values Status}
    (h : ∃ record, store.rows.get? id = some record ∧ record.SameAsset current) :
    store.listRevisions columns kind id = .ok (store.revisionsOf columns current id) := by
  obtain ⟨record, hrecord, hsame⟩ := h
  rw [SqlStore.listRevisions_eq, SqlStore.get_ok_iff.mpr hrecord, SqlStore.revisionsOf_same hsame]
  rfl

theorem getRevision_of_same {store : SqlStore Fixed Copied Values Status} {id : UUID}
    {current : Record Fixed Values Status}
    (h : ∃ record, store.rows.get? id = some record ∧ record.SameAsset current) (revision : Int) :
    store.getRevision columns kind id revision = store.revisionOf columns kind current id revision := by
  obtain ⟨record, hrecord, hsame⟩ := h
  rw [SqlStore.getRevision_eq, SqlStore.get_ok_iff.mpr hrecord, ok_bind, SqlStore.revisionOf_same hsame]

theorem read_of_get {store : SqlStore Fixed Copied Values Status} {id : UUID} {current : Record Fixed Values Status}
    (h : store.get kind id = .ok current) : ∃ record, store.rows.get? id = some record ∧ record.SameAsset current :=
  ⟨current, SqlStore.get_ok_iff.mp h, rfl, rfl, rfl, rfl⟩

theorem good_requirementRevisions (hkept : sql.Kept db) {requirementId : UUID} {progress : Progress}
    (hstands : Stands sql (.listRequirementRevisions requirementId) progress) (locked : List Row) :
    Good db sql free (.listRequirementRevisions requirementId) locked
      (sql.next db free (.listRequirementRevisions requirementId) progress) := by
  cases progress
  case begun =>
    apply good_reading hkept
    · intro e he
      simp only [SqlAssets.on, SqlStore.listRevisions_eq, he]
      rfl
    · exact fun current hcurrent => ⟨read_of_get hcurrent, by simp [Transaction.locks]⟩
  case requirementRead current =>
    apply good_answer hkept
    simp only [SqlAssets.on, listRevisions_of_same hstands]
    rfl
  all_goals exact hstands.elim

theorem good_testCaseRevisions (hkept : sql.Kept db) {testCaseId : UUID} {progress : Progress}
    (hstands : Stands sql (.listTestCaseRevisions testCaseId) progress) (locked : List Row) :
    Good db sql free (.listTestCaseRevisions testCaseId) locked
      (sql.next db free (.listTestCaseRevisions testCaseId) progress) := by
  cases progress
  case begun =>
    apply good_reading hkept
    · intro e he
      simp only [SqlAssets.on, SqlStore.listRevisions_eq, he]
      rfl
    · exact fun current hcurrent => ⟨read_of_get hcurrent, by simp [Transaction.locks]⟩
  case testCaseRead current =>
    apply good_answer hkept
    simp only [SqlAssets.on, listRevisions_of_same hstands]
    rfl
  all_goals exact hstands.elim

theorem good_scriptRevisions (hkept : sql.Kept db) {scriptId : UUID} {progress : Progress}
    (hstands : Stands sql (.listRevisions scriptId) progress) (locked : List Row) :
    Good db sql free (.listRevisions scriptId) locked (sql.next db free (.listRevisions scriptId) progress) := by
  cases progress
  case begun =>
    apply good_reading hkept
    · intro e he
      simp only [SqlAssets.on, SqlStore.listRevisions_eq, he]
      rfl
    · exact fun current hcurrent => ⟨read_of_get hcurrent, by simp [Transaction.locks]⟩
  case scriptRead current =>
    apply good_answer hkept
    simp only [SqlAssets.on, listRevisions_of_same hstands]
    rfl
  all_goals exact hstands.elim

theorem good_scriptRevision (hkept : sql.Kept db) {scriptId : UUID} {revision : Int} {progress : Progress}
    (hstands : Stands sql (.getRevision scriptId revision) progress) (locked : List Row) :
    Good db sql free (.getRevision scriptId revision) locked
      (sql.next db free (.getRevision scriptId revision) progress) := by
  cases progress
  case begun =>
    apply good_reading hkept
    · intro e he
      simp only [SqlAssets.on, SqlStore.getRevision_eq, he]
      rfl
    · exact fun current hcurrent => ⟨read_of_get hcurrent, by simp [Transaction.locks]⟩
  case scriptRead current =>
    apply good_answer hkept
    simp only [SqlAssets.on, getRevision_of_same hstands]
  all_goals exact hstands.elim

theorem good_requirementTestCases (hkept : sql.Kept db) {requirementId : UUID} {progress : Progress}
    (hstands : Stands sql (.listRequirementTestCases requirementId) progress) (locked : List Row) :
    Good db sql free (.listRequirementTestCases requirementId) locked
      (sql.next db free (.listRequirementTestCases requirementId) progress) := by
  cases progress
  case begun =>
    apply good_reading hkept
    · intro e he
      simp only [SqlAssets.on, SqlAssets.listRequirementTestCases, he, error_bind]
      rfl
    · exact fun current hcurrent => ⟨read_of_get hcurrent, by simp [Transaction.locks]⟩
  case requirementRead current =>
    obtain ⟨record, hrecord, -⟩ := hstands
    apply good_answer hkept
    simp only [SqlAssets.on, SqlAssets.listRequirementTestCases, SqlStore.get_ok_iff.mpr hrecord, ok_bind]
    rfl
  all_goals exact hstands.elim

theorem good_testCaseScripts (hkept : sql.Kept db) {testCaseId : UUID} {progress : Progress}
    (hstands : Stands sql (.listTestCaseScripts testCaseId) progress) (locked : List Row) :
    Good db sql free (.listTestCaseScripts testCaseId) locked
      (sql.next db free (.listTestCaseScripts testCaseId) progress) := by
  cases progress
  case begun =>
    apply good_reading hkept
    · intro e he
      simp only [SqlAssets.on, SqlAssets.listTestCaseScripts, he, error_bind]
      rfl
    · exact fun current hcurrent => ⟨read_of_get hcurrent, by simp [Transaction.locks]⟩
  case testCaseRead current =>
    obtain ⟨record, hrecord, -⟩ := hstands
    apply good_answer hkept
    simp only [SqlAssets.on, SqlAssets.listTestCaseScripts, SqlStore.get_ok_iff.mpr hrecord, ok_bind]
    rfl
  all_goals exact hstands.elim

end Reads

/-! ### Creations -/

theorem onCall_cases (sql : SqlAssets) {α : Type} (call : Except Exn (α × SqlAssets)) (answer : α → AssetAnswer) :
    (∃ e, call = .error e ∧ sql.onCall call answer = (.error e, sql)) ∨
      ∃ a after, call = .ok (a, after) ∧ sql.onCall call answer = (.ok (answer a), after) := by
  cases call with
  | error e => exact .inl ⟨e, rfl, rfl⟩
  | ok a => exact .inr ⟨a.1, a.2, rfl, rfl⟩

theorem good_created {sql : SqlAssets} {free : Row → Bool} (hkept : sql.Kept db) {call : AssetCall} {newId : UUID}
    (hdraws : call.draws = some newId) (locked : List Row) :
    Good db sql free call locked (.answers (sql.on db call).1 (sql.on db call).2) := by
  refine ⟨rfl, ?_⟩
  cases call <;> simp only [AssetCall.draws, reduceCtorEq] at hdraws
  case createRequirement newId projectId values now =>
    obtain ⟨e, -, hon⟩ | ⟨record, after, hcreate, hon⟩ := onCall_cases sql
      (sql.createRequirement db newId projectId values now) .requirement
    · simp only [SqlAssets.on, hon]
      exact ⟨.refl _ _, hkept⟩
    · simp only [SqlAssets.on, hon]
      obtain ⟨rows, hrows, hafter⟩ := (bind_eq_ok_iff _ _ _).mp hcreate
      cases hafter
      obtain ⟨hkept', hmoves⟩ := SqlStore.create_ok hkept.requirements hrows
      exact ⟨⟨hmoves _, .refl _ _, .refl _ _, fun _ h => h, fun _ _ h => h, fun _ _ h => h⟩, hkept', hkept.testCases,
        hkept.scripts⟩
  case createTestCase newId projectId values source now =>
    obtain ⟨e, -, hon⟩ | ⟨record, after, hcreate, hon⟩ := onCall_cases sql
      (sql.createTestCase db newId projectId values source now) .testCase
    · simp only [SqlAssets.on, hon]
      exact ⟨.refl _ _, hkept⟩
    · simp only [SqlAssets.on, hon]
      obtain ⟨rows, hrows, hafter⟩ := (bind_eq_ok_iff _ _ _).mp hcreate
      cases hafter
      obtain ⟨hkept', hmoves⟩ := SqlStore.create_ok hkept.testCases hrows
      exact ⟨⟨.refl _ _, hmoves _, .refl _ _, fun _ h => h, fun _ _ h => h, fun _ _ h => h⟩, hkept.requirements, hkept',
        hkept.scripts⟩
  case createScript newId projectId engine values now =>
    obtain ⟨e, -, hon⟩ | ⟨record, after, hcreate, hon⟩ := onCall_cases sql
      (sql.createScript db newId projectId engine values now) .script
    · simp only [SqlAssets.on, hon]
      exact ⟨.refl _ _, hkept⟩
    · simp only [SqlAssets.on, hon]
      obtain ⟨rows, hrows, hafter⟩ := (bind_eq_ok_iff _ _ _).mp hcreate
      cases hafter
      obtain ⟨hkept', hmoves⟩ := SqlStore.create_ok hkept.scripts hrows
      exact ⟨⟨.refl _ _, .refl _ _, hmoves _, fun _ h => h, fun _ _ h => h, fun _ _ h => h⟩, hkept.requirements,
        hkept.testCases, hkept'⟩

/-! ### Every call -/

theorem good_next {sql : SqlAssets} {free : Row → Bool} (hkept : sql.Kept db) {transaction : Transaction}
    (hstands : Stands sql transaction.call transaction.progress) (hheld : ∀ row ∈ transaction.locks, free row = true) :
    Good db sql free transaction.call transaction.locks (sql.next db free transaction.call transaction.progress) := by
  obtain ⟨call, progress⟩ := transaction
  cases call
  case updateRequirement => exact good_requirement hkept hstands
  case updateTestCase => exact good_testCase hkept hstands
  case updateScript => exact good_script hkept hstands
  case linkRequirementTestCase => exact good_trace hkept hstands
  case linkTestCase => exact good_use hkept hstands hheld
  case listRequirementRevisions => exact good_requirementRevisions hkept hstands _
  case listTestCaseRevisions => exact good_testCaseRevisions hkept hstands _
  case listRevisions => exact good_scriptRevisions hkept hstands _
  case getRevision => exact good_scriptRevision hkept hstands _
  case listRequirementTestCases => exact good_requirementTestCases hkept hstands _
  case listTestCaseScripts => exact good_testCaseScripts hkept hstands _
  -- The other calls are one operation.
  all_goals cases progress
  case createRequirement.begun => exact good_created hkept rfl _
  case createTestCase.begun => exact good_created hkept rfl _
  case createScript.begun => exact good_created hkept rfl _
  case getRequirement.begun => exact good_answer hkept rfl
  case getTestCase.begun => exact good_answer hkept rfl
  case getScript.begun => exact good_answer hkept rfl
  case listRequirements.begun => exact good_answer hkept rfl
  case listTestCases.begun => exact good_answer hkept rfl
  case listScripts.begun => exact good_answer hkept rfl
  all_goals exact hstands.elim

/-! ## Every run -/

namespace Service

structure Sound (db : Database) (service : Service) : Prop where
  exclusive : Exclusive Transaction.locks service.active
  stands : ∀ t transaction, service.active.get? t = some transaction →
    Stands service.sql transaction.call transaction.progress
  kept : service.sql.Kept db
  serial : Serial (SqlAssets.on db) .empty service.sql service.done

theorem sound_start (db : Database) : Sound db start where
  exclusive := .empty
  stands := by simp [start]
  kept := ⟨by rintro id record ⟨⟩, by rintro id record ⟨⟩, by rintro id record ⟨⟩⟩
  serial := ⟨rfl, rfl⟩

variable {service after : Service}

theorem Sound.put (h : Sound db service) {t : Nat} {transaction : Transaction}
    (hstands : Stands service.sql transaction.call transaction.progress)
    (hfree : ∀ row ∈ transaction.locks, rowFree Transaction.locks service.active t row = true) :
    Sound db { service with active := service.active.set t transaction } := by
  refine ⟨h.exclusive.put hfree, ?_, h.kept, h.serial⟩
  intro t' other hother
  rw [Dict.get?_set] at hother
  split at hother
  · obtain rfl := Option.some.inj hother
    exact hstands
  · exact h.stands t' other hother

theorem Sound.step (h : Sound db service) {event : Event} (hstep : service.step db event = some after) :
    Sound db after := by
  cases event with
  | call t call =>
    unfold Service.step at hstep
    simp only at hstep
    split at hstep
    · cases hstep
    · obtain rfl := Option.some.inj hstep
      exact h.put trivial (by simp [Transaction.locks])
  | go t =>
    unfold Service.step at hstep
    cases hget : service.active.get? t with
    | none => simp [hget] at hstep
    | some transaction =>
      have hgood := good_next h.kept (h.stands t transaction hget) fun row hrow => h.exclusive.rowFree hget hrow
      simp only [hget] at hstep
      cases hnext : service.sql.next db (rowFree Transaction.locks service.active t) transaction.call
          transaction.progress with
      | waits => simp [hnext] at hstep
      | goesOn progress =>
        simp only [hnext] at hstep hgood
        obtain rfl := Option.some.inj hstep
        exact h.put hgood.1 hgood.2
      | answers answer sql =>
        simp only [hnext] at hstep hgood
        obtain rfl := Option.some.inj hstep
        obtain ⟨hon, hmoves, hkept⟩ := hgood
        refine ⟨h.exclusive.erase t, ?_, hkept, ?_⟩
        · intro t' other hother
          rw [Dict.get?_erase] at hother
          split at hother
          · cases hother
          next hne =>
          exact (h.stands t' other hother).moves hmoves (h.exclusive.disjoint hget hother hne)
        · have hserial := h.serial.answered transaction.call
          rw [hon] at hserial
          exact hserial
  | lose t =>
    unfold Service.step at hstep
    simp only at hstep
    split at hstep
    · cases hstep
    · obtain rfl := Option.some.inj hstep
      refine ⟨h.exclusive.erase t, ?_, h.kept, h.serial⟩
      intro t' other hother
      rw [Dict.get?_erase] at hother
      split at hother
      · cases hother
      · exact h.stands t' other hother

/-- However the calls are interleaved and whichever are lost, those that answer answer as if they had been made one
after the other, in the order of their answers; and as the repositories in memory would. -/
theorem calls_serializable {events : List Event} (hrun : runSteps (Service.step db) start events = some service) :
    service.done.map Prod.snd = answers (SqlAssets.on db) .empty (service.done.map Prod.fst) ∧
    service.sql = stateAfter (SqlAssets.on db) .empty (service.done.map Prod.fst) ∧
    (DrawnOnce AssetCall.draws [] (service.done.map Prod.fst) →
      List.Forall₂ (SameOutcome db) (answers Assets.on .empty (service.done.map Prod.fst))
        (service.done.map Prod.snd)) := by
  have hsound : Sound db service := runSteps_keeps (fun _ _ _ h hstep => h.step hstep) (sound_start db) hrun
  refine ⟨hsound.serial.1, hsound.serial.2, ?_⟩
  intro hdrawn
  rw [hsound.serial.1]
  exact Twins.empty.answer_alike History.sound_start hdrawn

/-- Two calls link the same requirement and test case, and neither sees the link of the other before its insert. -/
def raceEvents : List Event :=
  [.call 0 (.createRequirement ⟨"r"⟩ ⟨"p"⟩ ⟨"Login", ""⟩ 0), .go 0,
    .call 0 (.createTestCase ⟨"t"⟩ ⟨"p"⟩ History.loginCase .manual 1), .go 0,
    .call 1 (.linkRequirementTestCase ⟨"r"⟩ ⟨"t"⟩ 2), .call 2 (.linkRequirementTestCase ⟨"r"⟩ ⟨"t"⟩ 3),
    .go 1, .go 2, .go 1, .go 2, .go 1, .go 2, .go 2, .go 2, .go 1, .go 1]

def linked : AssetCall × Except Exn AssetAnswer → Option Bool
  | (_, .ok (.link _ existed)) => some existed
  | _ => none

theorem race_serializable : ∃ service, runSteps (Service.step secondsDatabase) start raceEvents = some service ∧
    service.done.map linked = [none, none, some false, some true] ∧
    service.done.map Prod.snd = answers (SqlAssets.on secondsDatabase) .empty (service.done.map Prod.fst) := by
  have hlinked : (runSteps (Service.step secondsDatabase) start raceEvents).any
      (fun service => service.done.map linked = [none, none, some false, some true]) := by
    decide
  obtain ⟨service, hrun, hflags⟩ := (Option.any_eq_true _ _).mp hlinked
  exact ⟨service, hrun, by simpa using hflags, (calls_serializable hrun).1⟩

end Service

end SmartTest.Asset
