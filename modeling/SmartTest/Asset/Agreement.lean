import SmartTest.Asset.Runs
import SmartTest.Asset.Sql
import SmartTest.Lib.Replicas

/-!
# The assets of the two stores

Given the same calls, the SQL repositories answer as the ones in memory do, up to the times,
which come back as the columns keep them, and the order of records made at the same time.
-/

open SmartTest.Lib SmartTest.Run SmartTest.Plan

namespace SmartTest.Asset

variable {Fixed Copied Values Status : Type} {db : Database} {columns : Columns Fixed Copied} {kind : Kind Status}

/-! ## Kept times -/

theorem Record.kept_kept (db : Database) (record : Record Fixed Values Status) :
    (record.kept db).kept db = record.kept db := by
  simp [Record.kept, db.keep_keep]

theorem Record.update_kept (db : Database) (record : Record Fixed Values Status) (values : Values) (status : Status)
    (now : Instant) :
    (record.kept db).update kind values status now =
      (record.update kind values status now).map fun updated =>
        { updated with createdAt := db.keep record.createdAt } := by
  unfold Record.update
  simp only [Record.kept]
  cases kind.next record.status status <;> rfl

/-! ## One family -/

/-- The rows are the records, and the revision rows of an asset are its revisions, in their order. -/
structure SqlStore.Mirrors (db : Database) (columns : Columns Fixed Copied) (store : Store Fixed Values Status)
    (sql : SqlStore Fixed Copied Values Status) : Prop where
  rows : sql.rows = store.records.mapValues (Record.kept db)
  revisions : ∀ id, sql.revisions.entries.filter (·.1.1 = id) =
    ((store.revisions.get? id).getD []).mapIdx fun k record => ((id, k + 1), revisionRow db columns record)

namespace SqlStore.Mirrors

variable {store after : Store Fixed Values Status} {sql : SqlStore Fixed Copied Values Status}

theorem empty : Mirrors db columns (.empty : Store Fixed Values Status) .empty where
  rows := rfl
  revisions := fun _ => rfl

theorem get? (h : Mirrors db columns store sql) (id : UUID) :
    sql.rows.get? id = (store.records.get? id).map (Record.kept db) := by
  rw [h.rows, Dict.get?_mapValues]

theorem get (h : Mirrors db columns store sql) (kind : Kind Status) (id : UUID) :
    sql.get kind id = (store.get kind id).map (Record.kept db) := by
  unfold SqlStore.get Store.get
  rw [h.get?]
  cases store.records.get? id <;> rfl

/-- Revision `k + 1` is read at its key. -/
theorem revision (h : Mirrors db columns store sql) (id : UUID) (n : Nat) (row : RevisionRow Copied Values Status) :
    sql.revisions.get? (id, n) = some row ↔ ∃ k record, ((store.revisions.get? id).getD [])[k]? = some record ∧
      n = k + 1 ∧ row = revisionRow db columns record := by
  have hfilter : ((id, n), row) ∈ sql.revisions.entries ↔
      ((id, n), row) ∈ sql.revisions.entries.filter (·.1.1 = id) := by simp
  rw [Dict.get?_eq_some_iff, hfilter, h.revisions, List.mem_mapIdx]
  constructor
  · rintro ⟨k, hk, heq⟩
    simp only [Prod.mk.injEq, true_and] at heq
    exact ⟨k, _, List.getElem?_eq_getElem hk, heq.1.symm, heq.2.symm⟩
  · rintro ⟨k, record, hrecord, rfl, rfl⟩
    obtain ⟨hk, rfl⟩ := List.getElem?_eq_some_iff.mp hrecord
    exact ⟨k, hk, rfl⟩

/-- A revision that comes next is inserted, whatever the times are before they are kept. -/
theorem insert (h : Mirrors db columns store sql) (record : Record Fixed Values Status)
    {inserted : Record Fixed Values Status} (history : List (Record Fixed Values Status)) (hkept : inserted.kept db = record.kept db)
    (hhistory : (store.revisions.get? record.id).getD [] = history) (hnumber : record.revision = history.length + 1) :
    ∃ sql', sql.insert db columns inserted = .ok sql' ∧
      Mirrors db columns ⟨store.records.set record.id record, store.revisions.set record.id (history ++ [record])⟩
        sql' := by
  have hrow : revisionRow db columns inserted = revisionRow db columns record := by
    simp only [Record.kept, Record.mk.injEq] at hkept
    simp [revisionRow, hkept]
  have hid : inserted.id = record.id := congrArg (·.id) hkept
  have hrevision : inserted.revision = record.revision := congrArg (·.revision) hkept
  have hfree : sql.revisions.get? (record.id, record.revision) = none := by
    cases hget : sql.revisions.get? (record.id, record.revision) with
    | none => rfl
    | some row =>
      obtain ⟨k, found, hfound, hk, -⟩ := (h.revision _ _ _).mp hget
      rw [hhistory] at hfound
      have := (List.getElem?_eq_some_iff.mp hfound).1
      omega
  refine ⟨_, by rw [SqlStore.insert, hid, hrevision, hfree, hkept, hrow]; rfl, ?_, ?_⟩
  · simp only [h.rows, Dict.mapValues_set]
  · intro id
    simp only [Dict.entries_set_new _ _ _ hfree, List.filter_append, h.revisions id, Dict.get?_set]
    by_cases hcase : id = record.id
    · subst hcase
      simp [hhistory, hnumber, List.mapIdx_concat]
    · simp [hcase, Ne.symm hcase]

theorem create (h : Mirrors db columns store sql) (kind : Kind Status) {newId : UUID} (projectId : UUID) (fixed : Fixed)
    (values : Values) (now : Instant) (hnew : store.records.get? newId = none) (hrevisions : store.revisions.get? newId = none) :
    ∃ sql', sql.create db columns kind newId projectId fixed values now =
        .ok ((store.create kind newId projectId fixed values now).1, sql') ∧
      Mirrors db columns (store.create kind newId projectId fixed values now).2 sql' := by
  have hrow : sql.rows.get? newId = none := by rw [h.get?, hnew]; rfl
  obtain ⟨sql', hinsert, hmirrors⟩ := h.insert (kind.first newId projectId fixed values now) []
    rfl (by simp [Kind.first, hrevisions]) rfl
  refine ⟨sql', ?_, hmirrors⟩
  simp [SqlStore.create, hrow, hinsert, ok_bind, Store.create, pure, Except.pure]

/-- An update raises in both, or is accepted by both. -/
theorem update (h : Mirrors db columns store sql) {drawn : List UUID} {versions : UUID → List Nat}
    (hlives : store.Lives kind drawn versions) (id : UUID) (expectedVersion : Nat) (values : Values) (status : Status)
    (now : Instant) :
    (∃ e, store.update kind id expectedVersion values status now = .error e ∧
      sql.update db columns kind id expectedVersion values status now = .error e) ∨
    ∃ updated updated' after sql', store.update kind id expectedVersion values status now = .ok (updated, after) ∧
      sql.update db columns kind id expectedVersion values status now = .ok (updated', sql') ∧
      updated'.kept db = updated.kept db ∧ Mirrors db columns after sql' := by
  unfold Store.update SqlStore.update
  rw [h.get, Store.get]
  cases hcurrent : store.records.get? id with
  | none => exact .inl ⟨kind.missing id, rfl, rfl⟩
  | some current =>
    simp only [Except.map, ok_bind, Record.update_kept]
    rw [show (current.kept db).stateVersion = current.stateVersion from rfl]
    cases checkVersion current.stateVersion expectedVersion with
    | error e => exact .inl ⟨e, rfl, rfl⟩
    | ok _ =>
      cases hupdated : current.update kind values status now with
      | error e => exact .inl ⟨e, rfl, rfl⟩
      | ok updated =>
        right
        obtain ⟨history, hhistory, hlife, hlast, -⟩ := hlives.stored id current hcurrent
        obtain ⟨hid, hcount, -⟩ := hlife.counted hlast
        obtain ⟨⟨hsame, -, -, hcreated⟩, hnumber, -, -⟩ := Record.update_same hupdated
        obtain rfl : updated.id = id := hsame.trans hid
        have hkept : ({ updated with createdAt := db.keep current.createdAt } : Record Fixed Values Status).kept db =
            updated.kept db := by
          simp [Record.kept, hcreated, db.keep_keep]
        obtain ⟨sql', hinsert, hmirrors⟩ := h.insert _ history hkept (by rw [hhistory]; rfl)
          (by rw [hnumber, hcount])
        refine ⟨updated, _, _, sql', ?_, ?_, hkept, hmirrors⟩
        · simp only [ok_bind, hhistory]
          rfl
        · simp only [ok_bind, hinsert]
          rfl

/-! ### Reading -/

/-- The revisions are read with the times of their rows and the creation time of the asset. -/
theorem listRevisions (h : Mirrors db columns store sql) {drawn : List UUID} {versions : UUID → List Nat}
    (hlives : store.Lives kind drawn versions) (id : UUID) :
    sql.listRevisions columns kind id =
      (store.listRevisions kind id).map fun records => records.map (Record.kept db) := by
  unfold SqlStore.listRevisions Store.listRevisions
  rw [h.get, Store.get]
  cases hcurrent : store.records.get? id with
  | none => rfl
  | some current =>
    obtain ⟨history, hhistory, hlife, hlast, -⟩ := hlives.stored id current hcurrent
    simp only [Except.map, ok_bind, hhistory, h.revisions id, Option.getD_some, pure, Except.pure, Except.ok.injEq]
    rw [List.mergeSort_of_pairwise]
    · apply List.ext_getElem?
      intro k
      rw [List.getElem?_map, List.getElem?_mapIdx, List.getElem?_map]
      cases hget : history[k]? with
      | none => rfl
      | some record =>
        obtain ⟨hid, hnumber, hversion⟩ := hlife.numbered hget
        obtain ⟨hsame, hproject, hfixed, hcreated⟩ := hlife.same hlast (List.mem_of_getElem? hget)
        simp [revisionRecord, revisionRow, Record.kept, columns.restore_copy, ← hsame, ← hproject, ← hfixed, ← hcreated,
          hnumber, hversion]
    · rw [List.pairwise_iff_getElem]
      intro i j hi hj hij
      simp only [List.getElem_mapIdx, decide_eq_true_eq]
      omega

theorem getRevision (h : Mirrors db columns store sql) {drawn : List UUID} {versions : UUID → List Nat}
    (hlives : store.Lives kind drawn versions) (id : UUID) (revision : Int) :
    sql.getRevision columns kind id revision = (store.getRevision kind id revision).map (Record.kept db) := by
  unfold SqlStore.getRevision Store.getRevision Store.listRevisions
  rw [h.get, Store.get]
  cases hcurrent : store.records.get? id with
  | none => rfl
  | some current =>
    obtain ⟨history, hhistory, hlife, hlast, -⟩ := hlives.stored id current hcurrent
    simp only [Except.map, ok_bind, hhistory]
    by_cases hrange : revision < 1 ∨ revision > history.length
    · -- No row has the number.
      rw [if_pos hrange, error_bind]
      have hnone : (if revision < 0 then none else sql.revisions.get? (id, revision.toNat)) = none := by
        split
        · rfl
        · cases hget : sql.revisions.get? (id, revision.toNat) with
          | none => rfl
          | some row =>
            obtain ⟨k, record, hrecord, hk, -⟩ := (h.revision _ _ _).mp hget
            rw [hhistory] at hrecord
            have := (List.getElem?_eq_some_iff.mp hrecord).1
            simp only [Option.getD_some] at this
            omega
      rw [hnone]
    · rw [not_or, Int.not_lt, Int.not_lt] at hrange
      obtain ⟨hone, hlength⟩ := hrange
      have hlt : revision.toNat - 1 < history.length := by omega
      have hget := List.getElem?_eq_getElem hlt
      have hrow : sql.revisions.get? (id, revision.toNat) =
          some (revisionRow db columns history[revision.toNat - 1]) := by
        rw [h.revision]
        exact ⟨revision.toNat - 1, _, by rw [hhistory]; exact hget, by omega, rfl⟩
      obtain ⟨hid, hnumber, hversion⟩ := hlife.numbered hget
      obtain ⟨hsame, hproject, hfixed, hcreated⟩ := hlife.same hlast (List.mem_of_getElem? hget)
      rw [if_neg (by omega : ¬ revision < 0), if_neg (by omega : ¬ (revision < 1 ∨ revision > history.length)), hrow,
        hget]
      simp only [revisionRecord, revisionRow, Record.kept, columns.restore_copy, ← hsame, ← hproject, ← hfixed,
        ← hcreated, hnumber, hversion, Except.ok.injEq, Record.mk.injEq, true_and, and_true]
      omega

/-- A list comes in an order of creation times, as far as the columns keep them. -/
def SameList (db : Database) (as bs : List (Record Fixed Values Status)) : Prop :=
  (bs.map (Record.kept db)).Perm (as.map (Record.kept db)) ∧ bs.Pairwise fun a b => a.createdAt ≤ b.createdAt

theorem list (h : Mirrors db columns store sql) (projectId : Option UUID) :
    SameList db (store.list projectId) (sql.list db projectId) := by
  refine ⟨?_, db.orderBy_sorted _ _⟩
  have hrows : sql.rows.values.filter (fun record => projectId.all (record.projectId = ·)) =
      (store.records.values.filter fun record => projectId.all (record.projectId = ·)).map (Record.kept db) := by
    rw [h.rows, Dict.values_mapValues, List.filter_map]
    rfl
  have hkept : ((store.records.values.filter fun record => projectId.all (record.projectId = ·)).map
      (Record.kept db)).map (Record.kept db) = (store.records.values.filter fun record =>
      projectId.all (record.projectId = ·)).map (Record.kept db) := by
    simp [Record.kept_kept]
  unfold SqlStore.list Store.list
  refine ((db.orderBy_perm _ _).map _).trans ?_
  rw [hrows, hkept]
  exact ((List.mergeSort_perm _ _).map _).symm

/-- The records that links lead to, all of which are stored. -/
theorem linked (h : Mirrors db columns store sql) {links : Dict (UUID × UUID) LinkRecord} (id : UUID)
    (hstored : ∀ key ∈ links.keys, (store.records.get? key.2).isSome) :
    ∃ records, store.linked (linkedTo links id) = .ok records ∧
      SameList db records (sql.linked db (links.mapValues (LinkRecord.kept db)) id) := by
  have hids : ∀ i ∈ linkedTo links id, ∃ record, store.records.get? i = some record := by
    intro i hi
    simp only [linkedTo, List.mem_map, List.mem_filter] at hi
    obtain ⟨key, ⟨hkey, -⟩, rfl⟩ := hi
    exact Option.isSome_iff_exists.mp (hstored key hkey)
  have hsame : linkedTo (links.mapValues (LinkRecord.kept db)) id = linkedTo links id := by
    simp [linkedTo]
  have hmap : ∀ ids : List UUID, (∀ i ∈ ids, ∃ record, store.records.get? i = some record) →
      ids.mapM store.recordAt = .ok (ids.filterMap store.records.get?) := by
    intro ids hall
    induction ids with
    | nil => rfl
    | cons i rest ih =>
      obtain ⟨record, hrecord⟩ := hall i List.mem_cons_self
      rw [List.mapM_cons, Store.recordAt, hrecord, List.filterMap_cons_some hrecord, ok_bind,
        ih fun j hj => hall j (List.mem_cons_of_mem _ hj)]
      rfl
  refine ⟨_, by rw [Store.linked, hmap _ hids]; rfl, ?_, db.orderBy_sorted _ _⟩
  have hrows : (linkedTo links id).filterMap sql.rows.get? =
      ((linkedTo links id).filterMap store.records.get?).map (Record.kept db) := by
    rw [List.map_filterMap]
    exact List.filterMap_congr fun i _ => h.get? i
  unfold SqlStore.linked
  refine ((db.orderBy_perm _ _).map _).trans ?_
  rw [hsame, hrows, List.map_map]
  have hkept : (Record.kept db ∘ Record.kept db : Record Fixed Values Status → _) = Record.kept db :=
    funext (Record.kept_kept db)
  rw [hkept]
  exact ((List.mergeSort_perm _ _).map _).symm

end SqlStore.Mirrors

/-! ## Links -/

/-- A row that is there is returned by both; a new one is checked, and then inserted by both. -/
theorem linkRows_cases (db : Database) (links : Dict (UUID × UUID) LinkRecord) (key : UUID × UUID)
    (linkable : Except Exn Unit) (now : Instant) :
    (∃ link, links.get? key = some link ∧ linkRows db (links.mapValues (LinkRecord.kept db)) key linkable now =
      .ok ((link.kept db, true), links.mapValues (LinkRecord.kept db))) ∨
    (links.get? key = none ∧ linkRows db (links.mapValues (LinkRecord.kept db)) key linkable now =
      linkable.map fun _ => ((⟨key, now⟩, false), (links.set key ⟨key, now⟩).mapValues (LinkRecord.kept db))) := by
  unfold linkRows
  rw [Dict.get?_mapValues]
  cases hlink : links.get? key with
  | some link => exact .inl ⟨link, rfl, rfl⟩
  | none =>
    refine .inr ⟨rfl, ?_⟩
    rw [Dict.mapValues_set]
    cases linkable <;> rfl

theorem LinkRecord.kept_kept (db : Database) (link : LinkRecord) : (link.kept db).kept db = link.kept db := by
  simp [LinkRecord.kept, db.keep_keep]

/-! ## Every call -/

/-- The same answer, up to what the columns do with its times. -/
def AssetAnswer.Same (db : Database) : AssetAnswer → AssetAnswer → Prop
  | .requirement a, .requirement b => b.kept db = a.kept db
  | .requirements as, .requirements bs => SqlStore.Mirrors.SameList db as bs
  | .requirementRevisions as, .requirementRevisions bs => bs.map (Record.kept db) = as.map (Record.kept db)
  | .testCase a, .testCase b => b.kept db = a.kept db
  | .testCases as, .testCases bs => SqlStore.Mirrors.SameList db as bs
  | .testCaseRevisions as, .testCaseRevisions bs => bs.map (Record.kept db) = as.map (Record.kept db)
  | .script a, .script b => b.kept db = a.kept db
  | .scripts as, .scripts bs => SqlStore.Mirrors.SameList db as bs
  | .scriptRevisions as, .scriptRevisions bs => bs.map (Record.kept db) = as.map (Record.kept db)
  | .link a existed, .link b existed' => b.kept db = a.kept db ∧ existed' = existed
  | _, _ => False

/-- The same answer, or the same error. -/
def SameOutcome (db : Database) : Except Exn AssetAnswer → Except Exn AssetAnswer → Prop
  | .ok a, .ok b => a.Same db b
  | .error e, .error e' => e' = e
  | _, _ => False

theorem sameOutcome_map {α : Type} {x : Except Exn α} {keep : α → α} {answer : α → AssetAnswer}
    (hsame : ∀ a, (answer a).Same db (answer (keep a))) : SameOutcome db (x.map answer) ((x.map keep).map answer) := by
  cases x with
  | error e => rfl
  | ok a => exact hsame a

theorem map_kept_kept (db : Database) (records : List (Record Fixed Values Status)) :
    (records.map (Record.kept db)).map (Record.kept db) = records.map (Record.kept db) := by
  simp [Record.kept_kept]

/-- The tables hold what the dictionaries hold. -/
structure Twins (db : Database) (assets : Assets) (sql : SqlAssets) : Prop where
  requirements : SqlStore.Mirrors db requirementColumns assets.quality.requirements sql.requirements
  testCases : SqlStore.Mirrors db testCaseColumns assets.quality.testCases sql.testCases
  scripts : SqlStore.Mirrors db scriptColumns assets.automation.scripts sql.scripts
  traces : sql.traceLinks = assets.quality.links.mapValues (LinkRecord.kept db)
  uses : sql.scriptLinks = assets.automation.links.mapValues (LinkRecord.kept db)

/-- What both stores make of a call. -/
def Twins.Step (db : Database) (assets : Assets) (sql : SqlAssets) (call : AssetCall) : Prop :=
  SameOutcome db (assets.on call).1 (sql.on db call).1 ∧ Twins db (assets.on call).2 (sql.on db call).2

namespace Twins

variable {assets : Assets} {sql : SqlAssets} {drawn : List UUID} {updates : List (Family × UUID × Nat)}

theorem empty : Twins db .empty .empty := ⟨.empty, .empty, .empty, rfl, rfl⟩

theorem created (h : Twins db assets sql) (hs : History.Sound ⟨assets, drawn, updates⟩) {call : AssetCall}
    {newId : UUID} (hdraws : call.draws = some newId) (hnew : newId ∉ drawn) : Step db assets sql call := by
  have hfree {Fixed Values Status : Type} {kind : Kind Status} {versions : UUID → List Nat}
      {store : Store Fixed Values Status} (hlives : store.Lives kind drawn versions) :
      store.records.get? newId = none ∧ store.revisions.get? newId = none := by
    cases hget : store.records.get? newId with
    | none => exact ⟨rfl, (hlives.known newId hget).1⟩
    | some record => exact absurd (hlives.drawn newId record hget) hnew
  unfold Step
  cases call <;> simp only [AssetCall.draws, Option.some.injEq, reduceCtorEq] at hdraws
  all_goals subst hdraws
  case createRequirement newId projectId values now =>
    obtain ⟨hrecords, hrevisions⟩ := hfree hs.requirements
    obtain ⟨rows, hcreate, hrows⟩ := h.requirements.create requirementKind projectId () values now
      hrecords hrevisions
    simp only [SqlAssets.on, SqlAssets.createRequirement, hcreate]
    exact ⟨rfl, hrows, h.testCases, h.scripts, h.traces, h.uses⟩
  case createTestCase newId projectId values source now =>
    obtain ⟨hrecords, hrevisions⟩ := hfree hs.testCases
    obtain ⟨rows, hcreate, hrows⟩ := h.testCases.create testCaseKind projectId source values now
      hrecords hrevisions
    simp only [SqlAssets.on, SqlAssets.createTestCase, hcreate]
    exact ⟨rfl, h.requirements, hrows, h.scripts, h.traces, h.uses⟩
  case createScript newId projectId engine values now =>
    obtain ⟨hrecords, hrevisions⟩ := hfree hs.scripts
    obtain ⟨rows, hcreate, hrows⟩ := h.scripts.create scriptKind projectId engine values now
      hrecords hrevisions
    simp only [SqlAssets.on, SqlAssets.createScript, hcreate]
    exact ⟨rfl, h.requirements, h.testCases, hrows, h.traces, h.uses⟩

theorem updatedRequirement (h : Twins db assets sql) (hs : History.Sound ⟨assets, drawn, updates⟩) (id : UUID)
    (values : RequirementValues) (status : RequirementStatus) (expectedVersion : Nat) (now : Instant) :
    Step db assets sql (.updateRequirement id values status expectedVersion now) := by
  unfold Step
  obtain ⟨e, hstore, hrows⟩ | ⟨updated, updated', store, rows, hstore, hrows, hkept, hmirrors⟩ :=
    h.requirements.update hs.requirements id expectedVersion values status now
  · simp only [Assets.on, SqlAssets.on, QualityRepository.updateRequirement, SqlAssets.updateRequirement, hstore, hrows]
    exact ⟨rfl, h⟩
  · simp only [Assets.on, SqlAssets.on, QualityRepository.updateRequirement, SqlAssets.updateRequirement, hstore, hrows]
    exact ⟨hkept, hmirrors, h.testCases, h.scripts, h.traces, h.uses⟩

theorem updatedTestCase (h : Twins db assets sql) (hs : History.Sound ⟨assets, drawn, updates⟩) (id : UUID)
    (expectedVersion : Nat) (values : TestCaseValues) (status : TestCaseStatus) (now : Instant) :
    Step db assets sql (.updateTestCase id expectedVersion values status now) := by
  unfold Step
  obtain ⟨e, hstore, hrows⟩ | ⟨updated, updated', store, rows, hstore, hrows, hkept, hmirrors⟩ :=
    h.testCases.update hs.testCases id expectedVersion values status now
  · simp only [Assets.on, SqlAssets.on, QualityRepository.updateTestCase, SqlAssets.updateTestCase, hstore, hrows]
    exact ⟨rfl, h⟩
  · simp only [Assets.on, SqlAssets.on, QualityRepository.updateTestCase, SqlAssets.updateTestCase, hstore, hrows]
    exact ⟨hkept, h.requirements, hmirrors, h.scripts, h.traces, h.uses⟩

theorem updatedScript (h : Twins db assets sql) (hs : History.Sound ⟨assets, drawn, updates⟩) (id : UUID)
    (expectedVersion : Nat) (values : ScriptValues) (status : AutomationScriptStatus) (now : Instant) :
    Step db assets sql (.updateScript id expectedVersion values status now) := by
  unfold Step
  obtain ⟨e, hstore, hrows⟩ | ⟨updated, updated', store, rows, hstore, hrows, hkept, hmirrors⟩ :=
    h.scripts.update hs.scripts id expectedVersion values status now
  · simp only [Assets.on, SqlAssets.on, AutomationRepository.updateScript, SqlAssets.updateScript, hstore, hrows]
    exact ⟨rfl, h⟩
  · simp only [Assets.on, SqlAssets.on, AutomationRepository.updateScript, SqlAssets.updateScript, hstore, hrows]
    exact ⟨hkept, h.requirements, h.testCases, hmirrors, h.traces, h.uses⟩

theorem linkedRequirement (h : Twins db assets sql) (requirementId testCaseId : UUID) (now : Instant) :
    Step db assets sql (.linkRequirementTestCase requirementId testCaseId now) := by
  unfold Step
  simp only [Assets.on, SqlAssets.on, QualityRepository.linkRequirementTestCase, SqlAssets.linkRequirementTestCase,
    QualityRepository.getRequirement, QualityRepository.getTestCase, h.requirements.get, h.testCases.get]
  cases assets.quality.requirements.get requirementKind requirementId with
  | error e => exact ⟨rfl, h⟩
  | ok requirement =>
    cases assets.quality.testCases.get testCaseKind testCaseId with
    | error e => exact ⟨rfl, h⟩
    | ok testCase =>
      simp only [Except.map, ok_bind]
      rw [show (requirement.kept db).projectId = requirement.projectId from rfl,
        show (testCase.kept db).projectId = testCase.projectId from rfl]
      by_cases hproject : requirement.projectId ≠ testCase.projectId
      · simp only [if_pos hproject, error_bind]
        exact ⟨rfl, h⟩
      · simp only [if_neg hproject, h.traces]
        obtain ⟨link, hlink, hrows⟩ | ⟨hlink, hrows⟩ :=
          linkRows_cases db assets.quality.links (requirementId, testCaseId) (.ok ()) now
        · simp only [hlink, hrows]
          exact ⟨⟨link.kept_kept db, rfl⟩, h.requirements, h.testCases, h.scripts, rfl, h.uses⟩
        · simp only [hlink, hrows]
          exact ⟨⟨rfl, rfl⟩, h.requirements, h.testCases, h.scripts, rfl, h.uses⟩

theorem linkedScript (h : Twins db assets sql) (testCaseId scriptId : UUID) (now : Instant) :
    Step db assets sql (.linkTestCase testCaseId scriptId now) := by
  unfold Step
  simp only [Assets.on, SqlAssets.on, AutomationRepository.linkTestCase, SqlAssets.linkTestCase,
    QualityRepository.getTestCase, AutomationRepository.getScript, h.testCases.get, h.scripts.get]
  cases assets.quality.testCases.get testCaseKind testCaseId with
  | error e => exact ⟨rfl, h⟩
  | ok testCase =>
    cases assets.automation.scripts.get scriptKind scriptId with
    | error e => exact ⟨rfl, h⟩
    | ok script =>
      simp only [Except.map, ok_bind]
      rw [show validateProject (testCase.kept db) (script.kept db) = validateProject testCase script from rfl,
        show validateLinkable (testCase.kept db) (script.kept db) = validateLinkable testCase script from rfl]
      cases validateProject testCase script with
      | error e => exact ⟨rfl, h⟩
      | ok _ =>
        simp only [ok_bind, h.uses]
        obtain ⟨link, hlink, hrows⟩ | ⟨hlink, hrows⟩ :=
          linkRows_cases db assets.automation.links (testCaseId, scriptId) (validateLinkable testCase script) now
        · simp only [hlink, hrows]
          exact ⟨⟨link.kept_kept db, rfl⟩, h.requirements, h.testCases, h.scripts, h.traces, rfl⟩
        · simp only [hlink, hrows]
          cases validateLinkable testCase script with
          | error e => exact ⟨rfl, h⟩
          | ok _ => exact ⟨⟨rfl, rfl⟩, h.requirements, h.testCases, h.scripts, h.traces, rfl⟩

/-- The targets of joined links are stored. -/
theorem stored {Fixed Values Status Fixed' Values' Status' : Type} {sources : Store Fixed Values Status}
    {targets : Store Fixed' Values' Status'} {links : Dict (UUID × UUID) LinkRecord} (h : Joined sources targets links) :
    ∀ key ∈ links.keys, (targets.records.get? key.2).isSome := by
  intro key hkey
  obtain ⟨link, hlink⟩ := Option.isSome_iff_exists.mp ((Dict.mem_keys_iff _ _).mp hkey)
  obtain ⟨-, a, b, -, hb, -⟩ := h key link hlink
  simp [hb]

theorem linkedTestCases (h : Twins db assets sql) (hs : History.Sound ⟨assets, drawn, updates⟩) (requirementId : UUID) :
    Step db assets sql (.listRequirementTestCases requirementId) := by
  refine ⟨?_, h⟩
  simp only [Assets.on, SqlAssets.on, QualityRepository.listRequirementTestCases, SqlAssets.listRequirementTestCases,
    QualityRepository.getRequirement, h.requirements.get, h.traces]
  cases assets.quality.requirements.get requirementKind requirementId with
  | error e => rfl
  | ok requirement =>
    obtain ⟨records, hrecords, hsame⟩ := h.testCases.linked requirementId (stored hs.traces)
    simp only [ok_bind, hrecords]
    exact hsame

theorem linkedScripts (h : Twins db assets sql) (hs : History.Sound ⟨assets, drawn, updates⟩) (testCaseId : UUID) :
    Step db assets sql (.listTestCaseScripts testCaseId) := by
  refine ⟨?_, h⟩
  simp only [Assets.on, SqlAssets.on, AutomationRepository.listTestCaseScripts, SqlAssets.listTestCaseScripts,
    QualityRepository.getTestCase, h.testCases.get, h.uses]
  cases assets.quality.testCases.get testCaseKind testCaseId with
  | error e => rfl
  | ok testCase =>
    obtain ⟨records, hrecords, hsame⟩ := h.scripts.linked testCaseId (stored hs.uses)
    simp only [ok_bind, hrecords]
    exact hsame

/-- Both stores answer a call alike, and are still alike after it. -/
theorem step (h : Twins db assets sql) (hs : History.Sound ⟨assets, drawn, updates⟩) (call : AssetCall)
    (hnew : ∀ id, call.draws = some id → id ∉ drawn) : Step db assets sql call := by
  cases hdraws : call.draws with
  | some newId => exact h.created hs hdraws (hnew newId hdraws)
  | none =>
    cases call <;> simp only [AssetCall.draws, reduceCtorEq] at hdraws
    case updateRequirement id values status expectedVersion now =>
      exact h.updatedRequirement hs id values status expectedVersion now
    case updateTestCase id expectedVersion values status now =>
      exact h.updatedTestCase hs id expectedVersion values status now
    case updateScript id expectedVersion values status now =>
      exact h.updatedScript hs id expectedVersion values status now
    case linkRequirementTestCase requirementId testCaseId now =>
      exact h.linkedRequirement requirementId testCaseId now
    case linkTestCase testCaseId scriptId now => exact h.linkedScript testCaseId scriptId now
    case listRequirementTestCases requirementId => exact h.linkedTestCases hs requirementId
    case listTestCaseScripts testCaseId => exact h.linkedScripts hs testCaseId
    -- The other calls read one family.
    all_goals refine ⟨?_, h⟩
    case listRequirements projectId => exact h.requirements.list projectId
    case listTestCases projectId => exact h.testCases.list projectId
    case listScripts projectId => exact h.scripts.list (some projectId)
    all_goals simp only [Assets.on, SqlAssets.on]
    case getRequirement requirementId =>
      rw [h.requirements.get]
      exact sameOutcome_map fun a => a.kept_kept db
    case getTestCase testCaseId =>
      rw [h.testCases.get]
      exact sameOutcome_map fun a => a.kept_kept db
    case getScript scriptId =>
      rw [h.scripts.get]
      exact sameOutcome_map fun a => a.kept_kept db
    case listRequirementRevisions requirementId =>
      rw [h.requirements.listRevisions hs.requirements]
      exact sameOutcome_map fun as => map_kept_kept db as
    case listTestCaseRevisions testCaseId =>
      rw [h.testCases.listRevisions hs.testCases]
      exact sameOutcome_map fun as => map_kept_kept db as
    case listRevisions scriptId =>
      rw [h.scripts.listRevisions hs.scripts]
      exact sameOutcome_map fun as => map_kept_kept db as
    case getRevision scriptId revision =>
      rw [h.scripts.getRevision hs.scripts]
      exact sameOutcome_map fun a => a.kept_kept db

end Twins

/-! ## Every sequence of calls -/

/-- From related states on, the answers are alike. -/
theorem Twins.answer_alike {drawn : List UUID} {updates : List (Family × UUID × Nat)} {assets : Assets} {sql : SqlAssets}
    (htwins : Twins db assets sql) (hs : History.Sound ⟨assets, drawn, updates⟩) {calls : List AssetCall}
    (hdrawn : DrawnOnce AssetCall.draws drawn calls) :
    List.Forall₂ (SameOutcome db) (answers Assets.on assets calls) (answers (SqlAssets.on db) sql calls) := by
  refine answers_alike (R := fun drawn assets sql => (∃ updates, History.Sound ⟨assets, drawn, updates⟩) ∧
    Twins db assets sql) ?_ ⟨⟨updates, hs⟩, htwins⟩ hdrawn
  rintro drawn assets sql call ⟨⟨updates, hs⟩, htwins⟩ hnew
  obtain ⟨hsame, hnext⟩ := htwins.step hs call hnew
  have hfresh : ¬ call.draws.any (· ∈ drawn) = true := by
    cases hdraws : call.draws with
    | none => simp
    | some id => simpa using hnew id hdraws
  have hstep : History.step ⟨assets, drawn, updates⟩ call = some ⟨(assets.on call).2, drawn ++ call.draws.toList,
      updates ++ call.accepted (assets.on call).1⟩ := by
    unfold History.step
    rw [if_neg hfresh]
  exact ⟨hsame, ⟨_, (hs.step hstep).sound⟩, hnext⟩

/-- Both repositories give every sequence of calls the same answers: the same errors with the same texts, the same
records but for what the columns do with a time, and lists of the same records. -/
theorem assets_answer_alike (db : Database) (calls : List AssetCall) (hdrawn : DrawnOnce AssetCall.draws [] calls) :
    List.Forall₂ (SameOutcome db) (answers Assets.on .empty calls) (answers (SqlAssets.on db) .empty calls) :=
  Twins.empty.answer_alike History.sound_start hdrawn

/-- Columns that keep whole seconds, on a database that sorts stably. -/
def secondsDatabase : Database where
  keep t := t / 1000000 * 1000000
  keep_keep t := by rw [Int.mul_ediv_cancel _ (by decide)]
  orderBy key rows := rows.mergeSort fun a b => key a ≤ key b
  orderBy_perm key rows := List.mergeSort_perm rows _
  orderBy_sorted key rows := by
    have hsorted : (rows.mergeSort fun a b => key a ≤ key b).Pairwise fun a b => decide (key a ≤ key b) :=
      List.pairwise_mergeSort (fun _ _ _ hab hbc => by simpa using le_trans (of_decide_eq_true hab) (of_decide_eq_true hbc))
      (fun a b => by simpa using le_total (key a) (key b)) rows
    simpa using hsorted

theorem login_answers_alike : DrawnOnce AssetCall.draws [] History.loginCalls ∧
    List.Forall₂ (SameOutcome secondsDatabase) (answers Assets.on .empty History.loginCalls)
      (answers (SqlAssets.on secondsDatabase) .empty History.loginCalls) :=
  ⟨by decide, assets_answer_alike secondsDatabase History.loginCalls (by decide)⟩

end SmartTest.Asset
