import SmartTest.Lib.Call
import SmartTest.Plan.Idempotency

/-!
# What a plan expands to

One run and one spec for each data row, in the order of the items and of their rows, or
nothing at all.
-/

open SmartTest.Lib SmartTest.Run SmartTest.Environment

namespace SmartTest.Plan

/-! ## An environment revision -/

/-- The last public value that a category has under a name. -/
def publicValue (category : ConfigurationCategory) (values : List ConfigurationValue) (name : String) :
    Option Json :=
  (values.filter fun value => !value.secret && value.category = category && value.name = name).getLast?.map
    ConfigurationValue.value

/-- The reference of a secret. -/
def secretReference? (value : ConfigurationValue) : Option SecretReference :=
  if value.secret then value.secretRef.map (⟨value.category, value.name, ·⟩) else none

theorem publicValue_cons (category : ConfigurationCategory) (value : ConfigurationValue)
    (rest : List ConfigurationValue) (name : String) :
    publicValue category (value :: rest) name = (publicValue category rest name).or
      (if value.secret = false ∧ value.category = category ∧ value.name = name then some value.value else none) := by
  unfold publicValue
  by_cases h : value.secret = false ∧ value.category = category ∧ value.name = name
  · rw [List.filter_cons_of_pos (by simp [h]), List.getLast?_cons, if_pos h]
    cases (rest.filter _).getLast? <;> rfl
  · rw [List.filter_cons_of_neg (by simpa [and_assoc] using h), if_neg h, Option.or_none]

/-- Public variables land among the variables, public parameters among the parameters, and a secret
leaves only its reference. -/
structure SnapshotOf (values : List ConfigurationValue) (snapshot : EnvironmentSnapshot) : Prop where
  variableValues : ∀ name, snapshot.environmentVariables.get? name = publicValue .environmentVariable values name
  common : ∀ name, snapshot.common.get? name = publicValue .commonParameter values name
  secrets : snapshot.secrets = values.filterMap secretReference?

theorem foldlM_addValue {values : List ConfigurationValue} {start snapshot : EnvironmentSnapshot}
    (h : values.foldlM addValue start = .ok snapshot) :
    (∀ name, snapshot.environmentVariables.get? name =
        (publicValue .environmentVariable values name).or (start.environmentVariables.get? name)) ∧
      (∀ name, snapshot.common.get? name = (publicValue .commonParameter values name).or (start.common.get? name)) ∧
      snapshot.secrets = start.secrets ++ values.filterMap secretReference? := by
  induction values generalizing start with
  | nil =>
    cases h
    simp [publicValue]
  | cons value rest ih =>
    simp only [List.foldlM_cons, bind_eq_ok_iff] at h
    obtain ⟨next, hnext, hrest⟩ := h
    obtain ⟨hvariables, hcommon, hsecrets⟩ := ih hrest
    simp only [publicValue_cons, hvariables, hcommon, hsecrets, List.filterMap_cons, secretReference?]
    unfold addValue at hnext
    cases hsecret : value.secret with
    | true =>
      cases href : value.secretRef with
      | none => simp [hsecret, href] at hnext
      | some ref =>
        simp only [hsecret, href, if_true, Except.ok.injEq] at hnext
        subst hnext
        simp
    | false =>
      cases hcategory : value.category with
      | environmentVariable =>
        simp only [hsecret, hcategory, Bool.false_eq_true, if_false, if_true, Except.ok.injEq] at hnext
        subst hnext
        refine ⟨fun name => ?_, by simp, by simp⟩
        by_cases hname : name = value.name <;> simp [hname, eq_comm]
      | commonParameter =>
        simp only [hsecret, hcategory, Bool.false_eq_true, if_false, reduceCtorEq, Except.ok.injEq] at hnext
        subst hnext
        refine ⟨by simp, fun name => ?_, by simp⟩
        by_cases hname : name = value.name <;> simp [hname, eq_comm]

theorem foldlM_addValue_secrets {values : List ConfigurationValue} {start snapshot : EnvironmentSnapshot}
    (h : values.foldlM addValue start = .ok snapshot) :
    ∀ value ∈ values, value.secret = true → value.secretRef.isSome := by
  induction values generalizing start with
  | nil => simp
  | cons value rest ih =>
    simp only [List.foldlM_cons, bind_eq_ok_iff] at h
    obtain ⟨next, hnext, hrest⟩ := h
    rintro found (_ | ⟨_, hfound⟩) hsecret
    · unfold addValue at hnext
      cases href : value.secretRef with
      | none => simp [hsecret, href] at hnext
      | some ref => rfl
    · exact ih hrest found hfound hsecret

/-! ## Items -/

/-- The values of the revision an item is pinned to. -/
def environmentValues (refs : References) (item : TestPlanItem) : Except Exn (List ConfigurationValue) :=
  match item.environmentId, item.environmentRevision with
  | some environmentId, some revision => refs.environment environmentId revision
  | _, _ => .ok []

theorem environmentSnapshot_eq (refs : References) (item : TestPlanItem) :
    environmentSnapshot refs item = (environmentValues refs item >>= fun values =>
      values.foldlM addValue ⟨.empty, .empty, []⟩) := by
  unfold environmentSnapshot environmentValues
  cases item.environmentId with
  | none => rfl
  | some environmentId =>
    cases item.environmentRevision with
    | none => rfl
    | some revision => rfl

theorem snapshotOf_environmentSnapshot {refs : References} {item : TestPlanItem} {snapshot : EnvironmentSnapshot}
    (h : environmentSnapshot refs item = .ok snapshot) :
    ∃ values, environmentValues refs item = .ok values ∧ SnapshotOf values snapshot ∧
      ∀ value ∈ values, value.secret = true → value.secretRef.isSome := by
  rw [environmentSnapshot_eq, bind_eq_ok_iff] at h
  obtain ⟨values, hvalues, hsnapshot⟩ := h
  obtain ⟨hvariables, hcommon, hsecrets⟩ := foldlM_addValue hsnapshot
  exact ⟨values, hvalues, ⟨by simpa using hvariables, by simpa using hcommon, by simpa using hsecrets⟩,
    foldlM_addValue_secrets hsnapshot⟩

/-- The row's values over the item's defaults over the common parameters. -/
def mergedParameters (snapshot : EnvironmentSnapshot) (item : TestPlanItem) (row : TestPlanDataRow) :
    Dict String Json :=
  (snapshot.common.update item.defaultParameters).update row.values

/-- What has to hold of an item for its rows to become runs. -/
def ItemExpands (refs : References) (item : TestPlanItem) : Prop :=
  (∃ script, refs.script item.scriptId item.scriptRevision = .ok script) ∧
    ∃ snapshot, environmentSnapshot refs item = .ok snapshot ∧
      ∀ row ∈ item.dataRows, refs.encodedSize (mergedParameters snapshot item row) ≤ MAX_JSON_MAP_BYTES

/-- The rows of a plan with their items, in the order of the batch. -/
def planRows (items : List TestPlanItem) : List (TestPlanItem × TestPlanDataRow) :=
  items.flatMap fun item => item.dataRows.map (item, ·)

section Rows

variable (refs : References) (drawn : Drawn) (now : Instant) (plan : TestPlanRecord)
  (sourceOverride : Option (String × String))

/-- What the `index`-th row of a plan becomes. -/
structure ExpandsTo (entry : (TestPlanItem × TestPlanDataRow) × Nat) (pair : RunRecord × RunSpecRecord) :
    Prop where
  runId : pair.1.id = drawn.runId entry.2
  specRun : pair.2.runId = pair.1.id
  specId : pair.2.id = drawn.specId entry.2
  batchId : pair.2.batchId = drawn.batchId
  created : pair.1.state = .created ∧ pair.1.stateVersion = 0 ∧ pair.1.createdAt = now
  ofPlan : pair.2.tenantId = plan.tenantId ∧ pair.2.projectId = plan.projectId ∧ pair.2.planId = plan.id ∧
    pair.2.planRevision = plan.revision
  ofItem : pair.2.itemId = entry.1.1.itemId ∧ pair.2.rowKey = entry.1.2.rowKey ∧
    pair.2.environmentId = entry.1.1.environmentId ∧
    pair.2.environmentRevision = entry.1.1.environmentRevision ∧
    pair.2.executionPolicy = entry.1.1.executionPolicy
  ofScript : ∃ script, refs.script entry.1.1.scriptId entry.1.1.scriptRevision = .ok script ∧
    pair.1.engine = script.engine ∧ pair.2.engine = script.engine ∧ pair.2.scriptId = script.id ∧
    pair.2.scriptRevision = script.revision ∧ pair.2.entrypoint = script.entrypoint ∧
    pair.2.timeoutSeconds = script.timeoutSeconds ∧
    (pair.2.sourceRef, pair.2.contentDigest) = sourceOverride.getD (script.sourceRef, script.contentDigest)
  sameParameters : pair.1.parameters = pair.2.parameters
  sized : refs.encodedSize pair.2.parameters ≤ MAX_JSON_MAP_BYTES
  ofEnvironment : ∃ values, environmentValues refs entry.1.1 = .ok values ∧
    (∀ name, pair.2.parameters.get? name = (entry.1.2.values.get? name).or
      ((entry.1.1.defaultParameters.get? name).or (publicValue .commonParameter values name))) ∧
    (∀ name, pair.2.environmentVariables.get? name = publicValue .environmentVariable values name) ∧
    pair.2.secretReferences = values.filterMap secretReference?

variable {refs drawn now plan sourceOverride}

theorem expandRow_ok_iff {item : TestPlanItem} {script : AutomationScriptRecord} {snapshot : EnvironmentSnapshot}
    {index : Nat} {row : TestPlanDataRow} :
    (∃ pair, expandRow refs drawn now plan sourceOverride item script snapshot index row = .ok pair) ↔
      refs.encodedSize (mergedParameters snapshot item row) ≤ MAX_JSON_MAP_BYTES := by
  simp only [expandRow, jsonObject, mergedParameters, bind_eq_ok_iff, ite_error_eq_ok_iff, pure_eq_ok_iff,
    gt_iff_lt, Nat.not_lt]
  constructor
  · rintro ⟨_, _, ⟨h, -⟩, -⟩
    exact h
  · intro h
    exact ⟨_, _, ⟨h, rfl⟩, rfl⟩

theorem expandsTo_of_expandRow {item : TestPlanItem} {script : AutomationScriptRecord}
    {snapshot : EnvironmentSnapshot} {index : Nat} {row : TestPlanDataRow} {pair : RunRecord × RunSpecRecord}
    (hscript : refs.script item.scriptId item.scriptRevision = .ok script)
    (hsnapshot : environmentSnapshot refs item = .ok snapshot)
    (h : expandRow refs drawn now plan sourceOverride item script snapshot index row = .ok pair) :
    ExpandsTo refs drawn now plan sourceOverride ((item, row), index) pair := by
  obtain ⟨values, hvalues, hof, -⟩ := snapshotOf_environmentSnapshot hsnapshot
  simp only [expandRow, jsonObject, bind_eq_ok_iff, ite_error_eq_ok_iff, pure_eq_ok_iff, gt_iff_lt, Nat.not_lt] at h
  obtain ⟨_, ⟨hsized, ⟨⟩⟩, rfl⟩ := h
  refine ⟨rfl, rfl, rfl, rfl, ⟨rfl, rfl, rfl⟩, ⟨rfl, rfl, rfl, rfl⟩, ⟨rfl, rfl, rfl, rfl, rfl⟩,
    ⟨script, hscript, rfl, rfl, rfl, rfl, rfl, rfl, rfl⟩, rfl, hsized, values, hvalues, ?_, hof.variableValues,
    hof.secrets⟩
  intro name
  simp only [Dict.get?_update, hof.common]

/-! ## Every row, in order -/

theorem expandRows_ok {item : TestPlanItem} {script : AutomationScriptRecord} {snapshot : EnvironmentSnapshot}
    (hscript : refs.script item.scriptId item.scriptRevision = .ok script)
    (hsnapshot : environmentSnapshot refs item = .ok snapshot) {index : Nat} {rows : List TestPlanDataRow}
    {pairs : List (RunRecord × RunSpecRecord)}
    (h : expandRows refs drawn now plan sourceOverride item script snapshot index rows = .ok pairs) :
    List.Forall₂ (ExpandsTo refs drawn now plan sourceOverride) ((rows.map (item, ·)).zipIdx index) pairs := by
  induction rows generalizing index pairs with
  | nil =>
    cases h
    exact .nil
  | cons row rest ih =>
    simp only [expandRows, bind_eq_ok_iff, pure_eq_ok_iff] at h
    obtain ⟨pair, hpair, others, hothers, rfl⟩ := h
    exact .cons (expandsTo_of_expandRow hscript hsnapshot hpair) (ih hothers)

theorem expandItems_ok {index : Nat} {items : List TestPlanItem} {pairs : List (RunRecord × RunSpecRecord)}
    (h : expandItems refs drawn now plan sourceOverride index items = .ok pairs) :
    List.Forall₂ (ExpandsTo refs drawn now plan sourceOverride) ((planRows items).zipIdx index) pairs := by
  induction items generalizing index pairs with
  | nil =>
    cases h
    exact .nil
  | cons item rest ih =>
    simp only [expandItems, bind_eq_ok_iff, pure_eq_ok_iff] at h
    obtain ⟨script, hscript, snapshot, hsnapshot, first, hfirst, others, hothers, rfl⟩ := h
    have hrows := expandRows_ok hscript hsnapshot hfirst
    have hlength : item.dataRows.length = first.length := by simpa using hrows.length_eq
    rw [planRows, List.flatMap_cons, List.zipIdx_append, List.length_map, hlength]
    exact List.rel_append hrows (ih hothers)

theorem expandRows_isOk {item : TestPlanItem} {script : AutomationScriptRecord} {snapshot : EnvironmentSnapshot}
    {index : Nat} {rows : List TestPlanDataRow} :
    (∃ pairs, expandRows refs drawn now plan sourceOverride item script snapshot index rows = .ok pairs) ↔
      ∀ row ∈ rows, refs.encodedSize (mergedParameters snapshot item row) ≤ MAX_JSON_MAP_BYTES := by
  induction rows generalizing index with
  | nil => simp [expandRows]
  | cons row rest ih =>
    rw [List.forall_mem_cons, ← @expandRow_ok_iff refs drawn now plan sourceOverride item script snapshot index row,
      ← @ih (index + 1)]
    simp only [expandRows, bind_eq_ok_iff, pure_eq_ok_iff]
    constructor
    · rintro ⟨_, pair, hpair, others, hothers, -⟩
      exact ⟨⟨pair, hpair⟩, others, hothers⟩
    · rintro ⟨⟨pair, hpair⟩, others, hothers⟩
      exact ⟨_, pair, hpair, others, hothers, rfl⟩

/-- The expansion goes through exactly when every item does. -/
theorem expandItems_isOk {index : Nat} {items : List TestPlanItem} :
    (∃ pairs, expandItems refs drawn now plan sourceOverride index items = .ok pairs) ↔
      ∀ item ∈ items, ItemExpands refs item := by
  induction items generalizing index with
  | nil => simp [expandItems]
  | cons item rest ih =>
    rw [List.forall_mem_cons]
    simp only [expandItems, bind_eq_ok_iff, pure_eq_ok_iff, ItemExpands]
    constructor
    · rintro ⟨_, script, hscript, snapshot, hsnapshot, first, hfirst, others, hothers, -⟩
      exact ⟨⟨⟨script, hscript⟩, snapshot, hsnapshot, expandRows_isOk.mp ⟨first, hfirst⟩⟩, ih.mp ⟨others, hothers⟩⟩
    · rintro ⟨⟨⟨script, hscript⟩, snapshot, hsnapshot, hrows⟩, hrest⟩
      obtain ⟨first, hfirst⟩ := expandRows_isOk.mpr hrows
      obtain ⟨others, hothers⟩ := ih.mpr hrest
      exact ⟨_, script, hscript, snapshot, hsnapshot, first, hfirst, others, hothers, rfl⟩

end Rows

/-! ## Storing the batch -/

/-- The repositories that `execute` writes. -/
structure PlanState where
  plans : TestPlanRepository
  runs : RunRepository

/-- A call on them: when it raises, what it has written stays. -/
abbrev PlanCall := Call Exn PlanState

/-- The writes of a new batch, in their order. -/
def writeBatch (batch : ExecutionBatchRecord) (pairs : List (RunRecord × RunSpecRecord)) : PlanCall Unit := do
  pairs.forM fun p => modify fun s => { s with runs := s.runs.putRun p.1 }
  modify fun s => { s with plans.batches := s.plans.batches.set batch.id batch }
  pairs.forM fun p => modify fun s => { s with plans.specsByRun := s.plans.specsByRun.set p.2.runId p.2 }
  modify fun s => { s with
    plans.idempotency := s.plans.idempotency.set batch.scope (batch.planId, batch.planRevision, batch.id) }

open TestPlanRepository in
/-- `execute`, write by write. -/
def executeWrites (refs : References) (drawn : Drawn) (now : Instant) (sourceOverride : Option (String × String))
    (planId : UUID) (idempotencyKey : String) : PlanCall (ExecutionBatchRecord × Bool) := do
  let key ← ofExcept (checkKey idempotencyKey)
  let plan ← ofExcept ((← get).plans.getPlan planId)
  match (← get).plans.idempotency.get? (plan.tenantId, plan.projectId, key) with
  | some (savedPlan, savedRevision, batchId) =>
    if (savedPlan, savedRevision) ≠ (plan.id, plan.revision) then throw keyConflict
    let some batch := (← get).plans.batches.get? batchId | throw ⟨.keyError, batchId.text⟩
    return (batch, true)
  | none =>
    if plan.status ≠ .active then throw notActive
    let pairs ← ofExcept (expand refs drawn now plan sourceOverride)
    let batch := batchOf drawn plan key pairs
    writeBatch batch pairs
    return (batch, false)

theorem foldl_putRun (pairs : List (RunRecord × RunSpecRecord)) (state : PlanState) :
    pairs.foldl (fun s p => { s with runs := s.runs.putRun p.1 }) state =
      { state with runs := { state.runs with
          runs := pairs.foldl (fun table p => table.set p.1.id p.1) state.runs.runs } } := by
  induction pairs generalizing state with
  | nil => rfl
  | cons p rest ih => exact ih _

theorem foldl_putSpec (pairs : List (RunRecord × RunSpecRecord)) (state : PlanState) :
    pairs.foldl (fun s p => { s with plans.specsByRun := s.plans.specsByRun.set p.2.runId p.2 }) state =
      { state with plans := { state.plans with
          specsByRun := pairs.foldl (fun specs p => specs.set p.2.runId p.2) state.plans.specsByRun } } := by
  induction pairs generalizing state with
  | nil => rfl
  | cons p rest ih => exact ih _

theorem writeBatch_on (batch : ExecutionBatchRecord) (pairs : List (RunRecord × RunSpecRecord))
    (state : PlanState) :
    (writeBatch batch pairs).on state = (.ok (), ⟨(state.plans.storeBatch state.runs batch pairs).1,
      (state.plans.storeBatch state.runs batch pairs).2⟩) := by
  unfold writeBatch
  rw [Call.on_bind, Call.on_forM_modify, foldl_putRun]
  dsimp only
  rw [Call.on_bind]
  show Call.on (List.forM pairs _ >>= _) _ = _
  rw [Call.on_bind, Call.on_forM_modify, foldl_putSpec]
  rfl

/-- The writes come last, so a call that raises has written nothing. -/
theorem executeWrites_on (refs : References) (drawn : Drawn) (now : Instant)
    (sourceOverride : Option (String × String)) (planId : UUID) (idempotencyKey : String) (state : PlanState) :
    (executeWrites refs drawn now sourceOverride planId idempotencyKey).on state =
      match state.plans.execute refs drawn now sourceOverride state.runs planId idempotencyKey with
      | .ok (answer, plans, runs) => (.ok answer, ⟨plans, runs⟩)
      | .error e => (.error e, state) := by
  unfold executeWrites TestPlanRepository.execute
  rw [Call.on_bind, Call.on_ofExcept]
  cases TestPlanRepository.checkKey idempotencyKey with
  | error e => rfl
  | ok key =>
    rw [ok_bind]
    dsimp only
    rw [Call.on_bind, Call.on_get]
    dsimp only
    rw [Call.on_bind, Call.on_ofExcept]
    cases state.plans.getPlan planId with
    | error e => rfl
    | ok plan =>
      rw [ok_bind]
      dsimp only
      rw [Call.on_bind, Call.on_get]
      dsimp only
      cases state.plans.idempotency.get? (plan.tenantId, plan.projectId, key) with
      | some saved =>
        obtain ⟨savedPlan, savedRevision, batchId⟩ := saved
        dsimp only
        split
        · rfl
        · rw [Call.on_bind, Call.on_get]
          dsimp only
          cases state.plans.batches.get? batchId <;> rfl
      | none =>
        dsimp only
        split
        · rfl
        · rw [Call.on_bind, Call.on_ofExcept]
          cases expand refs drawn now plan sourceOverride with
          | error e => rfl
          | ok pairs =>
            dsimp only
            rw [Call.on_bind, writeBatch_on]
            rfl

/-- The ids a call draws are new and differ. -/
structure Drawn.Fresh (drawn : Drawn) (state : PlanState) : Prop where
  distinct : ∀ i j, drawn.runId i = drawn.runId j → i = j
  runs : ∀ i, state.runs.runs.get? (drawn.runId i) = none
  specs : ∀ i, state.plans.specsByRun.get? (drawn.runId i) = none
  batch : state.plans.batches.get? drawn.batchId = none

/-- The runs, the specs, the batch and its key are there, and nothing else is new. -/
structure BatchStored (state after : PlanState) (batch : ExecutionBatchRecord)
    (pairs : List (RunRecord × RunSpecRecord)) : Prop where
  runs : after.runs.runs.entries = state.runs.runs.entries ++ pairs.map fun p => (p.1.id, p.1)
  specs : after.plans.specsByRun.entries = state.plans.specsByRun.entries ++ pairs.map fun p => (p.1.id, p.2)
  batches : after.plans.batches.entries = state.plans.batches.entries ++ [(batch.id, batch)]
  idempotency : after.plans.idempotency =
    state.plans.idempotency.set batch.scope (batch.planId, batch.planRevision, batch.id)
  rest : after.plans.plans = state.plans.plans ∧ after.runs = { state.runs with runs := after.runs.runs }

section Batch

variable {refs : References} {drawn : Drawn} {now : Instant} {plan : TestPlanRecord}
  {sourceOverride : Option (String × String)}

theorem runIds_of_expandsTo {rows : List (TestPlanItem × TestPlanDataRow)} {index : Nat}
    {pairs : List (RunRecord × RunSpecRecord)}
    (h : List.Forall₂ (ExpandsTo refs drawn now plan sourceOverride) (rows.zipIdx index) pairs) :
    pairs.map (·.1.id) = (List.range' index pairs.length).map drawn.runId := by
  induction rows generalizing index pairs with
  | nil =>
    cases h
    rfl
  | cons row rest ih =>
    obtain ⟨pair, others, hpair, hothers, rfl⟩ := List.forall₂_cons_left_iff.mp h
    rw [List.map_cons, ih hothers, hpair.runId, List.length_cons, List.range'_succ, List.map_cons]

theorem runIds_nodup {rows : List (TestPlanItem × TestPlanDataRow)} {index : Nat}
    {pairs : List (RunRecord × RunSpecRecord)}
    (h : List.Forall₂ (ExpandsTo refs drawn now plan sourceOverride) (rows.zipIdx index) pairs)
    (hdistinct : ∀ i j, drawn.runId i = drawn.runId j → i = j) : (pairs.map (·.1.id)).Nodup := by
  rw [runIds_of_expandsTo h]
  exact List.Nodup.map (fun i j => hdistinct i j) List.nodup_range'

theorem forall₂_right {α β : Type} {r : α → β → Prop} {P : β → Prop} {l : List α} {l' : List β}
    (h : List.Forall₂ r l l') (hP : ∀ a b, r a b → P b) : ∀ b ∈ l', P b := by
  induction h with
  | nil => simp
  | cons hr _ ih => exact List.forall_mem_cons.mpr ⟨hP _ _ hr, ih⟩

theorem storeBatch_stored {state : PlanState} {rows : List (TestPlanItem × TestPlanDataRow)} {key : String}
    {pairs : List (RunRecord × RunSpecRecord)} (hfresh : drawn.Fresh state)
    (h : List.Forall₂ (ExpandsTo refs drawn now plan sourceOverride) rows.zipIdx pairs) :
    BatchStored state ⟨(state.plans.storeBatch state.runs (batchOf drawn plan key pairs) pairs).1,
      (state.plans.storeBatch state.runs (batchOf drawn plan key pairs) pairs).2⟩
      (batchOf drawn plan key pairs) pairs := by
  have hnodup := runIds_nodup h hfresh.distinct
  have hrun : ∀ p ∈ pairs, state.runs.runs.get? p.1.id = none ∧
      state.plans.specsByRun.get? p.2.runId = none ∧ p.2.runId = p.1.id :=
    forall₂_right h fun entry pair hpair => by
      rw [hpair.specRun, hpair.runId]
      exact ⟨hfresh.runs _, hfresh.specs _, rfl⟩
  have hids : pairs.map (·.2.runId) = pairs.map (·.1.id) :=
    List.map_congr_left fun p hp => (hrun p hp).2.2
  refine ⟨?_, ?_, ?_, rfl, rfl, rfl⟩
  · exact Dict.entries_foldl_set (fun p : RunRecord × RunSpecRecord => p.1.id) (·.1) pairs _ hnodup
      fun p hp => (hrun p hp).1
  · have hspecs := Dict.entries_foldl_set (fun p : RunRecord × RunSpecRecord => p.2.runId) (·.2) pairs
      state.plans.specsByRun (by rw [hids]; exact hnodup) fun p hp => (hrun p hp).2.1
    refine hspecs.trans (congrArg _ (List.map_congr_left fun p hp => ?_))
    rw [(hrun p hp).2.2]
  · exact Dict.entries_set_new _ _ _ hfresh.batch

/-- A call with a free key on an active plan is an expansion. -/
theorem executeWrites_expands (refs : References) (drawn : Drawn) (now : Instant)
    (sourceOverride : Option (String × String)) {state : PlanState} {planId : UUID} {idempotencyKey key : String}
    (hkey : TestPlanRepository.checkKey idempotencyKey = .ok key)
    (hplan : state.plans.plans.get? planId = some plan) (hactive : plan.status = .active)
    (hfree : state.plans.idempotency.get? (plan.tenantId, plan.projectId, key) = none) :
    (∀ pairs, expand refs drawn now plan sourceOverride = .ok pairs →
      (executeWrites refs drawn now sourceOverride planId idempotencyKey).on state =
        (.ok (batchOf drawn plan key pairs, false),
          ⟨(state.plans.storeBatch state.runs (batchOf drawn plan key pairs) pairs).1,
            (state.plans.storeBatch state.runs (batchOf drawn plan key pairs) pairs).2⟩)) ∧
    ∀ e, expand refs drawn now plan sourceOverride = .error e →
      (executeWrites refs drawn now sourceOverride planId idempotencyKey).on state = (.error e, state) := by
  have hget := getPlan_ok_iff.mpr hplan
  constructor
  · intro pairs hpairs
    rw [executeWrites_on, TestPlanRepository.execute, hkey, ok_bind, hget, ok_bind, hfree]
    dsimp only
    rw [if_neg (by simp [hactive]), hpairs, ok_bind]
    rfl
  · intro e he
    rw [executeWrites_on, TestPlanRepository.execute, hkey, ok_bind, hget, ok_bind, hfree]
    dsimp only
    rw [if_neg (by simp [hactive]), he]
    rfl

/-- A call that raises has stored nothing. -/
theorem executeWrites_error {state : PlanState} {planId : UUID} {idempotencyKey : String} {e : Exn}
    (h : ((executeWrites refs drawn now sourceOverride planId idempotencyKey).on state).1 = .error e) :
    ((executeWrites refs drawn now sourceOverride planId idempotencyKey).on state).2 = state := by
  rw [executeWrites_on] at h ⊢
  cases hexecute : state.plans.execute refs drawn now sourceOverride state.runs planId idempotencyKey with
  | error e' => rfl
  | ok result =>
    rw [hexecute] at h
    cases h

/-- Every row of every item becomes a run with its spec, or the call raises. -/
theorem executeWrites_complete (refs : References) (drawn : Drawn) (now : Instant)
    (sourceOverride : Option (String × String)) {state : PlanState} {planId : UUID} {idempotencyKey key : String}
    (hkey : TestPlanRepository.checkKey idempotencyKey = .ok key)
    (hplan : state.plans.plans.get? planId = some plan) (hactive : plan.status = .active)
    (hfree : state.plans.idempotency.get? (plan.tenantId, plan.projectId, key) = none) (hfresh : drawn.Fresh state) :
    let outcome := (executeWrites refs drawn now sourceOverride planId idempotencyKey).on state
    ((∃ item ∈ plan.items, ¬ ItemExpands refs item) ∧ ∃ e, outcome.1 = .error e) ∨
      ((∀ item ∈ plan.items, ItemExpands refs item) ∧
        ∃ pairs, outcome.1 = .ok (batchOf drawn plan key pairs, false) ∧
          List.Forall₂ (ExpandsTo refs drawn now plan sourceOverride) (planRows plan.items).zipIdx pairs ∧
          (pairs.map (·.1.id)).Nodup ∧ BatchStored state outcome.2 (batchOf drawn plan key pairs) pairs) := by
  intro outcome
  obtain ⟨hok, herror⟩ := executeWrites_expands refs drawn now sourceOverride hkey hplan hactive hfree
  have hiff := @expandItems_isOk refs drawn now plan sourceOverride 0 plan.items
  cases hexpand : expand refs drawn now plan sourceOverride with
  | error e =>
    left
    refine ⟨?_, e, congrArg Prod.fst (herror e hexpand)⟩
    by_contra hall
    push Not at hall
    obtain ⟨pairs, hpairs⟩ := hiff.mpr hall
    rw [expand, hpairs] at hexpand
    cases hexpand
  | ok pairs =>
    right
    have hrows := expandItems_ok hexpand
    refine ⟨hiff.mp ⟨pairs, hexpand⟩, pairs, congrArg Prod.fst (hok pairs hexpand), hrows,
      runIds_nodup hrows hfresh.distinct, ?_⟩
    rw [show outcome = _ from hok pairs hexpand]
    exact storeBatch_stored hfresh hrows

end Batch

end SmartTest.Plan
