import SmartTest.Environment.Secrets
import SmartTest.Plan.SqlRecords

/-!
# Both stores expand a plan alike

The tables hold what the repositories in memory hold, so an `execute` makes the same runs
and specs from them.
-/

open SmartTest.Lib SmartTest.Run SmartTest.Environment

namespace SmartTest.Plan

open Tables

variable {floatRepr : Rat → List Char} {encryptor : SecretEncryptor}

/-! ## Expanding -/

/-- The tables with the rows of some pairs, the first at `position`. -/
def Tables.withPairs (tables : Tables) (clock : Nat → Instant) (position : Nat)
    (pairs : List (RunRecord × RunSpecRecord)) : Tables :=
  { tables with
    runs := (pairs.zipIdx position).foldl
      (fun runs e => runs.set e.1.1.id { e.1.1 with createdAt := clock e.2 }) tables.runs
    specs := (pairs.zipIdx position).foldl
      (fun specs e => specs.set e.1.2.id { toRunSpecRecord := e.1.2, position := e.2 }) tables.specs }

theorem withPairs_append (tables : Tables) (clock : Nat → Instant) (position : Nat)
    (pairs others : List (RunRecord × RunSpecRecord)) :
    tables.withPairs clock position (pairs ++ others) =
      (tables.withPairs clock position pairs).withPairs clock (position + pairs.length) others := by
  simp only [Tables.withPairs, List.zipIdx_append, List.foldl_append]

/-- The call does to the tables what a computation says, or raises as it does. -/
def Simulates {α β : Type} (x : Except Exn α) (outcome : Except Exn β × Tables) (answer : α → β)
    (after : α → Tables) : Prop :=
  match x with
  | .ok a => outcome = (.ok (answer a), after a)
  | .error e => outcome.1 = .error e

theorem Simulates.bind {α β γ δ : Type} {x : Except Exn α} {call : Session β} {tables : Tables} {answer : α → β}
    {after : α → Tables} (h : Simulates x (call.on tables) answer after) {f : α → Except Exn γ}
    {next : β → Session δ} {answer' : γ → δ} {after' : γ → Tables}
    (hnext : ∀ a, x = .ok a → Simulates (f a) ((next (answer a)).on (after a)) answer' after') :
    Simulates (x >>= f) ((call >>= next).on tables) answer' after' := by
  rw [Call.on_bind]
  cases x with
  | error e =>
    rcases hcall : call.on tables with ⟨_ | b, s⟩
    · rw [hcall] at h
      obtain rfl := Except.error.inj h
      rfl
    · rw [hcall] at h
      cases h
  | ok a =>
    have hcall : call.on tables = (.ok (answer a), after a) := h
    rw [hcall]
    exact hnext a rfl

theorem Simulates.map {α β γ : Type} {x : Except Exn α} {outcome : Except Exn β × Tables} {answer : α → β}
    {after : α → Tables} (h : Simulates x outcome answer after) {g : α → γ} {answer' : γ → β} {after' : γ → Tables}
    (hsame : ∀ a, answer' (g a) = answer a ∧ after' (g a) = after a) :
    Simulates (x >>= fun a => pure (g a)) outcome answer' after' := by
  cases x with
  | error e => exact h
  | ok a =>
    show outcome = (.ok (answer' (g a)), after' (g a))
    rw [(hsame a).1, (hsame a).2]
    exact h

section Rows

variable {refs : References} {drawn : Drawn} {clock : Nat → Instant} {now : Instant} {plan : TestPlanRecord}
  {sourceOverride : Option (String × String)} {item : TestPlanItem} {parent : AutomationScriptModel}
  {values : ScriptValues} {script : AutomationScriptRecord} {snapshot : EnvironmentSnapshot}

/-- The two rows of a script that stand for a revision. -/
structure SameScript (item : TestPlanItem) (parent : AutomationScriptModel) (values : ScriptValues)
    (script : AutomationScriptRecord) : Prop where
  id : script.id = item.scriptId
  revision : script.revision = item.scriptRevision
  engine : parent.engine = script.engine
  entrypoint : values.entrypoint = script.entrypoint
  sourceRef : values.sourceRef = script.sourceRef
  contentDigest : values.contentDigest = script.contentDigest
  timeoutSeconds : values.timeoutSeconds = script.timeoutSeconds

theorem addRowPair_on (hrefs : refs.encodedSize = objectSize floatRepr) (hscript : SameScript item parent values script)
    (position : Nat) (row : TestPlanDataRow) (tables : Tables) :
    Simulates (expandRow refs drawn now plan sourceOverride item script snapshot position row)
      ((addRowPair floatRepr drawn clock plan drawn.batchId sourceOverride item parent values snapshot position
        row).on tables) (fun _ => ()) fun pair => tables.withPairs clock position [pair] := by
  have hcheck : checkedObject floatRepr ((snapshot.common.update item.defaultParameters).update row.values)
      "final parameters" = jsonObject refs ((snapshot.common.update item.defaultParameters).update row.values)
      "final parameters" := by
    simp only [checkedObject, jsonObject, hrefs, planError]
  unfold addRowPair expandRow
  rw [Call.on_bind, Call.on_ofExcept, hcheck]
  cases jsonObject refs ((snapshot.common.update item.defaultParameters).update row.values) "final parameters" with
  | error e => rfl
  | ok parameters =>
    rw [hscript.id, hscript.revision, ← hscript.engine, ← hscript.entrypoint, ← hscript.sourceRef,
      ← hscript.contentDigest, ← hscript.timeoutSeconds]
    rfl

theorem addRowPairs_on (hrefs : refs.encodedSize = objectSize floatRepr)
    (hscript : SameScript item parent values script) (position : Nat) (rows : List TestPlanDataRow) (tables : Tables) :
    Simulates (expandRows refs drawn now plan sourceOverride item script snapshot position rows)
      ((addRowPairs floatRepr drawn clock plan drawn.batchId sourceOverride item parent values snapshot position
        rows).on tables) (fun pairs => position + pairs.length) fun pairs => tables.withPairs clock position pairs := by
  induction rows generalizing position tables with
  | nil => rfl
  | cons row rest ih =>
    refine Simulates.bind (addRowPair_on hrefs hscript position row tables) fun pair _ => ?_
    refine Simulates.map (ih (position + 1) _) fun pairs => ⟨?_, rfl⟩
    rw [List.length_cons]
    omega

end Rows

/-! ### The references of an item -/

theorem Represents.withPairs {tables : Tables} {catalog : Catalog} (h : Represents tables catalog)
    (clock : Nat → Instant) (position : Nat) (pairs : List (RunRecord × RunSpecRecord)) :
    Represents (tables.withPairs clock position pairs) catalog :=
  ⟨h.scripts, h.scriptRevisions, h.environments, h.environmentRevisions, h.environmentValues, h.written, h.plans⟩

theorem Represents.scriptRevision {tables : Tables} {catalog : Catalog} (h : Represents tables catalog)
    (hok : CatalogOk floatRepr catalog) {projectId : UUID} {item : TestPlanItem}
    (hrefs : ItemRefs catalog projectId item) :
    ∃ parent values script, tables.scriptRevision projectId item.scriptId item.scriptRevision =
        .ok (parent, values) ∧
      (catalog.references floatRepr).script item.scriptId item.scriptRevision = .ok script ∧
      SameScript item parent values script := by
  obtain ⟨k, record, hk, hstored, hproject, hactive, -⟩ := hrefs.script
  have hget := hok.scripts.getRevision_eq hstored
  obtain ⟨history, hhistory, hrecord⟩ := hstored
  obtain ⟨current, hcurrent⟩ := Option.isSome_iff_exists.mp (hok.scripts.versions.known _ history hhistory)
  obtain ⟨hengine, hfixed⟩ := hok.scripts.fixed _ current hcurrent k record ⟨history, hhistory, hrecord⟩
  obtain ⟨hid, hrevision⟩ := hok.scripts.versions.numbered _ history hhistory k record hrecord
  refine ⟨scriptModel current, scriptValues record, record.toAutomationScriptRecord, ?_, ?_, ?_⟩
  · have hproject' : (scriptModel current).projectId = projectId := hfixed.symm.trans hproject
    have hactive' : (scriptValues record).status = .active := hactive
    simp only [Tables.scriptRevision, h.scripts, hcurrent, Option.map_some, hk,
      h.scriptRevisions _ _ _ ⟨history, hhistory, hrecord⟩, hproject', hactive', ne_eq, not_true_eq_false, if_false]
    rfl
  · simp only [Catalog.references, hk, hget]
    rfl
  · exact ⟨hid, hrevision.trans hk.symm, hengine.symm, rfl, rfl, rfl, rfl⟩

theorem Represents.environmentSnapshot {tables : Tables} {catalog : Catalog} (h : Represents tables catalog)
    (hok : CatalogOk floatRepr catalog) {projectId : UUID} {item : TestPlanItem}
    (hrefs : ItemRefs catalog projectId item) :
    tables.environmentSnapshot projectId item = Plan.environmentSnapshot (catalog.references floatRepr) item := by
  rcases hrefs.environment with ⟨hid, -⟩ | ⟨id, k, record, hid, hrevision, hstored, hproject, hactive⟩
  · simp only [Tables.environmentSnapshot, Plan.environmentSnapshot, hid]
  · have hget := hok.environments.shape.getRevision_eq hstored
    have hrows := h.revisionRows hok hstored
    have hrevisionRow := h.environmentRevisions _ _ _ hstored
    obtain ⟨history, hhistory, hrecord⟩ := hstored
    obtain ⟨current, hcurrent⟩ :=
      Option.isSome_iff_exists.mp (hok.environments.shape.versions.known _ history hhistory)
    have hproject' : (environmentModel current).projectId = projectId :=
      (hok.environments.fixed _ current hcurrent k record ⟨history, hhistory, hrecord⟩).symm.trans hproject
    simp only [Tables.environmentSnapshot, Plan.environmentSnapshot, hid, hrevision, Tables.environmentRevision,
      h.environments, hcurrent, Option.map_some, hrevisionRow, hproject', hactive, hrows, foldlM_addRow,
      Catalog.references, hget, ne_eq, not_true_eq_false, if_false]
    rfl

/-! ### Every item -/

theorem expandItems_on {catalog : Catalog} (hok : CatalogOk floatRepr catalog) (drawn : Drawn)
    (clock : Nat → Instant) (now : Instant) {plan : TestPlanRecord} (sourceOverride : Option (String × String))
    {items : List TestPlanItem} (hitems : ∀ item ∈ items, ItemRefs catalog plan.projectId item) (position : Nat)
    {tables : Tables} (h : Represents tables catalog) :
    Simulates (Plan.expandItems (catalog.references floatRepr) drawn now plan sourceOverride position items)
      ((Tables.expandItems floatRepr drawn clock plan drawn.batchId sourceOverride position items).on tables)
      (fun _ => ()) fun pairs => tables.withPairs clock position pairs := by
  induction items generalizing position tables with
  | nil => rfl
  | cons item rest ih =>
    obtain ⟨hitem, hrest⟩ := List.forall_mem_cons.mp hitems
    obtain ⟨parent, values, script, hparent, hscript, hsame⟩ := h.scriptRevision hok hitem
    have hsnapshot := h.environmentSnapshot hok hitem
    rw [Tables.expandItems, Plan.expandItems, hscript, ok_bind, Call.on_bind, Call.on_get]
    dsimp only
    rw [Call.on_bind, Call.on_ofExcept, hparent]
    dsimp only
    rw [Call.on_bind, Call.on_get]
    dsimp only
    rw [Call.on_bind, Call.on_ofExcept, hsnapshot]
    cases Plan.environmentSnapshot (catalog.references floatRepr) item with
    | error e => rfl
    | ok snapshot =>
      rw [ok_bind]
      dsimp only
      refine Simulates.bind (addRowPairs_on rfl hsame position item.dataRows tables) fun pairs _ => ?_
      refine Simulates.map (ih hrest (position + pairs.length) (h.withPairs clock position pairs))
        fun others => ⟨rfl, ?_⟩
      exact withPairs_append tables clock position pairs others

/-! ## The batch -/

def batchModel (batch : ExecutionBatchRecord) : ExecutionBatchModel :=
  ⟨batch.id, batch.tenantId, batch.projectId, batch.planId, batch.planRevision, batch.idempotencyKey,
    batch.maxParallel⟩

/-- The tables after an `execute` that made these pairs. -/
def Tables.withBatch (tables : Tables) (clock : Nat → Instant) (batch : ExecutionBatchRecord)
    (pairs : List (RunRecord × RunSpecRecord)) : Tables :=
  { tables with batches := tables.batches.set batch.id (batchModel batch) }.withPairs clock 0 pairs

/-- The ids a call draws are in no table yet. -/
structure Drawn.Unused (drawn : Drawn) (tables : Tables) : Prop where
  runs : ∀ i, tables.runs.get? (drawn.runId i) = none
  specs : ∀ i, tables.specs.get? (drawn.specId i) = none
  distinctSpecs : ∀ i j, drawn.specId i = drawn.specId j → i = j
  batch : tables.batches.get? drawn.batchId = none
  batchSpecs : ∀ spec ∈ tables.specs.values, spec.batchId ≠ drawn.batchId

/-- The rows of the runs, the specs and the batch are there, and nothing else is new. -/
structure RowsStored (tables after : Tables) (clock : Nat → Instant) (batch : ExecutionBatchRecord)
    (pairs : List (RunRecord × RunSpecRecord)) : Prop where
  runs : after.runs.entries = tables.runs.entries ++
    pairs.zipIdx.map fun e => (e.1.1.id, { e.1.1 with createdAt := clock e.2 })
  specs : after.specs.entries = tables.specs.entries ++
    pairs.zipIdx.map fun e => (e.1.2.id, { toRunSpecRecord := e.1.2, position := e.2 })
  batches : after.batches.entries = tables.batches.entries ++ [(batch.id, batchModel batch)]
  rest : { after with runs := tables.runs, specs := tables.specs, batches := tables.batches } = tables

section Batch

variable {refs : References} {drawn : Drawn} {now : Instant} {plan : TestPlanRecord}
  {sourceOverride : Option (String × String)} {rows : List (TestPlanItem × TestPlanDataRow)}
  {pairs : List (RunRecord × RunSpecRecord)} {tables : Tables}

theorem map_zipIdx_fst {α β : Type} (f : α → β) (l : List α) (n : Nat) :
    (l.zipIdx n).map (fun e => f e.1) = l.map f := by
  calc (l.zipIdx n).map (fun e => f e.1) = ((l.zipIdx n).map Prod.fst).map f := by rw [List.map_map]; rfl
    _ = l.map f := by rw [List.zipIdx_map_fst]

theorem specIds_of_expandsTo {index : Nat}
    (h : List.Forall₂ (ExpandsTo refs drawn now plan sourceOverride) (rows.zipIdx index) pairs) :
    pairs.map (·.2.id) = (List.range' index pairs.length).map drawn.specId := by
  induction rows generalizing index pairs with
  | nil =>
    cases h
    rfl
  | cons row rest ih =>
    obtain ⟨pair, others, hpair, hothers, rfl⟩ := List.forall₂_cons_left_iff.mp h
    rw [List.map_cons, ih hothers, hpair.specId, List.length_cons, List.range'_succ, List.map_cons]

theorem withBatch_stored (clock : Nat → Instant) (key : String) (hunused : drawn.Unused tables) (hdistinct : ∀ i j, drawn.runId i = drawn.runId j → i = j)
    (h : List.Forall₂ (ExpandsTo refs drawn now plan sourceOverride) rows.zipIdx pairs) :
    RowsStored tables (tables.withBatch clock (batchOf drawn plan key pairs) pairs) clock
      (batchOf drawn plan key pairs) pairs := by
  have hmem : ∀ e ∈ pairs.zipIdx, e.1 ∈ pairs := by
    rintro ⟨pair, i⟩ he
    exact (List.mem_zipIdx' he).2 ▸ List.getElem_mem _
  have hnone : ∀ p ∈ pairs, tables.runs.get? p.1.id = none ∧ tables.specs.get? p.2.id = none :=
    forall₂_right h fun entry pair hpair => by
      rw [hpair.runId, hpair.specId]
      exact ⟨hunused.runs _, hunused.specs _⟩
  refine ⟨?_, ?_, Dict.entries_set_new _ _ _ hunused.batch, rfl⟩
  · refine Dict.entries_foldl_set (fun e : (RunRecord × RunSpecRecord) × Nat => e.1.1.id)
      (fun e => { e.1.1 with createdAt := clock e.2 }) pairs.zipIdx _ ?_ fun e he => (hnone _ (hmem e he)).1
    rw [map_zipIdx_fst fun p : RunRecord × RunSpecRecord => p.1.id]
    exact runIds_nodup h hdistinct
  · refine Dict.entries_foldl_set (fun e : (RunRecord × RunSpecRecord) × Nat => e.1.2.id)
      (fun e => { toRunSpecRecord := e.1.2, position := e.2 }) pairs.zipIdx _ ?_ fun e he => (hnone _ (hmem e he)).2
    rw [map_zipIdx_fst fun p : RunRecord × RunSpecRecord => p.2.id, specIds_of_expandsTo h]
    exact List.Nodup.map (fun i j => hunused.distinctSpecs i j) List.nodup_range'

/-- The batch is read back with the runs in the order of their rows. -/
theorem batchRecord_withBatch (clock : Nat → Instant) (key : String) (hunused : drawn.Unused tables)
    (hdistinct : ∀ i j, drawn.runId i = drawn.runId j → i = j)
    (h : List.Forall₂ (ExpandsTo refs drawn now plan sourceOverride) rows.zipIdx pairs) :
    (tables.withBatch clock (batchOf drawn plan key pairs) pairs).batchRecord (batchModel (batchOf drawn plan key pairs)) =
      batchOf drawn plan key pairs := by
  have hstored := withBatch_stored clock key hunused hdistinct h
  let row (e : (RunRecord × RunSpecRecord) × Nat) : RunSpecModel := { toRunSpecRecord := e.1.2, position := e.2 }
  have hspecs : (tables.withBatch clock (batchOf drawn plan key pairs) pairs).specs.values =
      tables.specs.values ++ pairs.zipIdx.map row := by
    simp only [Dict.values, hstored.specs, List.map_append, List.map_map]
    rfl
  have hpairs : ∀ p ∈ pairs, p.2.batchId = drawn.batchId ∧ p.2.runId = p.1.id :=
    forall₂_right h fun entry pair hpair => ⟨hpair.batchId, hpair.specRun⟩
  have hmem : ∀ spec ∈ pairs.zipIdx.map row, spec.batchId = drawn.batchId := by
    intro spec hspec
    obtain ⟨⟨pair, i⟩, he, rfl⟩ := List.mem_map.mp hspec
    exact (hpairs pair ((List.mem_zipIdx' he).2 ▸ List.getElem_mem _)).1
  have hfilter : (tables.specs.values ++ pairs.zipIdx.map row).filter (·.batchId = drawn.batchId) =
      pairs.zipIdx.map row := by
    rw [List.filter_append, List.filter_eq_nil_iff.mpr fun spec hspec => by simpa using hunused.batchSpecs spec hspec,
      List.nil_append, List.filter_eq_self.mpr fun spec hspec => by simpa using hmem spec hspec]
  have hsorted : (pairs.zipIdx.map row).Pairwise fun a b => a.position ≤ b.position := by
    have hpositions : (pairs.zipIdx.map Prod.snd).Pairwise (· < ·) := by
      rw [List.zipIdx_map_snd]
      exact List.pairwise_lt_range'
    rw [List.pairwise_map] at hpositions ⊢
    exact hpositions.imp fun hlt => Nat.le_of_lt hlt
  have hids : (pairs.zipIdx.map row).map (·.runId) = pairs.map (·.1.id) := by
    rw [List.map_map]
    refine (map_zipIdx_fst (fun p : RunRecord × RunSpecRecord => p.2.runId) pairs 0).trans ?_
    exact List.map_congr_left fun p hp => (hpairs p hp).2
  have hruns : (((tables.specs.values ++ pairs.zipIdx.map row).filter (·.batchId = drawn.batchId)).insertionSort
      fun a b => a.position ≤ b.position).map (·.runId) = pairs.map (·.1.id) := by
    rw [hfilter, hsorted.insertionSort_eq, hids]
  rw [Tables.batchRecord, hspecs]
  exact congrArg (ExecutionBatchRecord.mk drawn.batchId plan.tenantId plan.projectId plan.id plan.revision key
    plan.maxParallel) hruns

/-- An uninterrupted `execute` with a free key does to the tables what the expansion says. -/
theorem execute_simulates {catalog : Catalog} (hok : CatalogOk floatRepr catalog) (h : Represents tables catalog)
    (clock : Nat → Instant) (now : Instant) (hunused : drawn.Unused tables)
    (hdistinct : ∀ i j, drawn.runId i = drawn.runId j → i = j) {planId : UUID} {idempotencyKey key : String}
    (hkey : TestPlanRepository.checkKey idempotencyKey = .ok key)
    (hplan : catalog.plans.plans.get? planId = some plan) (hactive : plan.status = .active)
    (hfree : tables.batchByKey (plan.tenantId, plan.projectId, key) = none) :
    (∀ pairs, expand (catalog.references floatRepr) drawn now plan sourceOverride = .ok pairs →
      tables.execute floatRepr drawn clock sourceOverride planId idempotencyKey =
        (.ok (batchOf drawn plan key pairs, false), tables.withBatch clock (batchOf drawn plan key pairs) pairs)) ∧
    ∀ e, expand (catalog.references floatRepr) drawn now plan sourceOverride = .error e →
      tables.execute floatRepr drawn clock sourceOverride planId idempotencyKey = (.error e, tables) := by
  have hitems : ∀ item ∈ plan.items, ItemRefs catalog plan.projectId item := fun item hitem =>
    (hok.items planId plan hplan item hitem).2
  let batch : ExecutionBatchModel :=
    ⟨drawn.batchId, plan.tenantId, plan.projectId, plan.id, plan.revision, key, plan.maxParallel⟩
  let begun : Tables := { tables with batches := tables.batches.set batch.id batch }
  have hbegun : Represents begun catalog :=
    ⟨h.scripts, h.scriptRevisions, h.environments, h.environmentRevisions, h.environmentValues, h.written, h.plans⟩
  have hbody : (executeBody floatRepr drawn clock sourceOverride planId idempotencyKey).on tables =
      ((Tables.expandItems floatRepr drawn clock plan drawn.batchId sourceOverride 0 plan.items >>= fun _ => do
        return ((← get).batchRecord batch, false)) : Session _).on begun := by
    rw [executeBody, Call.on_bind, Call.on_ofExcept, hkey]
    dsimp only
    rw [Call.on_bind, Call.on_get]
    dsimp only
    rw [h.plans, hplan]
    dsimp only
    rw [Call.on_bind, Call.on_get]
    dsimp only
    rw [hfree]
    dsimp only
    rw [if_neg (by simp [hactive]), Call.on_bind, Call.on_modify]
  have hsimulates := expandItems_on hok drawn clock now sourceOverride hitems 0 hbegun
  rw [Tables.execute]
  constructor
  · intro pairs hpairs
    have hon : (Tables.expandItems floatRepr drawn clock plan drawn.batchId sourceOverride 0 plan.items).on begun =
        (.ok (), begun.withPairs clock 0 pairs) := by
      rw [expand] at hpairs
      rw [hpairs] at hsimulates
      exact hsimulates
    apply Call.transaction_of_ok
    rw [hbody, Call.on_bind, hon]
    show (Except.ok ((begun.withPairs clock 0 pairs).batchRecord batch, false), begun.withPairs clock 0 pairs) = _
    have hread := batchRecord_withBatch clock key hunused hdistinct (expandItems_ok hpairs)
    exact congrArg (fun record => (Except.ok (record, false), begun.withPairs clock 0 pairs)) hread
  · intro e he
    apply Call.transaction_of_error
    rw [expand] at he
    rw [he] at hsimulates
    rw [hbody, Call.on_bind]
    rcases hon : Call.on (Tables.expandItems floatRepr drawn clock plan drawn.batchId sourceOverride 0 plan.items)
      begun with ⟨e' | _, after⟩
    · rw [hon] at hsimulates
      obtain rfl := Except.error.inj hsimulates
      rfl
    · rw [hon] at hsimulates
      cases hsimulates

end Batch

/-! ## Both stores -/

/-- In memory, whatever the other repositories hold: a call that raises has stored nothing, and a call with a
free key on an active plan either makes one run with its spec for each row or raises, the latter exactly when a
reference is not found or the parameters of a row are too big. On SQL, after the same calls, the answer is the
same, with the same runs and specs. -/
theorem plan_expansion (floatRepr : Rat → List Char) (encryptor : SecretEncryptor) :
    (∀ (refs : References) (drawn : Drawn) (now : Instant) (sourceOverride : Option (String × String))
        (planId : UUID) (idempotencyKey : String) (state : PlanState),
      let outcome := (executeWrites refs drawn now sourceOverride planId idempotencyKey).on state
      (∀ e, outcome.1 = .error e → outcome.2 = state) ∧
      ∀ key plan, TestPlanRepository.checkKey idempotencyKey = .ok key →
        state.plans.plans.get? planId = some plan → plan.status = .active →
        state.plans.idempotency.get? (plan.tenantId, plan.projectId, key) = none → drawn.Fresh state →
        ((∃ item ∈ plan.items, ¬ ItemExpands refs item) ∧ ∃ e, outcome.1 = .error e) ∨
        ((∀ item ∈ plan.items, ItemExpands refs item) ∧
          ∃ pairs, outcome.1 = .ok (batchOf drawn plan key pairs, false) ∧
            List.Forall₂ (ExpandsTo refs drawn now plan sourceOverride) (planRows plan.items).zipIdx pairs ∧
            (pairs.map (·.1.id)).Nodup ∧ BatchStored state outcome.2 (batchOf drawn plan key pairs) pairs)) ∧
    ∀ (catalog : Catalog) (tables : Tables), Mirrors floatRepr encryptor catalog tables →
      ∀ (drawn : Drawn) (now : Instant) (clock : Nat → Instant) (sourceOverride : Option (String × String))
        (planId : UUID) (idempotencyKey key : String) (plan : TestPlanRecord),
        TestPlanRepository.checkKey idempotencyKey = .ok key → catalog.plans.plans.get? planId = some plan →
        plan.status = .active → drawn.Fresh ⟨catalog.plans, catalog.runs⟩ → drawn.Unused tables →
        catalog.plans.idempotency.get? (plan.tenantId, plan.projectId, key) = none →
        tables.batchByKey (plan.tenantId, plan.projectId, key) = none →
        let memory := (executeWrites (catalog.references floatRepr) drawn now sourceOverride planId
          idempotencyKey).on ⟨catalog.plans, catalog.runs⟩
        let sql := tables.execute floatRepr drawn clock sourceOverride planId idempotencyKey
        sql.1 = memory.1 ∧ (∀ e, sql.1 = .error e → sql.2 = tables) ∧
          ∀ batch, memory.1 = .ok (batch, false) → ∃ pairs,
            BatchStored ⟨catalog.plans, catalog.runs⟩ memory.2 batch pairs ∧
            RowsStored tables sql.2 clock batch pairs := by
  refine ⟨?_, ?_⟩
  · intro refs drawn now sourceOverride planId idempotencyKey state outcome
    exact ⟨fun e he => executeWrites_error he, fun key plan hkey hplan hactive hfree hfresh =>
      executeWrites_complete refs drawn now sourceOverride hkey hplan hactive hfree hfresh⟩
  · intro catalog tables hmirrors drawn now clock sourceOverride planId idempotencyKey key plan hkey hplan hactive
      hfresh hunused hfree hsqlFree memory sql
    have hok := catalogOk_of_reaches hmirrors.reaches
    obtain ⟨hmemoryOk, hmemoryError⟩ := @executeWrites_expands plan (catalog.references floatRepr) drawn now
      sourceOverride ⟨catalog.plans, catalog.runs⟩ planId idempotencyKey key hkey hplan hactive hfree
    obtain ⟨hsqlOk, hsqlError⟩ := @execute_simulates floatRepr drawn plan sourceOverride tables catalog hok
      hmirrors.represents clock now hunused hfresh.distinct planId idempotencyKey key hkey hplan hactive hsqlFree
    cases hexpand : expand (catalog.references floatRepr) drawn now plan sourceOverride with
    | error e =>
      have hmemory : memory = (.error e, ⟨catalog.plans, catalog.runs⟩) := hmemoryError e hexpand
      have hsql : sql = (.error e, tables) := hsqlError e hexpand
      rw [hmemory, hsql]
      exact ⟨rfl, fun _ _ => rfl, fun batch hbatch => by cases hbatch⟩
    | ok pairs =>
      have hrows := expandItems_ok hexpand
      have hmemory := hmemoryOk pairs hexpand
      have hsql : sql = _ := hsqlOk pairs hexpand
      rw [show memory = _ from hmemory, hsql]
      refine ⟨rfl, fun e he => (by cases he), ?_⟩
      rintro batch ⟨⟩
      exact ⟨pairs, storeBatch_stored hfresh hrows, withBatch_stored clock key hunused hfresh.distinct hrows⟩

/-! ## Two rows over one environment -/

/-- The `i`-th id of a kind. -/
def tally (mark : Char) (i : Nat) : UUID := ⟨String.ofList (mark :: List.replicate i 'x')⟩

theorem tally_inj {mark mark' : Char} {i j : Nat} (h : tally mark i = tally mark' j) : mark = mark' ∧ i = j := by
  have hlist := String.ofList_injective (UUID.mk.inj h)
  obtain ⟨hmark, hrest⟩ := List.cons.inj hlist
  exact ⟨hmark, by simpa using congrArg List.length hrest⟩

def loginDraws : Draws where
  random _ _ := ⟨⟨#[1]⟩, ⟨#[2]⟩, ⟨#[3]⟩⟩
  secretRef category i := tally (if category = .environmentVariable then 'v' else 'p') i

theorem loginDraws_distinct : loginDraws.Distinct := by
  intro c i c' i' h
  obtain ⟨hmark, hi⟩ := tally_inj h
  refine ⟨?_, hi⟩
  cases c <;> cases c' <;> simp_all

def loginDrawn : Drawn := ⟨⟨"batch"⟩, tally 'r', tally 's'⟩

def loginBody : ScriptBody where
  entrypoint := "tests/test_login.py"
  sourceRef := "git:main"
  contentDigest := "0123456789abcdef0123456789abcdef0123456789abcdef0123456789abcdef"
  timeoutSeconds := 60
  entrypoint_length := by decide
  sourceRef_length := by decide
  contentDigest_hex := by decide +kernel
  timeoutSeconds_range := by decide

def loginVariables : List ConfigurationValueInput :=
  [⟨"BASE_URL", .str "http://localhost", false, none⟩, ⟨"TOKEN", .str "hunter2", true, none⟩]

def loginParameters : List ConfigurationValueInput := [⟨"retries", .int 3, false, none⟩]

/-- The second row has a number of retries of its own. -/
def loginItem : TestPlanItem where
  itemId := ⟨"i"⟩
  scriptId := ⟨"s"⟩
  scriptRevision := 2
  environmentId := some ⟨"e"⟩
  environmentRevision := some 2
  defaultParameters := Dict.empty.set "user" (.str "guest")
  dataRows := [⟨"plain", .empty⟩, ⟨"stubborn", Dict.empty.set "retries" (.int 9)⟩]
  executionPolicy := .plain .default

/-- What a call that is accepted leaves. -/
def accepted {α : Type} (before : α) (answer : Except Exn α) : α :=
  match answer with
  | .ok a => a
  | .error _ => before

theorem eq_ok_accepted {α : Type} (before : α) {answer : Except Exn α} (h : answer.isOk = true) :
    answer = .ok (accepted before answer) := by
  cases answer with
  | error e => simp [Except.isOk, Except.toBool] at h
  | ok a => rfl

def loginScript : ScriptRecord × AutomationRepository :=
  AutomationRepository.empty.createScript ⟨"s"⟩ ⟨"p"⟩ .pytest loginBody

def loginScriptActive : ScriptRecord × AutomationRepository :=
  accepted loginScript (loginScript.2.updateScript ⟨"s"⟩ 0 loginBody .active)

def loginHost : Answered EnvironmentRecord :=
  EnvironmentRepository.empty.createEnvironment zeroRepr sizeTagEncryptor loginDraws ⟨"p"⟩ ⟨"e"⟩ "staging"
    loginVariables loginParameters

def loginHostActive : Answered EnvironmentRecord :=
  loginHost.2.updateEnvironment zeroRepr sizeTagEncryptor loginDraws ⟨"e"⟩ 0 "staging" .active loginVariables
    loginParameters

def loginReferences : Catalog := ⟨loginScriptActive.2, loginHostActive.2, .empty, .empty⟩

def loginPlan : Catalog :=
  accepted loginReferences (loginReferences.createPlan zeroRepr ⟨"n"⟩ ⟨"t"⟩ ⟨"p"⟩ [loginItem] 2)

/-- The plan is active, and has not been executed. -/
def loginCatalog : Catalog := accepted loginPlan (loginPlan.updatePlan zeroRepr ⟨"n"⟩ 0 [loginItem] .active 2)

/-! The same on SQL. -/

def scriptTables : Tables := Tables.empty.createScript ⟨"s"⟩ ⟨"p"⟩ .pytest loginBody

def activeScriptTables : Tables := accepted scriptTables (scriptTables.updateScript ⟨"s"⟩ 0 loginBody .active)

def hostTables : Tables :=
  accepted activeScriptTables (activeScriptTables.createEnvironment zeroRepr sizeTagEncryptor loginDraws ⟨"p"⟩ ⟨"e"⟩
    "staging" loginVariables loginParameters)

def activeHostTables : Tables :=
  accepted hostTables (hostTables.updateEnvironment zeroRepr sizeTagEncryptor loginDraws ⟨"e"⟩ 0 "staging" .active
    loginVariables loginParameters)

def planTables : Tables :=
  accepted activeHostTables (activeHostTables.createPlan zeroRepr ⟨"n"⟩ ⟨"t"⟩ ⟨"p"⟩ [loginItem] 2)

def loginTables : Tables := accepted planTables (planTables.updatePlan zeroRepr ⟨"n"⟩ 0 [loginItem] .active 2)

/-- Every call is accepted. -/
theorem login_accepted :
    (loginScript.2.updateScript ⟨"s"⟩ 0 loginBody .active).isOk = true ∧
      (scriptTables.updateScript ⟨"s"⟩ 0 loginBody .active).isOk = true ∧
      loginHost.1.isOk = true ∧ loginHostActive.1.isOk = true ∧
      (activeScriptTables.createEnvironment zeroRepr sizeTagEncryptor loginDraws ⟨"p"⟩ ⟨"e"⟩ "staging" loginVariables
        loginParameters).isOk = true ∧
      (hostTables.updateEnvironment zeroRepr sizeTagEncryptor loginDraws ⟨"e"⟩ 0 "staging" .active loginVariables
        loginParameters).isOk = true ∧
      (loginReferences.createPlan zeroRepr ⟨"n"⟩ ⟨"t"⟩ ⟨"p"⟩ [loginItem] 2).isOk = true ∧
      (activeHostTables.createPlan zeroRepr ⟨"n"⟩ ⟨"t"⟩ ⟨"p"⟩ [loginItem] 2).isOk = true ∧
      (loginPlan.updatePlan zeroRepr ⟨"n"⟩ 0 [loginItem] .active 2).isOk = true ∧
      (planTables.updatePlan zeroRepr ⟨"n"⟩ 0 [loginItem] .active 2).isOk = true := by
  decide

theorem login_references : Mirrors zeroRepr sizeTagEncryptor loginReferences activeHostTables := by
  obtain ⟨hupdate, hsqlUpdate, hcreated, hchanged, hsqlCreated, hsqlChanged, -⟩ := login_accepted
  obtain ⟨host, hhost⟩ := eq_ok_of_isOk hcreated
  obtain ⟨active, hactive⟩ := eq_ok_of_isOk hchanged
  have hscript : Mirrors zeroRepr sizeTagEncryptor ⟨loginScript.2, .empty, .empty, .empty⟩ scriptTables :=
    .createScript .empty ⟨"s"⟩ ⟨"p"⟩ .pytest loginBody rfl
  have hscripted : Mirrors zeroRepr sizeTagEncryptor ⟨loginScriptActive.2, .empty, .empty, .empty⟩ activeScriptTables :=
    hscript.updateScript ⟨"s"⟩ 0 loginBody .active loginScriptActive.1 loginScriptActive.2
      (eq_ok_accepted loginScript hupdate) (eq_ok_accepted scriptTables hsqlUpdate)
  have hhosted : Mirrors zeroRepr sizeTagEncryptor ⟨loginScriptActive.2, loginHost.2, .empty, .empty⟩ hostTables :=
    hscripted.createEnvironment loginDraws ⟨"p"⟩ ⟨"e"⟩ "staging" loginVariables loginParameters host loginHost.2
      loginDraws_distinct rfl hhost (eq_ok_accepted activeScriptTables hsqlCreated)
  exact hhosted.updateEnvironment loginDraws ⟨"e"⟩ 0 "staging" .active loginVariables loginParameters active
    loginHostActive.2 loginDraws_distinct hactive (eq_ok_accepted hostTables hsqlChanged)

theorem login_mirrors : Mirrors zeroRepr sizeTagEncryptor loginCatalog loginTables := by
  obtain ⟨-, -, -, -, -, -, hcreate, hsqlCreate, hupdate, hsqlUpdate⟩ := login_accepted
  exact (login_references.createPlan ⟨"n"⟩ ⟨"t"⟩ ⟨"p"⟩ [loginItem] 2 rfl (eq_ok_accepted loginReferences hcreate)
    (eq_ok_accepted activeHostTables hsqlCreate)).updatePlan ⟨"n"⟩ 0 [loginItem] .active 2
    (eq_ok_accepted loginPlan hupdate) (eq_ok_accepted planTables hsqlUpdate)

def loginOutcome : Except Exn (ExecutionBatchRecord × Bool) × PlanState :=
  (executeWrites (loginCatalog.references zeroRepr) loginDrawn 0 none ⟨"n"⟩ " nightly ").on
    ⟨loginCatalog.plans, loginCatalog.runs⟩

theorem loginOutcome_eq : (loginCatalog.plans.plans.get? ⟨"n"⟩).map (fun plan => (plan.tenantId, plan.projectId,
      plan.status)) = some (⟨"t"⟩, ⟨"p"⟩, .active) ∧
    loginOutcome.1.toOption.map (fun answer => (answer.1.runIds, answer.2)) =
      some ([tally 'r' 0, tally 'r' 1], false) := by
  decide

theorem get?_of_isEmpty {κ υ : Type} [DecidableEq κ] {d : Dict κ υ} (h : d.entries.isEmpty = true) (k : κ) :
    d.get? k = none := by
  rw [Dict.get?, List.isEmpty_iff.mp h]
  rfl

/-- Nothing has been executed. -/
theorem login_unexecuted :
    (loginCatalog.runs.runs.entries.isEmpty = true ∧ loginCatalog.plans.specsByRun.entries.isEmpty = true ∧
      loginCatalog.plans.batches.entries.isEmpty = true) ∧
      loginTables.runs.entries.isEmpty = true ∧ loginTables.specs.entries.isEmpty = true ∧
      loginTables.batches.entries.isEmpty = true := by
  decide

theorem loginDrawn_fresh : loginDrawn.Fresh ⟨loginCatalog.plans, loginCatalog.runs⟩ :=
  ⟨fun _ _ h => (tally_inj h).2, fun _ => get?_of_isEmpty login_unexecuted.1.1 _,
    fun _ => get?_of_isEmpty login_unexecuted.1.2.1 _, get?_of_isEmpty login_unexecuted.1.2.2 _⟩

theorem loginDrawn_unused : loginDrawn.Unused loginTables := by
  obtain ⟨-, hruns, hspecs, hbatches⟩ := login_unexecuted
  refine ⟨fun _ => get?_of_isEmpty hruns _, fun _ => get?_of_isEmpty hspecs _,
    fun _ _ h => (tally_inj h).2, get?_of_isEmpty hbatches _, ?_⟩
  have hempty : loginTables.specs.values = [] := by
    rw [Dict.values, List.isEmpty_iff.mp hspecs]
    rfl
  simp [hempty]

theorem login_expands_alike :
    (loginTables.execute zeroRepr loginDrawn (fun i => i) none ⟨"n"⟩ " nightly ").1 = loginOutcome.1 ∧
      ∃ batch pairs, loginOutcome.1 = .ok (batch, false) ∧ batch.runIds = [tally 'r' 0, tally 'r' 1] ∧
        BatchStored ⟨loginCatalog.plans, loginCatalog.runs⟩ loginOutcome.2 batch pairs ∧
        RowsStored loginTables (loginTables.execute zeroRepr loginDrawn (fun i => i) none ⟨"n"⟩ " nightly ").2
          (fun i => i) batch pairs := by
  obtain ⟨plan, hplan, hfields⟩ := Option.map_eq_some_iff.mp loginOutcome_eq.1
  obtain ⟨htenant, hrest⟩ := Prod.mk.inj hfields
  obtain ⟨hproject, hactive⟩ := Prod.mk.inj hrest
  obtain ⟨answer, hanswer, hruns⟩ := Option.map_eq_some_iff.mp loginOutcome_eq.2
  obtain ⟨batch, replayed⟩ := answer
  obtain ⟨hids, rfl⟩ := Prod.mk.inj hruns
  have hok : loginOutcome.1 = .ok (batch, false) := by
    cases hcase : loginOutcome.1 with
    | error e => simp [hcase, Except.toOption] at hanswer
    | ok found => simpa [hcase, Except.toOption] using hanswer
  obtain ⟨hsame, -, hstored⟩ := (plan_expansion zeroRepr sizeTagEncryptor).2 loginCatalog loginTables login_mirrors
    loginDrawn 0 (fun i => i) none ⟨"n"⟩ " nightly " "nightly" plan (by decide +kernel) hplan hactive loginDrawn_fresh
    loginDrawn_unused (get?_of_isEmpty (by decide +kernel) _) (by rw [htenant, hproject]; decide +kernel)
  obtain ⟨pairs, hmemory, hsql⟩ := hstored batch hok
  exact ⟨hsame, batch, pairs, hok, hids, hmemory, hsql⟩

end SmartTest.Plan
