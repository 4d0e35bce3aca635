import SmartTest.Plan.CatalogInvariant
import SmartTest.Plan.Expansion

/-!
# Reachable catalogs

Any sequence of accepted calls on scripts, environments and plans. Every stored plan then
refers to active revisions that exist, and every stored spec is made of accepted parts.
-/

open SmartTest.Lib SmartTest.Run SmartTest.Environment

namespace SmartTest.Plan

/-- A source that a caller may put in place of the script's own. -/
structure AcceptedSource (source : String × String) : Prop where
  sourceRef : 1 ≤ source.1.length ∧ source.1.length ≤ 512
  contentDigest : isContentDigest source.2 = true

variable (floatRepr : Rat → List Char) (encryptor : SecretEncryptor)

/-- Ids come from `uuid4` and are new; the runs of the system move as they like. -/
inductive Catalog.Reaches : Catalog → Prop
  | empty : Reaches .empty
  | createScript {catalog : Catalog} (h : Reaches catalog) (newId projectId : UUID) (engine : Engine)
      (body : ScriptBody) (hnew : catalog.scripts.scripts.get? newId = none) :
      Reaches { catalog with scripts := (catalog.scripts.createScript newId projectId engine body).2 }
  | updateScript {catalog : Catalog} (h : Reaches catalog) (scriptId : UUID) (expectedVersion : Nat)
      (body : ScriptBody) (status : AutomationScriptStatus) (updated : ScriptRecord) (scripts : AutomationRepository)
      (hok : catalog.scripts.updateScript scriptId expectedVersion body status = .ok (updated, scripts)) :
      Reaches { catalog with scripts := scripts }
  | createEnvironment {catalog : Catalog} (h : Reaches catalog) (draws : Draws) (projectId environmentId : UUID)
      (name : String) (environmentVariables commonParameters : List ConfigurationValueInput)
      (record : EnvironmentRecord) (environments : EnvironmentRepository) (hdraws : draws.Distinct)
      (hnew : catalog.environments.environments.get? environmentId = none)
      (hok : catalog.environments.createEnvironment floatRepr encryptor draws projectId environmentId name
        environmentVariables commonParameters = (.ok record, environments)) :
      Reaches { catalog with environments := environments }
  | updateEnvironment {catalog : Catalog} (h : Reaches catalog) (draws : Draws) (environmentId : UUID)
      (expectedVersion : Nat) (name : String) (status : EnvironmentStatus)
      (environmentVariables commonParameters : List ConfigurationValueInput) (record : EnvironmentRecord)
      (environments : EnvironmentRepository) (hdraws : draws.Distinct)
      (hok : catalog.environments.updateEnvironment floatRepr encryptor draws environmentId expectedVersion name
        status environmentVariables commonParameters = (.ok record, environments)) :
      Reaches { catalog with environments := environments }
  | createPlan {catalog catalog' : Catalog} (h : Reaches catalog) (newId tenantId projectId : UUID)
      (items : List TestPlanItem) (maxParallel : Int) (hnew : catalog.plans.plans.get? newId = none)
      (hok : catalog.createPlan floatRepr newId tenantId projectId items maxParallel = .ok catalog') :
      Reaches catalog'
  | updatePlan {catalog catalog' : Catalog} (h : Reaches catalog) (planId : UUID) (expectedVersion : Nat)
      (items : List TestPlanItem) (status : TestPlanStatus) (maxParallel : Int)
      (hok : catalog.updatePlan floatRepr planId expectedVersion items status maxParallel = .ok catalog') :
      Reaches catalog'
  | executePlan {catalog catalog' : Catalog} (h : Reaches catalog) (drawn : Drawn) (now : Instant)
      (sourceOverride : Option (String × String)) (planId : UUID) (idempotencyKey : String)
      (answer : ExecutionBatchRecord × Bool) (hsource : ∀ source ∈ sourceOverride, AcceptedSource source)
      (hok : catalog.executePlan floatRepr drawn now sourceOverride planId idempotencyKey = .ok (answer, catalog')) :
      Reaches catalog'
  | runs {catalog : Catalog} (h : Reaches catalog) (runs : RunRepository) : Reaches { catalog with runs := runs }

/-! ## The invariant -/

/-- What every stored spec has. -/
structure SpecOk (spec : RunSpecRecord) : Prop where
  entrypoint : 1 ≤ spec.entrypoint.length ∧ spec.entrypoint.length ≤ 512
  source : AcceptedSource (spec.sourceRef, spec.contentDigest)
  timeoutSeconds : 1 ≤ spec.timeoutSeconds
  paired : spec.environmentId.isNone = spec.environmentRevision.isNone
  revision : ∀ revision ∈ spec.environmentRevision, 1 ≤ revision
  engine : spec.engine = .http ∨ spec.executionPolicy.needsHttp = false
  pinned : spec.secretReferences ≠ [] → spec.environmentId ≠ none
  variableNames : ∀ e ∈ spec.environmentVariables.entries, isEnvironmentName e.1 = true ∧ ∃ text, e.2 = .str text
  slots : (spec.secretReferences.map fun item => (item.category, item.name)).Nodup
  refs : (spec.secretReferences.map (·.secretRef)).Nodup

structure CatalogOk (floatRepr : Rat → List Char) (catalog : Catalog) : Prop where
  scripts : ScriptsOk catalog.scripts
  environments : EnvironmentsOk floatRepr catalog.environments
  filed : ∀ planId plan, catalog.plans.plans.get? planId = some plan → plan.id = planId
  items : ∀ planId plan, catalog.plans.plans.get? planId = some plan → ∀ item ∈ plan.items,
    NormalItem floatRepr item ∧ ItemRefs catalog plan.projectId item
  specs : ∀ runId spec, catalog.plans.specsByRun.get? runId = some spec → SpecOk spec

variable {floatRepr encryptor}

/-- What an item refers to stays as long as revisions stay. -/
theorem ItemRefs.mono {catalog catalog' : Catalog} {projectId : UUID} {item : TestPlanItem}
    (h : ItemRefs catalog projectId item)
    (hscripts : ∀ id k record, Stored catalog.scripts.revisions id k record →
      Stored catalog'.scripts.revisions id k record)
    (henvironments : ∀ id k record, Stored catalog.environments.revisions id k record →
      Stored catalog'.environments.revisions id k record) : ItemRefs catalog' projectId item := by
  obtain ⟨⟨k, record, hk, hstored, hrest⟩, henvironment⟩ := h
  refine ⟨⟨k, record, hk, hscripts _ _ _ hstored, hrest⟩, ?_⟩
  rcases henvironment with hnone | ⟨id, k', record', hid, hrevision, hstored', hrest'⟩
  · exact .inl hnone
  · exact .inr ⟨id, k', record', hid, hrevision, henvironments _ _ _ hstored', hrest'⟩

/-! ## Specs -/

theorem mem_of_publicValue {category : ConfigurationCategory} {values : List ConfigurationValue} {name : String}
    {json : Json} (h : publicValue category values name = some json) :
    ∃ value ∈ values, value.secret = false ∧ value.category = category ∧ value.name = name ∧ value.value = json := by
  unfold publicValue at h
  rw [Option.map_eq_some_iff] at h
  obtain ⟨value, hlast, hjson⟩ := h
  have hmem := List.mem_of_getLast? hlast
  rw [List.mem_filter] at hmem
  obtain ⟨hvalue, hcond⟩ := hmem
  simp only [Bool.and_eq_true, Bool.not_eq_true', decide_eq_true_eq] at hcond
  exact ⟨value, hvalue, hcond.1.1, hcond.1.2, hcond.2, hjson⟩

/-- A public environment variable has an accepted name and a text. -/
theorem variable_accepted {values : List ConfigurationValue} (h : ValuesOk floatRepr values) {name : String}
    {json : Json} (hvalue : publicValue .environmentVariable values name = some json) :
    isEnvironmentName name = true ∧ ∃ text, json = .str text := by
  obtain ⟨value, hmem, hpublic, hcategory, rfl, rfl⟩ := mem_of_publicValue hvalue
  obtain ⟨first, second, rfl, hfirst, hsecond⟩ := h.split
  rcases List.mem_append.mp hmem with hmem | hmem
  · exact ⟨hfirst.key value hmem, hfirst.text rfl value hmem hpublic⟩
  · rw [hsecond.kind value hmem] at hcategory
    cases hcategory

theorem secretSlots_nodup {values : List ConfigurationValue} (h : ValuesOk floatRepr values) :
    ((values.filterMap secretReference?).map fun item => (item.category, item.name)).Nodup := by
  have hsub : ((values.filterMap secretReference?).map fun item => (item.category, item.name)).Sublist
      (values.map ConfigurationValue.slot) := by
    clear h
    induction values with
    | nil => exact .slnil
    | cons value rest ih =>
      rw [List.filterMap_cons, List.map_cons]
      unfold secretReference?
      cases value.secret <;> cases value.secretRef
      · exact ih.cons _
      · exact ih.cons _
      · exact ih.cons _
      · exact ih.cons_cons _
  exact h.slots_nodup.sublist hsub

theorem secretRefs_nodup {values : List ConfigurationValue} (h : ValuesOk floatRepr values) :
    ((values.filterMap secretReference?).map (·.secretRef)).Nodup := by
  have heq : (values.filterMap secretReference?).map (·.secretRef) = values.filterMap (·.secretRef) := by
    rw [List.map_filterMap]
    refine List.filterMap_congr fun value hvalue => ?_
    unfold secretReference?
    cases hsecret : value.secret with
    | false => simp [h.public value hvalue hsecret]
    | true =>
      cases value.secretRef <;> rfl
  rw [heq]
  exact h.refs

/-- In a catalog in order, what an item refers to is found. -/
theorem CatalogOk.references {catalog : Catalog} (h : CatalogOk floatRepr catalog) {projectId : UUID}
    {item : TestPlanItem} (hrefs : ItemRefs catalog projectId item) :
    ∃ script values, catalog.scripts.getRevision item.scriptId item.scriptRevision = .ok script ∧
      script.Accepted ∧ script.projectId = projectId ∧ script.status = .active ∧
      (script.engine = .http ∨ item.executionPolicy.needsHttp = false) ∧
      environmentValues (catalog.references floatRepr) item = .ok values ∧ ValuesOk floatRepr values ∧
      (values ≠ [] → item.environmentId ≠ none) := by
  obtain ⟨k, script, hk, hstored, hproject, hactive, hengine⟩ := hrefs.script
  refine ⟨script, ?_⟩
  rw [hk, h.scripts.getRevision_eq hstored]
  rcases hrefs.environment with ⟨hid, hrevision⟩ | ⟨id, k', record, hid, hrevision, hrecord, -, -⟩
  · refine ⟨[], rfl, h.scripts.accepted _ _ _ hstored, hproject, hactive, hengine, ?_, ?_, by simp⟩
    · simp [environmentValues, hid]
    · exact ⟨⟨[], [], rfl, by constructor <;> simp, by constructor <;> simp⟩, by simp⟩
  · refine ⟨record.values, rfl, h.scripts.accepted _ _ _ hstored, hproject, hactive, hengine, ?_,
      h.environments.values _ _ _ hrecord, by simp [hid]⟩
    simp only [environmentValues, hid, hrevision, Catalog.references,
      h.environments.shape.getRevision_eq hrecord]
    rfl

theorem references_script {catalog : Catalog} {id : UUID} {revision : Nat} {script : AutomationScriptRecord}
    (h : (catalog.references floatRepr).script id revision = .ok script) :
    ∃ record : ScriptRecord, catalog.scripts.getRevision id revision = .ok record ∧
      record.toAutomationScriptRecord = script := by
  simp only [Catalog.references] at h
  cases hrecord : catalog.scripts.getRevision id revision with
  | error e => simp [hrecord, Except.map] at h
  | ok record => exact ⟨record, rfl, by simpa [hrecord, Except.map] using h⟩

/-- A spec that `execute` makes in a catalog in order is made of accepted parts. -/
theorem CatalogOk.specOk {catalog : Catalog} (h : CatalogOk floatRepr catalog) {plan : TestPlanRecord}
    {item : TestPlanItem} {row : TestPlanDataRow} {drawn : Drawn} {now : Instant} {index : Nat}
    {sourceOverride : Option (String × String)} {pair : RunRecord × RunSpecRecord}
    (hnormal : NormalItem floatRepr item) (hrefs : ItemRefs catalog plan.projectId item)
    (hsource : ∀ source ∈ sourceOverride, AcceptedSource source)
    (hpair : ExpandsTo (catalog.references floatRepr) drawn now plan sourceOverride ((item, row), index) pair) :
    SpecOk pair.2 := by
  obtain ⟨script, values, hscript, haccepted, -, -, hengine, hvalues, hok, hpinned⟩ := h.references hrefs
  obtain ⟨_, hfound, -, hspecEngine, -, -, hentrypoint, htimeout, hsourceRef⟩ := hpair.ofScript
  obtain ⟨record, hrecord, rfl⟩ := references_script hfound
  obtain rfl : script = record := Except.ok.inj (hscript.symm.trans hrecord)
  obtain ⟨_, -, henvironmentId, henvironmentRevision, hpolicy⟩ := hpair.ofItem
  obtain ⟨values', hvalues', -, hvariables, hsecrets⟩ := hpair.ofEnvironment
  obtain rfl : values = values' := Except.ok.inj (hvalues.symm.trans hvalues')
  dsimp only at henvironmentId henvironmentRevision hpolicy
  refine ⟨?_, ?_, ?_, ?_, ?_, ?_, ?_, ?_, ?_, ?_⟩
  · rw [hentrypoint]
    exact haccepted.entrypoint
  · rw [hsourceRef]
    cases hover : sourceOverride with
    | none => exact ⟨haccepted.sourceRef, haccepted.contentDigest⟩
    | some source => exact hsource source hover
  · rw [htimeout]
    exact haccepted.timeoutSeconds
  · rw [henvironmentId, henvironmentRevision]
    exact hnormal.paired
  · intro revision hrevision
    rw [henvironmentRevision] at hrevision
    rcases hrefs.environment with ⟨-, hnone⟩ | ⟨id, k, found, -, hsome, -⟩
    · rw [hnone] at hrevision
      cases hrevision
    · rw [hsome, Option.mem_some] at hrevision
      omega
  · rw [hspecEngine, hpolicy]
    exact hengine
  · intro hne
    rw [henvironmentId]
    apply hpinned
    rintro rfl
    exact hne (by rw [hsecrets]; rfl)
  · rintro ⟨name, json⟩ hentry
    have hget := (Dict.get?_eq_some_iff _ _ _).mpr hentry
    rw [hvariables] at hget
    exact variable_accepted hok hget
  · rw [hsecrets]
    exact secretSlots_nodup hok
  · rw [hsecrets]
    exact secretRefs_nodup hok

theorem forall₂_exists_left {α β : Type} {r : α → β → Prop} {l : List α} {l' : List β}
    (h : List.Forall₂ r l l') {b : β} (hb : b ∈ l') : ∃ a ∈ l, r a b := by
  induction h with
  | nil => simp at hb
  | cons hr _ ih =>
    rcases List.mem_cons.mp hb with rfl | hb
    · exact ⟨_, List.mem_cons_self, hr⟩
    · obtain ⟨a, ha, hab⟩ := ih hb
      exact ⟨a, List.mem_cons_of_mem _ ha, hab⟩

theorem item_of_planRows {items : List TestPlanItem} {entry : (TestPlanItem × TestPlanDataRow) × Nat}
    (h : entry ∈ (planRows items).zipIdx) : entry.1.1 ∈ items ∧ entry.1.2 ∈ entry.1.1.dataRows := by
  obtain ⟨⟨item, row⟩, index⟩ := entry
  have hmem : (item, row) ∈ planRows items := (List.mem_zipIdx' h).2 ▸ List.getElem_mem _
  simp only [planRows, List.mem_flatMap, List.mem_map, Prod.mk.injEq] at hmem
  obtain ⟨_, hitem, _, hrow, rfl, rfl⟩ := hmem
  exact ⟨hitem, hrow⟩

theorem get?_foldl_putSpec {pairs : List (RunRecord × RunSpecRecord)} {specs : Dict UUID RunSpecRecord}
    {runId : UUID} {spec : RunSpecRecord}
    (h : (pairs.foldl (fun specs p => specs.set p.2.runId p.2) specs).get? runId = some spec) :
    specs.get? runId = some spec ∨ ∃ pair ∈ pairs, pair.2 = spec := by
  induction pairs generalizing specs with
  | nil => exact .inl h
  | cons pair rest ih =>
    rcases ih h with hold | ⟨other, hother, heq⟩
    · by_cases hcase : runId = pair.2.runId
      · simp only [hcase, Dict.get?_set_self, Option.some.injEq] at hold
        exact .inr ⟨pair, List.mem_cons_self, hold⟩
      · exact .inl (by simpa [hcase] using hold)
    · exact .inr ⟨other, List.mem_cons_of_mem _ hother, heq⟩

/-! ## Every call keeps it -/

theorem CatalogOk.withRevisions {catalog catalog' : Catalog} (h : CatalogOk floatRepr catalog)
    (hscripts : ScriptsOk catalog'.scripts) (henvironments : EnvironmentsOk floatRepr catalog'.environments)
    (hscriptsKept : ∀ id k record, Stored catalog.scripts.revisions id k record →
      Stored catalog'.scripts.revisions id k record)
    (henvironmentsKept : ∀ id k record, Stored catalog.environments.revisions id k record →
      Stored catalog'.environments.revisions id k record) (hplans : catalog'.plans = catalog.plans) :
    CatalogOk floatRepr catalog' := by
  refine ⟨hscripts, henvironments, ?_, ?_, ?_⟩
  · rw [hplans]
    exact h.filed
  · intro planId plan hplan item hitem
    rw [hplans] at hplan
    obtain ⟨hnormal, hrefs⟩ := h.items planId plan hplan item hitem
    exact ⟨hnormal, hrefs.mono hscriptsKept henvironmentsKept⟩
  · rw [hplans]
    exact h.specs

/-- Writing a plan whose items have been checked. -/
theorem CatalogOk.withPlan {catalog : Catalog} (h : CatalogOk floatRepr catalog) {planId : UUID}
    {plan : TestPlanRecord} (hid : plan.id = planId)
    (hitems : ∀ item ∈ plan.items, NormalItem floatRepr item ∧ ItemRefs catalog plan.projectId item) :
    CatalogOk floatRepr
      { catalog with plans := { catalog.plans with plans := catalog.plans.plans.set planId plan } } := by
  refine ⟨h.scripts, h.environments, ?_, ?_, h.specs⟩
  · intro id found hfound
    by_cases hcase : id = planId
    · subst hcase
      obtain rfl : plan = found := by simpa using hfound
      exact hid
    · exact h.filed id found (by simpa [hcase] using hfound)
  · intro id found hfound item hitem
    by_cases hcase : id = planId
    · subst hcase
      obtain rfl : plan = found := by simpa using hfound
      obtain ⟨hnormal, hrefs⟩ := hitems item hitem
      exact ⟨hnormal, hrefs.mono (fun _ _ _ hs => hs) fun _ _ _ hs => hs⟩
    · obtain ⟨hnormal, hrefs⟩ := h.items id found (by simpa [hcase] using hfound) item hitem
      exact ⟨hnormal, hrefs.mono (fun _ _ _ hs => hs) fun _ _ _ hs => hs⟩

theorem checkedItems {catalog : Catalog} {projectId : UUID} {items normalized : List TestPlanItem}
    (hnormal : normalizePlanItems floatRepr items = .ok normalized)
    (hrefs : catalog.validateReferences projectId normalized = .ok ()) :
    ∀ item ∈ normalized, NormalItem floatRepr item ∧ ItemRefs catalog projectId item := by
  intro item hitem
  have hn := normalizePlanItems_ok hnormal item hitem
  exact ⟨hn, itemRefs_of_validateItem hn.paired (validateReferences_ok hrefs item hitem)⟩

theorem CatalogOk.createPlan {catalog catalog' : Catalog} (h : CatalogOk floatRepr catalog)
    {newId tenantId projectId : UUID} {items : List TestPlanItem} {maxParallel : Int}
    (hok : catalog.createPlan floatRepr newId tenantId projectId items maxParallel = .ok catalog') :
    CatalogOk floatRepr catalog' := by
  simp only [Catalog.createPlan, bind_eq_ok_iff, pure_eq_ok_iff] at hok
  obtain ⟨normalized, hnormal, _, -, _, hrefs, rfl⟩ := hok
  exact h.withPlan rfl (checkedItems hnormal hrefs)

theorem CatalogOk.updatePlan {catalog catalog' : Catalog} (h : CatalogOk floatRepr catalog) {planId : UUID}
    {expectedVersion : Nat} {items : List TestPlanItem} {status : TestPlanStatus} {maxParallel : Int}
    (hok : catalog.updatePlan floatRepr planId expectedVersion items status maxParallel = .ok catalog') :
    CatalogOk floatRepr catalog' := by
  simp only [Catalog.updatePlan, bind_eq_ok_iff] at hok
  obtain ⟨normalized, hnormal, parallel, -, current, hcurrent, hok⟩ := hok
  have hupdated : ∀ updated plans, catalog.plans.updatePlan planId expectedVersion normalized status parallel =
      .ok (updated, plans) → current.stateVersion = expectedVersion ∧ updated.id = current.id ∧
        updated.projectId = current.projectId ∧ updated.items = normalized ∧
        plans = { catalog.plans with plans := catalog.plans.plans.set planId updated } := by
    intro updated plans hupdate
    simp only [TestPlanRepository.updatePlan, hcurrent, ok_bind, error_bind, ite_error_eq_ok_iff, bind_eq_ok_iff,
      TestPlanRecord.update, pure_eq_ok_iff, Prod.mk.injEq, ne_eq, not_not] at hupdate
    obtain ⟨hversion, _, ⟨_, -, rfl⟩, rfl, rfl⟩ := hupdate
    exact ⟨hversion, rfl, rfl, rfl, rfl⟩
  split at hok
  · simp only [bind_eq_ok_iff, pure_eq_ok_iff] at hok
    obtain ⟨_, hrefs, ⟨updated, plans⟩, hupdate, rfl⟩ := hok
    obtain ⟨-, hid, hproject, hitems, rfl⟩ := hupdated updated plans hupdate
    refine h.withPlan (hid.trans (h.filed planId current (getPlan_ok_iff.mp hcurrent))) ?_
    rw [hitems, hproject]
    exact checkedItems hnormal hrefs
  · next hversion =>
    simp only [bind_eq_ok_iff] at hok
    obtain ⟨⟨updated, plans⟩, hupdate, -⟩ := hok
    exact absurd (hupdated updated plans hupdate).1 hversion

/-- A call of `execute` adds specs made of accepted parts. -/
theorem CatalogOk.executePlan {catalog catalog' : Catalog} (h : CatalogOk floatRepr catalog) {drawn : Drawn}
    {now : Instant} {sourceOverride : Option (String × String)} {planId : UUID} {idempotencyKey : String}
    {answer : ExecutionBatchRecord × Bool} (hsource : ∀ source ∈ sourceOverride, AcceptedSource source)
    (hok : catalog.executePlan floatRepr drawn now sourceOverride planId idempotencyKey = .ok (answer, catalog')) :
    CatalogOk floatRepr catalog' := by
  simp only [Catalog.executePlan, bind_eq_ok_iff, pure_eq_ok_iff] at hok
  obtain ⟨⟨answer', plans, runs⟩, hexecute, hcatalog⟩ := hok
  obtain ⟨-, rfl⟩ := Prod.mk.inj hcatalog
  obtain ⟨key, plan, -, hplan, ⟨_, -, -, -, hstate⟩ | ⟨pairs, -, hpairs, -, hstate⟩⟩ := execute_ok hexecute
  · obtain ⟨rfl, rfl⟩ := Prod.mk.inj hstate
    exact h.withRevisions h.scripts h.environments (fun _ _ _ hs => hs) (fun _ _ _ hs => hs) rfl
  · obtain ⟨rfl, rfl⟩ := Prod.mk.inj hstate
    have hrows := expandItems_ok hpairs
    refine ⟨h.scripts, h.environments, h.filed, ?_, ?_⟩
    · intro id found hfound item hitem
      obtain ⟨hnormal, hrefs⟩ := h.items id found hfound item hitem
      exact ⟨hnormal, hrefs.mono (fun _ _ _ hs => hs) fun _ _ _ hs => hs⟩
    · intro runId spec hspec
      rcases get?_foldl_putSpec hspec with hold | ⟨pair, hpair, rfl⟩
      · exact h.specs runId spec hold
      · obtain ⟨⟨⟨item, row⟩, index⟩, hentry, hexpands⟩ := forall₂_exists_left hrows hpair
        obtain ⟨hnormal, hrefs⟩ := h.items planId plan hplan item (item_of_planRows hentry).1
        exact h.specOk hnormal hrefs hsource hexpands

theorem CatalogOk.empty : CatalogOk floatRepr .empty := by
  refine ⟨⟨.empty, ?_, ?_⟩, ⟨.empty, ?_, ?_⟩, ?_, ?_, ?_⟩
  all_goals simp [Catalog.empty, AutomationRepository.empty, EnvironmentRepository.empty, Stored]

theorem catalogOk_of_reaches {catalog : Catalog} (h : catalog.Reaches floatRepr encryptor) :
    CatalogOk floatRepr catalog := by
  induction h with
  | empty => exact .empty
  | createScript _ newId projectId engine body hnew ih =>
    exact ih.withRevisions (ih.scripts.create hnew) ih.environments
      (fun _ _ _ hs => hs.create (ih.scripts.unknown hnew)) (fun _ _ _ hs => hs) rfl
  | updateScript _ scriptId expectedVersion body status updated scripts hok ih =>
    obtain ⟨hscripts, hkept⟩ := ih.scripts.update hok
    exact ih.withRevisions hscripts ih.environments hkept (fun _ _ _ hs => hs) rfl
  | createEnvironment _ draws projectId environmentId name vs cs record environments hdraws hnew hok ih =>
    obtain ⟨henvironments, hkept⟩ := ih.environments.create hdraws hnew hok
    exact ih.withRevisions ih.scripts henvironments (fun _ _ _ hs => hs) hkept rfl
  | updateEnvironment _ draws environmentId expectedVersion name status vs cs record environments hdraws hok ih =>
    obtain ⟨henvironments, hkept⟩ := ih.environments.update hdraws hok
    exact ih.withRevisions ih.scripts henvironments (fun _ _ _ hs => hs) hkept rfl
  | createPlan _ newId tenantId projectId items maxParallel hnew hok ih => exact ih.createPlan hok
  | updatePlan _ planId expectedVersion items status maxParallel hok ih => exact ih.updatePlan hok
  | executePlan _ drawn now sourceOverride planId idempotencyKey answer hsource hok ih =>
    exact ih.executePlan hsource hok
  | runs _ runs ih =>
    exact ih.withRevisions ih.scripts ih.environments (fun _ _ _ hs => hs) (fun _ _ _ hs => hs) rfl

end SmartTest.Plan
