import SmartTest.Asset.Lives

/-!
# Runs of calls on the assets

Any calls in any order, from empty repositories, on ids that are drawn once.
-/

open SmartTest.Lib SmartTest.Run SmartTest.Plan

namespace SmartTest.Asset

inductive Family where
  | requirement | testCase | script
  deriving DecidableEq

/-- The repositories, the ids that were drawn, and the updates that were accepted. -/
structure History where
  assets : Assets
  drawn : List UUID
  updates : List (Family × UUID × Nat)

/-- The asset and the version that an update names. -/
def AssetCall.updates : AssetCall → Option (Family × UUID × Nat)
  | .updateRequirement id _ _ expectedVersion _ => some (.requirement, id, expectedVersion)
  | .updateTestCase id expectedVersion .. => some (.testCase, id, expectedVersion)
  | .updateScript id expectedVersion .. => some (.script, id, expectedVersion)
  | _ => none

/-- The update that an answer accepts. -/
def AssetCall.accepted (call : AssetCall) : Except Exn AssetAnswer → List (Family × UUID × Nat)
  | .ok _ => call.updates.toList
  | .error _ => []

theorem AssetCall.accepted_of_none {call : AssetCall} (h : call.updates = none) (answer : Except Exn AssetAnswer) :
    call.accepted answer = [] := by
  unfold AssetCall.accepted
  rw [h]
  cases answer <;> rfl

namespace History

def start : History := ⟨.empty, [], []⟩

/-- One call; an id is not drawn twice. -/
def step (h : History) (call : AssetCall) : Option History :=
  if call.draws.any (· ∈ h.drawn) then none
  else
    let outcome := h.assets.on call
    some {
      assets := outcome.2
      drawn := h.drawn ++ call.draws.toList
      updates := h.updates ++ call.accepted outcome.1 }

/-- The versions that the accepted updates of an asset carried, in their order. -/
def versions (h : History) (family : Family) (id : UUID) : List Nat :=
  h.updates.filterMap fun u => if u.1 = family ∧ u.2.1 = id then some u.2.2 else none

/-! ## The invariant -/

/-- Every asset lives, and every link joins. -/
structure Sound (h : History) : Prop where
  requirements : h.assets.quality.requirements.Lives requirementKind h.drawn (h.versions .requirement)
  testCases : h.assets.quality.testCases.Lives testCaseKind h.drawn (h.versions .testCase)
  scripts : h.assets.automation.scripts.Lives scriptKind h.drawn (h.versions .script)
  traces : Joined h.assets.quality.requirements h.assets.quality.testCases h.assets.quality.links
  uses : Joined h.assets.quality.testCases h.assets.automation.scripts h.assets.automation.links

/-- Every asset, revision and link is still there. -/
structure Extends (before after : Assets) : Prop where
  requirements : before.quality.requirements.Later after.quality.requirements
  testCases : before.quality.testCases.Later after.quality.testCases
  scripts : before.automation.scripts.Later after.automation.scripts
  traces : ∀ key link, before.quality.links.get? key = some link → after.quality.links.get? key = some link
  uses : ∀ key link, before.automation.links.get? key = some link → after.automation.links.get? key = some link

theorem Extends.refl (assets : Assets) : Extends assets assets :=
  ⟨.refl _, .refl _, .refl _, fun _ _ h => h, fun _ _ h => h⟩

theorem Extends.trans {a b c : Assets} (h : Extends a b) (h' : Extends b c) : Extends a c :=
  ⟨h.requirements.trans h'.requirements, h.testCases.trans h'.testCases, h.scripts.trans h'.scripts,
    fun key link hlink => h'.traces key link (h.traces key link hlink),
    fun key link hlink => h'.uses key link (h.uses key link hlink)⟩

/-- A script link that was not there joins a test case and a script that are not archived. -/
def LinksLive (before after : Assets) : Prop :=
  ∀ key, before.automation.links.get? key = none → after.automation.links.get? key ≠ none →
    ∃ testCase script, before.quality.testCases.records.get? key.1 = some testCase ∧
      before.automation.scripts.records.get? key.2 = some script ∧
      testCase.status ≠ .archived ∧ script.status ≠ .archived

theorem sound_start : Sound start where
  requirements := .empty _
  testCases := .empty _
  scripts := .empty _
  traces := by rintro key link ⟨⟩
  uses := by rintro key link ⟨⟩

/-! ## One call -/

/-- What a call makes of a sound history. -/
structure Kept (h : History) (call : AssetCall) (after : History) : Prop where
  sound : Sound after
  extends_ : Extends h.assets after.assets
  live : LinksLive h.assets after.assets

theorem versions_update (h : History) (assets : Assets) (drawn : List UUID) (family : Family) (id : UUID) (v : Nat) :
    (History.mk assets drawn (h.updates ++ [(family, id, v)])).versions family =
      fun i => if i = id then h.versions family i ++ [v] else h.versions family i := by
  funext i
  unfold versions
  by_cases hcase : i = id
  · simp [hcase]
  · simp [hcase, Ne.symm hcase]

theorem versions_other (h : History) (assets : Assets) (drawn : List UUID) {family other : Family} (hne : other ≠ family)
    (id : UUID) (v : Nat) :
    (History.mk assets drawn (h.updates ++ [(family, id, v)])).versions other = h.versions other := by
  funext i
  unfold versions
  simp [hne.symm]

variable {h after : History}

/-- A call that leaves the assets as they are. -/
theorem Sound.unchanged (hs : Sound h) (call : AssetCall) : Kept h call h :=
  ⟨hs, .refl _, fun _ hnone hsome => absurd hnone hsome⟩

theorem get_ok_iff {Fixed Values Status : Type} {kind : Kind Status} {store : Store Fixed Values Status} {id : UUID}
    {record : Record Fixed Values Status} :
    store.get kind id = .ok record ↔ store.records.get? id = some record := by
  unfold Store.get
  cases store.records.get? id <;> simp

/-- A new asset, in the quality repository or among the scripts. -/
theorem Sound.created (hs : Sound h) {call : AssetCall} {newId : UUID} (hdraws : call.draws = some newId)
    (hnew : newId ∉ h.drawn) : Kept h call ⟨(h.assets.on call).2, h.drawn ++ [newId], h.updates⟩ := by
  cases call <;> simp only [AssetCall.draws, Option.some.injEq, reduceCtorEq] at hdraws
  all_goals subst hdraws
  case createRequirement projectId values now =>
    have hlater := hs.requirements.later_create projectId () values now hnew
    exact ⟨⟨hs.requirements.create hnew, hs.testCases.draw _, hs.scripts.draw _, hs.traces.later hlater (.refl _), hs.uses⟩,
      ⟨hlater, .refl _, .refl _, fun _ _ h => h, fun _ _ h => h⟩, fun _ hnone hsome => absurd hnone hsome⟩
  case createTestCase projectId values source now =>
    have hlater := hs.testCases.later_create projectId source values now hnew
    exact ⟨⟨hs.requirements.draw _, hs.testCases.create hnew, hs.scripts.draw _, hs.traces.later (.refl _) hlater,
        hs.uses.later hlater (.refl _)⟩,
      ⟨.refl _, hlater, .refl _, fun _ _ h => h, fun _ _ h => h⟩, fun _ hnone hsome => absurd hnone hsome⟩
  case createScript projectId engine values now =>
    have hlater := hs.scripts.later_create projectId engine values now hnew
    exact ⟨⟨hs.requirements.draw _, hs.testCases.draw _, hs.scripts.create hnew, hs.traces, hs.uses.later (.refl _) hlater⟩,
      ⟨.refl _, .refl _, hlater, fun _ _ h => h, fun _ _ h => h⟩, fun _ hnone hsome => absurd hnone hsome⟩

/-! An update that is accepted. -/

theorem Sound.updatedRequirement (hs : Sound h) {id : UUID} {values : RequirementValues} {status : RequirementStatus}
    {expectedVersion : Nat} {now : Instant} {record : RequirementRecord} {quality : QualityRepository}
    (hok : h.assets.quality.updateRequirement id values status expectedVersion now = .ok (record, quality)) :
    Kept h (.updateRequirement id values status expectedVersion now)
      ⟨{ h.assets with quality := quality }, h.drawn, h.updates ++ [(.requirement, id, expectedVersion)]⟩ := by
  unfold QualityRepository.updateRequirement at hok
  simp only [bind_eq_ok_iff, pure_eq_ok_iff, Prod.mk.injEq] at hok
  obtain ⟨⟨updated, requirements⟩, hupdate, -, rfl⟩ := hok
  have hlater := Store.later_update hupdate
  refine ⟨⟨?_, ?_, ?_, hs.traces.later hlater (.refl _), hs.uses⟩,
    ⟨hlater, .refl _, .refl _, fun _ _ h => h, fun _ _ h => h⟩, fun _ hnone hsome => absurd hnone hsome⟩
  · rw [versions_update]
    exact hs.requirements.update hupdate
  · rw [versions_other _ _ _ (by simp)]
    exact hs.testCases
  · rw [versions_other _ _ _ (by simp)]
    exact hs.scripts

theorem Sound.updatedTestCase (hs : Sound h) {id : UUID} {expectedVersion : Nat} {values : TestCaseValues}
    {status : TestCaseStatus} {now : Instant} {record : TestCaseRecord} {quality : QualityRepository}
    (hok : h.assets.quality.updateTestCase id expectedVersion values status now = .ok (record, quality)) :
    Kept h (.updateTestCase id expectedVersion values status now)
      ⟨{ h.assets with quality := quality }, h.drawn, h.updates ++ [(.testCase, id, expectedVersion)]⟩ := by
  unfold QualityRepository.updateTestCase at hok
  simp only [bind_eq_ok_iff, pure_eq_ok_iff, Prod.mk.injEq] at hok
  obtain ⟨⟨updated, testCases⟩, hupdate, -, rfl⟩ := hok
  have hlater := Store.later_update hupdate
  refine ⟨⟨?_, ?_, ?_, hs.traces.later (.refl _) hlater, hs.uses.later hlater (.refl _)⟩,
    ⟨.refl _, hlater, .refl _, fun _ _ h => h, fun _ _ h => h⟩, fun _ hnone hsome => absurd hnone hsome⟩
  · rw [versions_other _ _ _ (by simp)]
    exact hs.requirements
  · rw [versions_update]
    exact hs.testCases.update hupdate
  · rw [versions_other _ _ _ (by simp)]
    exact hs.scripts

theorem Sound.updatedScript (hs : Sound h) {id : UUID} {expectedVersion : Nat} {values : ScriptValues}
    {status : AutomationScriptStatus} {now : Instant} {record : AutomationScriptRecord}
    {automation : AutomationRepository}
    (hok : h.assets.automation.updateScript id expectedVersion values status now = .ok (record, automation)) :
    Kept h (.updateScript id expectedVersion values status now)
      ⟨{ h.assets with automation := automation }, h.drawn, h.updates ++ [(.script, id, expectedVersion)]⟩ := by
  unfold AutomationRepository.updateScript at hok
  simp only [bind_eq_ok_iff, pure_eq_ok_iff, Prod.mk.injEq] at hok
  obtain ⟨⟨updated, scripts⟩, hupdate, -, rfl⟩ := hok
  have hlater := Store.later_update hupdate
  refine ⟨⟨?_, ?_, ?_, hs.traces, hs.uses.later (.refl _) hlater⟩,
    ⟨.refl _, .refl _, hlater, fun _ _ h => h, fun _ _ h => h⟩, fun _ hnone hsome => absurd hnone hsome⟩
  · rw [versions_other _ _ _ (by simp)]
    exact hs.requirements
  · rw [versions_other _ _ _ (by simp)]
    exact hs.testCases
  · rw [versions_update]
    exact hs.scripts.update hupdate

/-! A link that is accepted: it was there, or its ends allow it. -/

theorem get?_set_of_free {links : Dict (UUID × UUID) LinkRecord} {key other : UUID × UUID} {link found : LinkRecord}
    (hfree : links.get? key = none) (h : links.get? other = some found) :
    (links.set key link).get? other = some found := by
  have hne : other ≠ key := by
    rintro rfl
    cases hfree.symm.trans h
  simpa [hne] using h

theorem Sound.linkedRequirement (hs : Sound h) {requirementId testCaseId : UUID} {now : Instant}
    {answer : LinkRecord × Bool} {quality : QualityRepository}
    (hok : h.assets.quality.linkRequirementTestCase requirementId testCaseId now = .ok (answer, quality)) :
    Kept h (.linkRequirementTestCase requirementId testCaseId now)
      ⟨{ h.assets with quality := quality }, h.drawn, h.updates⟩ := by
  unfold QualityRepository.linkRequirementTestCase at hok
  simp only [bind_eq_ok_iff] at hok
  obtain ⟨requirement, hrequirement, testCase, htestCase, hrest⟩ := hok
  have hfrom := get_ok_iff.mp hrequirement
  have hto := get_ok_iff.mp htestCase
  split at hrest
  · cases hrest
  next hproject =>
  rw [not_not] at hproject
  cases hlink : h.assets.quality.links.get? (requirementId, testCaseId) with
  | some link =>
    simp only [hlink, pure_eq_ok_iff, Prod.mk.injEq] at hrest
    obtain ⟨-, rfl⟩ := hrest
    exact hs.unchanged _
  | none =>
    simp only [hlink, pure_eq_ok_iff, Prod.mk.injEq] at hrest
    obtain ⟨-, rfl⟩ := hrest
    exact ⟨⟨hs.requirements, hs.testCases, hs.scripts, hs.traces.link hfrom hto hproject now, hs.uses⟩,
      ⟨.refl _, .refl _, .refl _, fun _ _ h => get?_set_of_free hlink h, fun _ _ h => h⟩,
      fun _ hnone hsome => absurd hnone hsome⟩

theorem Sound.linkedScript (hs : Sound h) {testCaseId scriptId : UUID} {now : Instant} {answer : LinkRecord × Bool}
    {automation : AutomationRepository}
    (hok : h.assets.automation.linkTestCase h.assets.quality testCaseId scriptId now = .ok (answer, automation)) :
    Kept h (.linkTestCase testCaseId scriptId now)
      ⟨{ h.assets with automation := automation }, h.drawn, h.updates⟩ := by
  unfold AutomationRepository.linkTestCase at hok
  simp only [bind_eq_ok_iff] at hok
  obtain ⟨testCase, htestCase, script, hscript, _, hvalid, hrest⟩ := hok
  have hfrom := get_ok_iff.mp htestCase
  have hto := get_ok_iff.mp hscript
  have hproject : testCase.projectId = script.projectId := by
    unfold validateProject at hvalid
    split at hvalid
    · cases hvalid
    · next hproject => exact not_not.mp hproject
  cases hlink : h.assets.automation.links.get? (testCaseId, scriptId) with
  | some link =>
    simp only [hlink, pure_eq_ok_iff, Prod.mk.injEq] at hrest
    obtain ⟨-, rfl⟩ := hrest
    exact hs.unchanged _
  | none =>
    simp only [hlink, bind_eq_ok_iff, pure_eq_ok_iff, Prod.mk.injEq] at hrest
    obtain ⟨_, hlinkable, -, rfl⟩ := hrest
    refine ⟨⟨hs.requirements, hs.testCases, hs.scripts, hs.traces, hs.uses.link hfrom hto hproject now⟩,
      ⟨.refl _, .refl _, .refl _, fun _ _ h => h, fun _ _ h => get?_set_of_free hlink h⟩, ?_⟩
    intro key hnone hsome
    obtain rfl : key = (testCaseId, scriptId) := by
      by_contra hne
      simp [hne, hnone] at hsome
    refine ⟨testCase, script, hfrom, hto, ?_⟩
    unfold validateLinkable at hlinkable
    split at hlinkable
    · cases hlinkable
    · next hcase =>
      split at hlinkable
      · cases hlinkable
      · next hactive => exact ⟨hcase, hactive⟩

/-- Every call keeps the invariant and what is stored. -/
theorem Sound.step (hs : Sound h) {call : AssetCall} (hstep : h.step call = some after) : Kept h call after := by
  unfold History.step at hstep
  split at hstep
  · cases hstep
  next hfresh =>
  obtain rfl := Option.some.inj hstep
  cases hdraws : call.draws with
  | some newId =>
    have hnew : newId ∉ h.drawn := by simpa [hdraws] using hfresh
    have hupdates : call.updates = none := by
      cases call <;> simp_all [AssetCall.draws, AssetCall.updates]
    simpa [AssetCall.accepted_of_none hupdates] using hs.created hdraws hnew
  | none =>
    rw [Option.toList_none, List.append_nil]
    cases call <;> simp only [AssetCall.draws, reduceCtorEq] at hdraws
    case updateRequirement id values status expectedVersion now =>
      obtain ⟨e, -, hon⟩ | ⟨record, quality, hok, hon⟩ := h.assets.onQuality_cases
        (h.assets.quality.updateRequirement id values status expectedVersion now) .requirement
      · simpa [Assets.on, hon, AssetCall.accepted] using hs.unchanged _
      · simpa [Assets.on, hon, AssetCall.accepted, AssetCall.updates] using hs.updatedRequirement hok
    case updateTestCase id expectedVersion values status now =>
      obtain ⟨e, -, hon⟩ | ⟨record, quality, hok, hon⟩ := h.assets.onQuality_cases
        (h.assets.quality.updateTestCase id expectedVersion values status now) .testCase
      · simpa [Assets.on, hon, AssetCall.accepted] using hs.unchanged _
      · simpa [Assets.on, hon, AssetCall.accepted, AssetCall.updates] using hs.updatedTestCase hok
    case updateScript id expectedVersion values status now =>
      obtain ⟨e, -, hon⟩ | ⟨record, automation, hok, hon⟩ := h.assets.onAutomation_cases
        (h.assets.automation.updateScript id expectedVersion values status now) .script
      · simpa [Assets.on, hon, AssetCall.accepted] using hs.unchanged _
      · simpa [Assets.on, hon, AssetCall.accepted, AssetCall.updates] using hs.updatedScript hok
    case linkRequirementTestCase requirementId testCaseId now =>
      obtain ⟨e, -, hon⟩ | ⟨answer, quality, hok, hon⟩ := h.assets.onQuality_cases
        (h.assets.quality.linkRequirementTestCase requirementId testCaseId now) fun a => .link a.1 a.2
      · simpa [Assets.on, hon, AssetCall.accepted] using hs.unchanged _
      · simpa [Assets.on, hon, AssetCall.accepted, AssetCall.updates] using hs.linkedRequirement hok
    case linkTestCase testCaseId scriptId now =>
      obtain ⟨e, -, hon⟩ | ⟨answer, automation, hok, hon⟩ := h.assets.onAutomation_cases
        (h.assets.automation.linkTestCase h.assets.quality testCaseId scriptId now) fun a => .link a.1 a.2
      · simpa [Assets.on, hon, AssetCall.accepted] using hs.unchanged _
      · simpa [Assets.on, hon, AssetCall.accepted, AssetCall.updates] using hs.linkedScript hok
    -- The other calls only read.
    all_goals
      rw [AssetCall.accepted_of_none rfl, List.append_nil]
      exact hs.unchanged _

/-! ## Every run -/

/-- Each asset of a family is the last revision of a life: its revisions are numbered, their statuses in order, and
its accepted updates carried the versions from 0 on. -/
def StoredLives {Fixed Values Status : Type} (kind : Kind Status) (store : Store Fixed Values Status)
    (versions : UUID → List Nat) (ordered : List Status → Prop) : Prop :=
  ∀ id record, store.records.get? id = some record → ∃ history, store.revisions.get? id = some history ∧
    Life kind id history ∧ history.getLast? = some record ∧ ordered (history.map (·.status)) ∧
    (∀ k revision, history[k]? = some revision →
      revision.revision = k + 1 ∧ revision.stateVersion = k ∧ revision.SameAsset record) ∧
    versions id = List.range record.stateVersion

theorem storedLives_of_lives {Fixed Values Status : Type} {kind : Kind Status} {store : Store Fixed Values Status}
    {drawn : List UUID} {versions : UUID → List Nat} {ordered : List Status → Prop}
    (h : store.Lives kind drawn versions)
    (hordered : ∀ id (history : List (Record Fixed Values Status)), Life kind id history →
      ordered (history.map (·.status))) : StoredLives kind store versions ordered := by
  intro id record hrecord
  obtain ⟨history, hhistory, hlife, hlast, hversions⟩ := h.stored id record hrecord
  refine ⟨history, hhistory, hlife, hlast, hordered id history hlife, ?_, hversions⟩
  intro k revision hrevision
  obtain ⟨-, hnumber, hversion⟩ := hlife.numbered hrevision
  exact ⟨hnumber, hversion, hlife.same hlast (List.mem_of_getElem? hrevision)⟩

theorem extends_of_run {x y : History} {calls : List AssetCall} (hx : Sound x)
    (hrun : runSteps History.step x calls = some y) : Extends x.assets y.assets :=
  (runSteps_keeps (I := fun h => Sound h ∧ Extends x.assets h.assets)
    (fun _ _ _ hs hstep => ⟨(hs.1.step hstep).sound, hs.2.trans (hs.1.step hstep).extends_⟩) ⟨hx, .refl _⟩ hrun).2

/-- After any calls, every requirement and test case has lived through its statuses once, a script may have come back
from the archive, every link joins two assets of one project, and whatever comes next loses nothing and links no
archived asset. -/
theorem asset_lives {calls : List AssetCall} {x : History} (hrun : runSteps History.step start calls = some x) :
    StoredLives requirementKind x.assets.quality.requirements (x.versions .requirement)
      (InOrder .draft .active .archived) ∧
    StoredLives testCaseKind x.assets.quality.testCases (x.versions .testCase) (InOrder .draft .ready .archived) ∧
    StoredLives scriptKind x.assets.automation.scripts (x.versions .script) Reactivated ∧
    Joined x.assets.quality.requirements x.assets.quality.testCases x.assets.quality.links ∧
    Joined x.assets.quality.testCases x.assets.automation.scripts x.assets.automation.links ∧
    (∀ call y, x.step call = some y → LinksLive x.assets y.assets) ∧
    ∀ more y, runSteps History.step x more = some y → Extends x.assets y.assets := by
  have hs : Sound x := runSteps_keeps (fun _ _ _ hs hstep => (hs.step hstep).sound) sound_start hrun
  refine ⟨storedLives_of_lives hs.requirements fun _ _ h => h.inOrder requirement_movesOn,
    storedLives_of_lives hs.testCases fun _ _ h => h.inOrder testCase_movesOn,
    storedLives_of_lives hs.scripts fun _ _ h => h.reactivated, hs.traces, hs.uses, ?_, ?_⟩
  · exact fun call y hstep => (hs.step hstep).live
  · exact fun more y hmore => extends_of_run hs hmore

def loginCase : TestCaseValues := ⟨"Login", "", "", .high, [⟨1, "Open the page", "The form is there"⟩]⟩

def loginValues : ScriptValues := ⟨"login", "", "tests/test_login.py", "git:main", "0", 60⟩

/-- A test case is made ready and linked, and the script goes to the archive and back. -/
def loginCalls : List AssetCall :=
  [.createRequirement ⟨"r"⟩ ⟨"p"⟩ ⟨"Login", ""⟩ 0, .createTestCase ⟨"t"⟩ ⟨"p"⟩ loginCase .manual 1,
    .createScript ⟨"s"⟩ ⟨"p"⟩ .pytest loginValues 2, .updateTestCase ⟨"t"⟩ 0 loginCase .ready 3,
    .updateScript ⟨"s"⟩ 0 loginValues .active 4, .linkRequirementTestCase ⟨"r"⟩ ⟨"t"⟩ 5, .linkTestCase ⟨"t"⟩ ⟨"s"⟩ 6,
    .updateScript ⟨"s"⟩ 1 loginValues .archived 7, .updateScript ⟨"s"⟩ 2 loginValues .active 8,
    .updateScript ⟨"s"⟩ 2 loginValues .active 9]

theorem login_assets_live : ∃ x, runSteps History.step start loginCalls = some x ∧
    x.versions .script ⟨"s"⟩ = [0, 1, 2] ∧
    StoredLives scriptKind x.assets.automation.scripts (x.versions .script) Reactivated := by
  have hversions : (runSteps History.step start loginCalls).any (fun x => x.versions .script ⟨"s"⟩ = [0, 1, 2]) := by
    decide
  obtain ⟨x, hrun, hthree⟩ := (Option.any_eq_true _ _).mp hversions
  exact ⟨x, hrun, by simpa using hthree, (asset_lives hrun).2.2.1⟩

end History

end SmartTest.Asset
