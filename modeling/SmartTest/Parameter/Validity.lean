import SmartTest.Lib.Steps
import SmartTest.Parameter.Repository

/-!
# Enum parameters stay valid

After any calls: an enum parameter refers to a set of its script's project that offers its
default, the values of a set are distinct, and the names and positions of a script's
parameters are.
-/

open SmartTest.Lib SmartTest.Run

namespace SmartTest.Parameter

/-! ## What the checks establish -/

/-- The identities of the values of the options, all different. -/
def DistinctValues (options : List ParameterEnumOption) : Prop :=
  ∃ identities, options.mapM (fun option => jsonIdentity option.value) = .ok identities ∧ identities.Nodup

/-- One of the options has the identity of the value. -/
def Offers (options : List ParameterEnumOption) (value : JsonScalar) : Prop :=
  ∃ option ∈ options, ∃ identity, jsonIdentity option.value = .ok identity ∧ jsonIdentity value = .ok identity

theorem validateOptions_ok {identities : List (List Char)} {options validated : List ParameterEnumOption}
    (h : validateOptions identities options = .ok validated) :
    ∃ found, validated.mapM (fun option => jsonIdentity option.value) = .ok found ∧ found.Nodup ∧
      ∀ identity ∈ found, identity ∉ identities := by
  induction options generalizing identities validated with
  | nil =>
    obtain rfl := Except.ok.inj h
    exact ⟨[], rfl, List.nodup_nil, by simp⟩
  | cons option rest ih =>
    simp only [validateOptions, error_bind, ite_error_eq_ok_iff, bind_eq_ok_iff, pure_eq_ok_iff] at h
    obtain ⟨-, identity, hidentity, hnew, others, hothers, rfl⟩ := h
    obtain ⟨found, hfound, hnodup, hfresh⟩ := ih hothers
    refine ⟨identity :: found, ?_, ?_, ?_⟩
    · simp only [List.mapM_cons, hidentity, hfound, ok_bind]
      rfl
    · refine List.nodup_cons.mpr ⟨?_, hnodup⟩
      intro hmem
      exact hfresh identity hmem List.mem_cons_self
    · intro other hother
      rcases List.mem_cons.mp hother with rfl | hother
      · exact hnew
      · exact fun hmem => hfresh other hother (List.mem_cons_of_mem _ hmem)

theorem validateEnumValues_ok {name normalized : String} {options validated : List ParameterEnumOption}
    (h : validateEnumValues name options = .ok (normalized, validated)) : DistinctValues validated := by
  simp only [validateEnumValues, error_bind, ite_error_eq_ok_iff, bind_eq_ok_iff, pure_eq_ok_iff] at h
  obtain ⟨-, found, hfound, heq⟩ := h
  obtain ⟨-, rfl⟩ := Prod.mk.inj heq
  obtain ⟨identities, hidentities, hnodup, -⟩ := validateOptions_ok hfound
  exact ⟨identities, hidentities, hnodup⟩

theorem offered_true {options : List ParameterEnumOption} {value : JsonScalar}
    (h : offered options value = .ok true) : Offers options value := by
  simp only [offered, bind_eq_ok_iff, pure_eq_ok_iff, decide_eq_true_eq] at h
  obtain ⟨identities, hidentities, identity, hidentity, hmem⟩ := h
  rw [mapM_eq_ok_iff] at hidentities
  obtain ⟨i, hi, hget⟩ := List.getElem_of_mem hmem
  have hlength := hidentities.length_eq
  have hoption := List.Forall₂.get hidentities (hlength ▸ hi) hi
  rw [List.get_eq_getElem, List.get_eq_getElem, hget] at hoption
  exact ⟨options[i], List.getElem_mem _, identity, hoption, hidentity⟩

/-- The type of a parameter and its reference go together. -/
def Typed (item : ScriptParameterDefinition) : Prop := item.inputType = .enum ↔ item.enumSetId ≠ none

theorem validateDefinitions_ok {names : List String} {positions : List Int}
    {definitions validated : List ScriptParameterDefinition}
    (h : validateDefinitions names positions definitions = .ok validated) :
    (validated.map (·.name)).Nodup ∧ (∀ item ∈ validated, item.name ∉ names) ∧
    (validated.map (·.position)).Nodup ∧ (∀ item ∈ validated, item.position ∉ positions) ∧
    ∀ item ∈ validated, Typed item := by
  induction definitions generalizing names positions validated with
  | nil =>
    obtain rfl := Except.ok.inj h
    simp
  | cons item rest ih =>
    simp only [validateDefinitions, error_bind, ite_error_eq_ok_iff, bind_eq_ok_iff, pure_eq_ok_iff, not_or,
      not_and] at h
    obtain ⟨⟨-, hname⟩, -, ⟨-, hposition⟩, _, -, hrequired, honly, others, hothers, rfl⟩ := h
    obtain ⟨hnames, hnewNames, hpositions, hnewPositions, htyped⟩ := ih hothers
    have htypedItem : Typed { item with label := strip item.label } := by
      constructor
      · exact hrequired
      · intro hset
        by_contra htype
        exact honly htype hset
    refine ⟨?_, ?_, ?_, ?_, List.forall_mem_cons.mpr ⟨htypedItem, htyped⟩⟩
    · refine List.nodup_cons.mpr ⟨?_, hnames⟩
      intro hmem
      obtain ⟨other, hother, heq⟩ := List.mem_map.mp hmem
      exact hnewNames other hother (heq ▸ List.mem_cons_self)
    · refine List.forall_mem_cons.mpr ⟨hname, ?_⟩
      exact fun other hother hmem => hnewNames other hother (List.mem_cons_of_mem _ hmem)
    · refine List.nodup_cons.mpr ⟨?_, hpositions⟩
      intro hmem
      obtain ⟨other, hother, heq⟩ := List.mem_map.mp hmem
      exact hnewPositions other hother (heq ▸ List.mem_cons_self)
    · refine List.forall_mem_cons.mpr ⟨hposition, ?_⟩
      exact fun other hother hmem => hnewPositions other hother (List.mem_cons_of_mem _ hmem)

/-- The parameters of one script: names and positions are unique, and they are in the order of their positions. -/
structure Listed (items : List ScriptParameterDefinition) : Prop where
  names : (items.map (·.name)).Nodup
  ordered : items.Pairwise fun a b => a.position < b.position
  typed : ∀ item ∈ items, Typed item

theorem validateParameterDefinitions_ok {definitions validated : List ScriptParameterDefinition}
    (h : validateParameterDefinitions definitions = .ok validated) : Listed validated := by
  simp only [validateParameterDefinitions, bind_eq_ok_iff, pure_eq_ok_iff] at h
  obtain ⟨checked, hchecked, rfl⟩ := h
  obtain ⟨hnames, -, hpositions, -, htyped⟩ := validateDefinitions_ok hchecked
  have hperm := List.perm_insertionSort (fun a b : ScriptParameterDefinition => a.position ≤ b.position) checked
  refine ⟨?_, ?_, ?_⟩
  · exact (hperm.map _).nodup_iff.mpr hnames
  · have hle := List.pairwise_insertionSort (fun a b : ScriptParameterDefinition => a.position ≤ b.position) checked
    have hne : (checked.insertionSort fun a b => a.position ≤ b.position).Pairwise
        fun a b => a.position ≠ b.position :=
      List.pairwise_map.mp ((hperm.map ScriptParameterDefinition.position).nodup_iff.mpr hpositions)
    exact (hle.and hne).imp fun h => lt_of_le_of_ne h.1 h.2
  · intro item hitem
    exact htyped item (hperm.mem_iff.mp hitem)

/-! ## The invariant -/

/-- The parameter refers to a set of the project that offers its default. -/
def Refers (enums : Dict UUID ParameterEnumSetRecord) (projectId : UUID) (item : ScriptParameterDefinition) : Prop :=
  ∀ enumSetId, item.enumSetId = some enumSetId → ∃ record, enums.get? enumSetId = some record ∧
    record.projectId = projectId ∧ Offers record.options item.defaultValue

namespace ParameterRepository

/-- What holds after any calls, with the projects of the scripts. -/
structure Valid (projectOf : UUID → UUID) (repo : ParameterRepository) : Prop where
  indexed : Indexed ParameterEnumSetRecord.key repo.enums repo.names
  distinct : ∀ id record, repo.enums.get? id = some record → DistinctValues record.options
  listed : ∀ scriptId items, repo.parameters.get? scriptId = some items → Listed items
  refers : ∀ scriptId items, repo.parameters.get? scriptId = some items → ∀ item ∈ items,
    Refers repo.enums (projectOf scriptId) item

theorem Valid.empty (projectOf : UUID → UUID) : Valid projectOf .empty :=
  ⟨.empty _, by simp [ParameterRepository.empty], by simp [ParameterRepository.empty],
    by simp [ParameterRepository.empty]⟩

variable {projectOf : UUID → UUID} {repo : ParameterRepository}

theorem getEnumSet_eq_ok {id : UUID} {record : ParameterEnumSetRecord} :
    repo.getEnumSet id = .ok record ↔ repo.enums.get? id = some record := by
  unfold getEnumSet
  cases repo.enums.get? id <;> simp

theorem mem_flatten {item : ScriptParameterDefinition} : item ∈ repo.parameters.values.flatten ↔
    ∃ scriptId items, repo.parameters.get? scriptId = some items ∧ item ∈ items := by
  simp only [List.mem_flatten, Dict.mem_values_iff]
  constructor
  · rintro ⟨items, ⟨scriptId, hget⟩, hitem⟩
    exact ⟨scriptId, items, hget, hitem⟩
  · rintro ⟨scriptId, items, hget, hitem⟩
    exact ⟨items, ⟨scriptId, hget⟩, hitem⟩

theorem validateDefaults_ok {enumSetId : UUID} {options : List ParameterEnumOption}
    {items : List ScriptParameterDefinition} (h : validateDefaults enumSetId options items = .ok ()) :
    ∀ item ∈ items, item.enumSetId = some enumSetId → Offers options item.defaultValue := by
  induction items with
  | nil => simp
  | cons item rest ih =>
    simp only [validateDefaults] at h
    split at h
    · next hset =>
      simp only [bind_eq_ok_iff, error_bind, ite_error_eq_ok_iff] at h
      obtain ⟨found, hfound, htrue, hrest⟩ := h
      refine List.forall_mem_cons.mpr ⟨?_, ih hrest⟩
      intro _
      apply offered_true
      rw [hfound, Bool.eq_true_of_not_eq_false htrue]
    · next hother =>
      refine List.forall_mem_cons.mpr ⟨fun hset => absurd hset hother, ih h⟩

theorem validateParameterEnums_ok {projectId : UUID} {items : List ScriptParameterDefinition}
    (h : repo.validateParameterEnums projectId items = .ok ()) :
    ∀ item ∈ items, Refers repo.enums projectId item := by
  induction items with
  | nil => simp
  | cons item rest ih =>
    simp only [validateParameterEnums] at h
    cases hset : item.enumSetId with
    | none =>
      rw [hset] at h
      refine List.forall_mem_cons.mpr ⟨?_, ih h⟩
      intro enumSetId hsome
      cases hset.symm.trans hsome
    | some enumSetId =>
      simp only [hset] at h
      cases hget : repo.getEnumSet enumSetId with
      | error e =>
        simp only [hget, error_bind] at h
        cases h
      | ok record =>
        simp only [hget, error_bind, ite_error_eq_ok_iff, bind_eq_ok_iff] at h
        obtain ⟨hproject, found, hfound, htrue, hrest⟩ := h
        refine List.forall_mem_cons.mpr ⟨?_, ih hrest⟩
        intro other hother
        obtain rfl := Option.some.inj (hset.symm.trans hother)
        refine ⟨record, getEnumSet_eq_ok.mp hget, by simpa using hproject, ?_⟩
        apply offered_true
        rw [hfound, Bool.eq_true_of_not_eq_false htrue]

/-! ## Calls -/

theorem Valid.createEnumSet (h : Valid projectOf repo) {newId projectId : UUID} {name description : String}
    {options : List ParameterEnumOption} (hfresh : repo.enums.get? newId = none) :
    Valid projectOf (repo.createEnumSet newId projectId name description options).2 ∧
    ∀ e, (repo.createEnumSet newId projectId name description options).1 = .error e →
      (repo.createEnumSet newId projectId name description options).2 = repo := by
  unfold ParameterRepository.createEnumSet
  split
  · exact ⟨h, fun _ _ => rfl⟩
  · next normalized validated hvalidated =>
    split
    · exact ⟨h, fun _ _ => rfl⟩
    · next hfree =>
      refine ⟨⟨?_, ?_, h.listed, ?_⟩, by rintro e ⟨⟩⟩
      · have hnone : repo.names.get? (ParameterEnumSetRecord.key
            ⟨newId, projectId, normalized, description, validated, 0⟩) = none :=
          Option.not_isSome_iff_eq_none.mp hfree
        exact h.indexed.insert hfresh hnone
      · intro id record hrecord
        rw [Dict.get?_set] at hrecord
        split at hrecord
        · obtain rfl := Option.some.inj hrecord
          exact validateEnumValues_ok hvalidated
        · exact h.distinct id record hrecord
      · intro scriptId items hitems item hitem enumSetId hset
        obtain ⟨record, hrecord, hproject, hoffers⟩ := h.refers scriptId items hitems item hitem enumSetId hset
        refine ⟨record, ?_, hproject, hoffers⟩
        rw [Dict.get?_set_ne]
        · exact hrecord
        · rintro rfl
          cases hfresh.symm.trans hrecord

theorem prepareUpdate_ok {enumSetId : UUID} {expectedVersion : Nat} {name description : String}
    {options : List ParameterEnumOption} {current updated : ParameterEnumSetRecord}
    (h : repo.prepareUpdate enumSetId expectedVersion name description options = .ok (current, updated)) :
    repo.enums.get? enumSetId = some current ∧ updated.projectId = current.projectId ∧
      (∀ other, repo.names.get? updated.key = some other → other = enumSetId) ∧ DistinctValues updated.options ∧
      ∀ scriptId items, repo.parameters.get? scriptId = some items → ∀ item ∈ items,
        item.enumSetId = some enumSetId → Offers updated.options item.defaultValue := by
  simp only [prepareUpdate, bind_eq_ok_iff, error_bind, ite_error_eq_ok_iff, pure_eq_ok_iff] at h
  obtain ⟨⟨normalized, validated⟩, hvalidated, found, hfound, -, howner, _, hdefaults, heq⟩ := h
  obtain ⟨rfl, rfl⟩ := Prod.mk.inj heq
  refine ⟨getEnumSet_eq_ok.mp hfound, rfl, ?_, validateEnumValues_ok hvalidated, ?_⟩
  · intro other hother
    by_contra hne
    have hname : repo.names.get? (found.projectId, normalized) = some other := hother
    exact howner (by simp [hname, hne])
  · intro scriptId items hitems item hitem
    exact validateDefaults_ok hdefaults item (mem_flatten.mpr ⟨scriptId, items, hitems, hitem⟩)

/-- The name that is taken back is there, so the writes go through. -/
theorem Valid.writeUpdate_eq (h : Valid projectOf repo) {enumSetId : UUID} {current updated : ParameterEnumSetRecord}
    (hcurrent : repo.enums.get? enumSetId = some current) :
    repo.writeUpdate enumSetId current updated = (.ok updated, { repo with
      enums := repo.enums.set enumSetId updated
      names := if current.name = updated.name then repo.names
        else (repo.names.erase current.key).set (current.projectId, updated.name) enumSetId }) := by
  have hname := h.indexed.get hcurrent
  unfold ParameterRepository.writeUpdate
  split
  · next hsame => rfl
  · next hsame => simp [hname]

theorem Valid.updateEnumSet (h : Valid projectOf repo) {enumSetId : UUID} {expectedVersion : Nat}
    {name description : String} {options : List ParameterEnumOption} :
    Valid projectOf (repo.updateEnumSet enumSetId expectedVersion name description options).2 ∧
    ∀ e, (repo.updateEnumSet enumSetId expectedVersion name description options).1 = .error e →
      (repo.updateEnumSet enumSetId expectedVersion name description options).2 = repo := by
  unfold ParameterRepository.updateEnumSet
  split
  · exact ⟨h, fun _ _ => rfl⟩
  · next current updated hprepared =>
    obtain ⟨hcurrent, hproject, howner, hdistinct, hdefaults⟩ := prepareUpdate_ok hprepared
    rw [h.writeUpdate_eq hcurrent]
    refine ⟨⟨?_, ?_, h.listed, ?_⟩, by rintro e ⟨⟩⟩
    · dsimp only
      split
      · next hsame => exact h.indexed.keep hcurrent (Prod.ext hproject hsame.symm)
      · have hkey : updated.key = (current.projectId, updated.name) := by
          rw [ParameterEnumSetRecord.key, hproject]
        rw [← hkey]
        exact h.indexed.replace hcurrent howner
    · intro id record hrecord
      rw [Dict.get?_set] at hrecord
      split at hrecord
      · obtain rfl := Option.some.inj hrecord
        exact hdistinct
      · exact h.distinct id record hrecord
    · intro scriptId items hitems item hitem other hset
      obtain ⟨record, hrecord, hrecordProject, hoffers⟩ := h.refers scriptId items hitems item hitem other hset
      by_cases heq : other = enumSetId
      · subst heq
        obtain rfl := Option.some.inj (hcurrent.symm.trans hrecord)
        exact ⟨updated, Dict.get?_set_self _ _ _, hproject.trans hrecordProject,
          hdefaults scriptId items hitems item hitem hset⟩
      · exact ⟨record, by rw [Dict.get?_set_ne _ _ heq]; exact hrecord, hrecordProject, hoffers⟩

theorem Valid.deleteEnumSet (h : Valid projectOf repo) {enumSetId : UUID} :
    Valid projectOf (repo.deleteEnumSet enumSetId).2 ∧
    ∀ e, (repo.deleteEnumSet enumSetId).1 = .error e → (repo.deleteEnumSet enumSetId).2 = repo := by
  unfold ParameterRepository.deleteEnumSet
  split
  · exact ⟨h, fun _ _ => rfl⟩
  · next current hget =>
    have hcurrent := getEnumSet_eq_ok.mp hget
    split
    · exact ⟨h, fun _ _ => rfl⟩
    · next hunreferenced =>
      have hname := h.indexed.get hcurrent
      simp only [hname, Option.isNone_some, Bool.false_eq_true, if_false]
      refine ⟨⟨h.indexed.remove hcurrent, ?_, h.listed, ?_⟩, by rintro e ⟨⟩⟩
      · intro id record hrecord
        rw [Dict.get?_erase] at hrecord
        split at hrecord
        · cases hrecord
        · exact h.distinct id record hrecord
      · intro scriptId items hitems item hitem other hset
        obtain ⟨record, hrecord, hrest⟩ := h.refers scriptId items hitems item hitem other hset
        have hne : other ≠ enumSetId := by
          rintro rfl
          apply hunreferenced
          rw [List.any_eq_true]
          exact ⟨item, mem_flatten.mpr ⟨scriptId, items, hitems, hitem⟩, by simpa using hset⟩
        exact ⟨record, by rw [Dict.get?_erase, if_neg hne]; exact hrecord, hrest⟩

theorem Valid.replaceScriptParameters (h : Valid projectOf repo) {scriptId : UUID} {project : Option UUID}
    (hproject : ∀ projectId, project = some projectId → projectId = projectOf scriptId)
    {definitions : List ScriptParameterDefinition} :
    Valid projectOf (repo.replaceScriptParameters scriptId project definitions).2 ∧
    ∀ e, (repo.replaceScriptParameters scriptId project definitions).1 = .error e →
      (repo.replaceScriptParameters scriptId project definitions).2 = repo := by
  unfold ParameterRepository.replaceScriptParameters
  split
  · exact ⟨h, fun _ _ => rfl⟩
  · next validated hvalidated =>
    split
    · exact ⟨h, fun _ _ => rfl⟩
    · next projectId =>
      obtain rfl := hproject projectId rfl
      split
      · exact ⟨h, fun _ _ => rfl⟩
      · next henums =>
        refine ⟨⟨h.indexed, h.distinct, ?_, ?_⟩, by rintro e ⟨⟩⟩
        · intro other items hitems
          rw [Dict.get?_set] at hitems
          split at hitems
          · obtain rfl := Option.some.inj hitems
            exact validateParameterDefinitions_ok hvalidated
          · exact h.listed other items hitems
        · intro other items hitems
          rw [Dict.get?_set] at hitems
          split at hitems
          · next heq =>
            obtain rfl := Option.some.inj hitems
            intro item hitem
            rw [heq]
            exact validateParameterEnums_ok henums item hitem
          · exact h.refers other items hitems

end ParameterRepository

/-! ## Any sequence of calls -/

inductive ParameterCall where
  | createEnumSet (newId projectId : UUID) (name description : String) (options : List ParameterEnumOption)
  | updateEnumSet (enumSetId : UUID) (expectedVersion : Nat) (name description : String)
      (options : List ParameterEnumOption)
  | deleteEnumSet (enumSetId : UUID)
  | replaceScriptParameters (scriptId : UUID) (found : Bool) (definitions : List ScriptParameterDefinition)

namespace ParameterCall

variable (projectOf : UUID → UUID)

/-- Whether the call returns, and what it leaves. A script keeps its project; it may not be found. -/
def on (repo : ParameterRepository) : ParameterCall → Except Exn Unit × ParameterRepository
  | .createEnumSet newId projectId name description options =>
    (repo.createEnumSet newId projectId name description options).map (·.map fun _ => ()) id
  | .updateEnumSet enumSetId expectedVersion name description options =>
    (repo.updateEnumSet enumSetId expectedVersion name description options).map (·.map fun _ => ()) id
  | .deleteEnumSet enumSetId => repo.deleteEnumSet enumSetId
  | .replaceScriptParameters scriptId found definitions =>
    (repo.replaceScriptParameters scriptId (if found then some (projectOf scriptId) else none) definitions).map
      (·.map fun _ => ()) id

/-- One call; `uuid4` draws an id that is not in use. -/
def step (repo : ParameterRepository) (call : ParameterCall) : Option ParameterRepository :=
  match call with
  | .createEnumSet newId _ _ _ _ =>
    if (repo.enums.get? newId).isSome then none else some (call.on projectOf repo).2
  | _ => some (call.on projectOf repo).2

variable {projectOf}

theorem valid_on {repo : ParameterRepository} (h : repo.Valid projectOf) (call : ParameterCall)
    (hfresh : ∀ newId projectId name description options,
      call = .createEnumSet newId projectId name description options → repo.enums.get? newId = none) :
    (call.on projectOf repo).2.Valid projectOf ∧
      ∀ e, (call.on projectOf repo).1 = .error e → (call.on projectOf repo).2 = repo := by
  have hanswer : ∀ {α : Type} (answered : Except Exn α × ParameterRepository),
      answered.2.Valid projectOf ∧ (∀ e, answered.1 = .error e → answered.2 = repo) →
      (answered.map (·.map fun _ => ()) id).2.Valid projectOf ∧
        ∀ e, (answered.map (·.map fun _ => ()) id).1 = .error e → (answered.map (·.map fun _ => ()) id).2 = repo := by
    rintro α ⟨answer, after⟩ ⟨hvalid, hsame⟩
    refine ⟨hvalid, ?_⟩
    intro e he
    exact hsame e ((map_eq_error_iff _ _ _).mp he)
  cases call with
  | createEnumSet newId projectId name description options =>
    exact hanswer (repo.createEnumSet newId projectId name description options)
      (h.createEnumSet (hfresh newId projectId name description options rfl))
  | updateEnumSet enumSetId expectedVersion name description options =>
    exact hanswer (repo.updateEnumSet enumSetId expectedVersion name description options) h.updateEnumSet
  | deleteEnumSet enumSetId => exact h.deleteEnumSet
  | replaceScriptParameters scriptId found definitions =>
    apply hanswer
    apply h.replaceScriptParameters
    intro projectId hproject
    split at hproject
    · exact (Option.some.inj hproject).symm
    · cases hproject

theorem valid_step {repo repo' : ParameterRepository} (h : repo.Valid projectOf) {call : ParameterCall}
    (hstep : step projectOf repo call = some repo') : repo'.Valid projectOf := by
  cases call with
  | createEnumSet newId projectId name description options =>
    simp only [step] at hstep
    split at hstep
    · cases hstep
    · next hunused =>
      obtain rfl := Option.some.inj hstep
      refine (valid_on h _ ?_).1
      rintro _ _ _ _ _ ⟨⟩
      simpa using hunused
  | updateEnumSet | deleteEnumSet | replaceScriptParameters =>
    obtain rfl := Option.some.inj hstep
    exact (valid_on h _ (by rintro _ _ _ _ _ ⟨⟩)).1

/-- After any calls the repository is valid, and a call that raises changes nothing. -/
theorem enum_parameters_stay_valid {calls : List ParameterCall} {repo : ParameterRepository}
    (hrun : runSteps (step projectOf) .empty calls = some repo) :
    repo.Valid projectOf ∧
    ∀ call e, (step projectOf repo call).isSome → (call.on projectOf repo).1 = .error e →
      (call.on projectOf repo).2 = repo := by
  have hvalid : repo.Valid projectOf :=
    runSteps_keeps (I := fun repo => repo.Valid projectOf) (fun _ _ _ hs hstep => valid_step hs hstep)
      (.empty projectOf) hrun
  refine ⟨hvalid, ?_⟩
  intro call e hstep
  refine (valid_on hvalid call ?_).2 e
  rintro newId projectId name description options rfl
  simp only [step] at hstep
  split at hstep
  · cases hstep
  · next hunused => simpa using hunused

/-- An enum set, a parameter that takes its default from it, and an update that would drop it. -/
def colourCalls : List ParameterCall :=
  [.createEnumSet ⟨"e"⟩ ⟨"p"⟩ " colour " "" [⟨"red", .int 1⟩, ⟨"blue", .bool true⟩],
    .replaceScriptParameters ⟨"s"⟩ true [⟨"colour", "Colour", .enum, true, some ⟨"e"⟩, .bool true, 0⟩],
    .updateEnumSet ⟨"e"⟩ 0 "colour" "" [⟨"red", .int 1⟩]]

/-- The parameter is there, and the set as it was. -/
def colourKept (repo : ParameterRepository) : Bool :=
  (repo.parameters.get? ⟨"s"⟩).any (·.length = 1) && (repo.enums.get? ⟨"e"⟩).any (·.options.length = 2)

theorem colour_parameter_valid : ∃ repo, runSteps (step fun _ => ⟨"p"⟩) .empty colourCalls = some repo ∧
    repo.Valid (fun _ => ⟨"p"⟩) ∧ colourKept repo = true := by
  have hkept : (runSteps (step fun _ => ⟨"p"⟩) .empty colourCalls).any colourKept = true := by decide +kernel
  obtain ⟨repo, hrun, hrepo⟩ := (Option.any_eq_true _ _).mp hkept
  exact ⟨repo, hrun, (enum_parameters_stay_valid hrun).1, hrepo⟩

end ParameterCall

end SmartTest.Parameter
