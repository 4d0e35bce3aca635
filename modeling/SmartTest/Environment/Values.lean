import SmartTest.Environment.Repository
import SmartTest.Lib.Except

/-!
# The values of a revision

What `validate_inputs` has checked of each input, and what `build_configuration_values`
therefore leaves in every revision.
-/

open SmartTest.Lib SmartTest.Run

namespace SmartTest.Environment

variable {floatRepr : Rat → List Char} {encryptor : SecretEncryptor}

/-! ## What validation leaves -/

/-- Everything `validate_inputs` has checked about each of its inputs. -/
structure ValidInput (floatRepr : Rat → List Char) (category : ConfigurationCategory)
    (item : ConfigurationValueInput) : Prop where
  key : keyPattern category item.name = true
  checked : validateInput floatRepr category item = .ok ()

theorem validateFrom_ok_iff {category : ConfigurationCategory} {names : List String}
    {values : List ConfigurationValueInput} :
    validateFrom floatRepr category names values = .ok () ↔
      (∀ item ∈ values, ValidInput floatRepr category item) ∧ (values.map (·.name)).Nodup ∧
        ∀ item ∈ values, item.name ∉ names := by
  induction values generalizing names with
  | nil => simp [validateFrom]
  | cons item rest ih =>
    simp only [validateFrom, error_bind, ite_error_eq_ok_iff, bind_eq_ok_iff, Bool.not_eq_false, ih]
    constructor
    · rintro ⟨hkey, hnew, _, hchecked, hvalid, hnodup, hother⟩
      refine ⟨?_, ?_, ?_⟩
      · rintro x (_ | ⟨_, hx⟩)
        · exact ⟨hkey, hchecked⟩
        · exact hvalid x hx
      · rw [List.map_cons, List.nodup_cons, List.mem_map]
        refine ⟨?_, hnodup⟩
        rintro ⟨x, hx, heq⟩
        exact hother x hx (heq ▸ List.mem_cons_self)
      · rintro x (_ | ⟨_, hx⟩)
        · exact hnew
        · exact fun hmem => hother x hx (List.mem_cons_of_mem _ hmem)
    · rintro ⟨hvalid, hnodup, hother⟩
      rw [List.map_cons, List.nodup_cons] at hnodup
      refine ⟨(hvalid item List.mem_cons_self).key, hother item List.mem_cons_self, (),
        (hvalid item List.mem_cons_self).checked, fun x hx => hvalid x (List.mem_cons_of_mem _ hx), hnodup.2, ?_⟩
      intro x hx hmem
      rcases List.mem_cons.mp hmem with heq | hmem
      · exact hnodup.1 (heq ▸ List.mem_map_of_mem hx)
      · exact hother x (List.mem_cons_of_mem _ hx) hmem

theorem validateInputs_ok_iff {category : ConfigurationCategory} {values : List ConfigurationValueInput} :
    validateInputs floatRepr category values = .ok () ↔
      values.length ≤ MAX_VALUES_PER_CATEGORY ∧ (∀ item ∈ values, ValidInput floatRepr category item) ∧
        (values.map (·.name)).Nodup := by
  simp [validateInputs, error_bind, ite_error_eq_ok_iff, validateFrom_ok_iff]

/-! ## What a revision has -/

def ConfigurationValue.slot (value : ConfigurationValue) : ConfigurationCategory × String :=
  (value.category, value.name)

/-- A secret has a seal and a reference and no open value; a public value has neither. -/
def ConfigurationValue.Material (value : ConfigurationValue) : Prop :=
  if value.secret then value.value = .null ∧ value.secretRef.isSome ∧ value.encrypted.isSome
  else value.secretRef = none ∧ value.encrypted = none

/-- The value that an input becomes. -/
structure Builds (category : ConfigurationCategory) (item : ConfigurationValueInput) (value : ConfigurationValue) :
    Prop where
  category : value.category = category
  name : value.name = item.name
  secret : value.secret = item.secret
  opaqueValue : value.secret = true → value.secretRef.isSome
  publicValue : value.secret = false → value.value = item.value ∧ value.secretRef = none
  material : value.Material

theorem buildFrom_builds {draws : Draws} {projectId environmentId : UUID} {revision : Nat}
    {previous : Option EnvironmentRecord} {category : ConfigurationCategory} {index : Nat}
    {items : List ConfigurationValueInput} {values : List ConfigurationValue}
    (h : buildFrom encryptor draws projectId environmentId revision previous category index items = .ok values) :
    List.Forall₂ (Builds category) items values := by
  induction items generalizing index values with
  | nil =>
    cases h
    exact .nil
  | cons item rest ih =>
    simp only [buildFrom, bind_eq_ok_iff, pure_eq_ok_iff] at h
    obtain ⟨value, hvalue, others, hothers, rfl⟩ := h
    refine .cons ?_ (ih hothers)
    unfold buildValue at hvalue
    split at hvalue
    · next hpublic =>
      cases hvalue
      exact ⟨rfl, rfl, by simpa using hpublic.symm, by simp, by simp, by simp [ConfigurationValue.Material]⟩
    · next hsecret =>
      simp only [bind_eq_ok_iff, pure_eq_ok_iff] at hvalue
      obtain ⟨_, -, _, -, rfl⟩ := hvalue
      exact ⟨rfl, rfl, by simpa using hsecret, by simp, by simp, by simp [ConfigurationValue.Material]⟩

/-- Public inputs are kept as they are. -/
theorem buildFrom_public {draws : Draws} {projectId environmentId : UUID} {revision : Nat}
    {previous : Option EnvironmentRecord} {category : ConfigurationCategory} {index : Nat}
    {items : List ConfigurationValueInput} (h : ∀ item ∈ items, item.secret = false) :
    buildFrom encryptor draws projectId environmentId revision previous category index items =
      .ok (items.map fun item => ⟨category, item.name, false, item.value, none, none⟩) := by
  induction items generalizing index with
  | nil => rfl
  | cons item rest ih =>
    rw [buildFrom, buildValue, h item List.mem_cons_self, Bool.not_false, if_pos rfl, ok_bind,
      ih fun x hx => h x (List.mem_cons_of_mem _ hx)]
    rfl

/-- The references of a category are drawn one after the other. -/
theorem buildFrom_drawn {draws : Draws} {projectId environmentId : UUID} {revision : Nat}
    {previous : Option EnvironmentRecord} {category : ConfigurationCategory} {index : Nat}
    {items : List ConfigurationValueInput} {values : List ConfigurationValue}
    (h : buildFrom encryptor draws projectId environmentId revision previous category index items = .ok values) :
    ∀ ref ∈ values.filterMap (·.secretRef), ∃ i, index ≤ i ∧ ref = draws.secretRef category i := by
  induction items generalizing index values with
  | nil =>
    cases h
    simp
  | cons item rest ih =>
    simp only [buildFrom, bind_eq_ok_iff, pure_eq_ok_iff] at h
    obtain ⟨value, hvalue, others, hothers, rfl⟩ := h
    have hlater : ∀ ref ∈ others.filterMap (·.secretRef), ∃ i, index ≤ i ∧ ref = draws.secretRef category i := by
      intro ref href
      obtain ⟨i, hi, rfl⟩ := ih hothers ref href
      exact ⟨i, by omega, rfl⟩
    unfold buildValue at hvalue
    split at hvalue
    · cases hvalue
      exact hlater
    · simp only [bind_eq_ok_iff, pure_eq_ok_iff] at hvalue
      obtain ⟨_, -, _, -, rfl⟩ := hvalue
      simp only [List.filterMap_cons]
      rintro ref (_ | ⟨_, hmem⟩)
      · exact ⟨index, le_rfl, rfl⟩
      · exact hlater ref hmem

theorem buildFrom_refs {draws : Draws} {projectId environmentId : UUID} {revision : Nat}
    {previous : Option EnvironmentRecord} {category : ConfigurationCategory} {index : Nat}
    {items : List ConfigurationValueInput} {values : List ConfigurationValue}
    (hdraws : Function.Injective (draws.secretRef category))
    (h : buildFrom encryptor draws projectId environmentId revision previous category index items = .ok values) :
    (values.filterMap (·.secretRef)).Nodup := by
  induction items generalizing index values with
  | nil =>
    cases h
    simp
  | cons item rest ih =>
    simp only [buildFrom, bind_eq_ok_iff, pure_eq_ok_iff] at h
    obtain ⟨value, hvalue, others, hothers, rfl⟩ := h
    unfold buildValue at hvalue
    split at hvalue
    · cases hvalue
      simpa using ih hothers
    · simp only [bind_eq_ok_iff, pure_eq_ok_iff] at hvalue
      obtain ⟨_, -, _, -, rfl⟩ := hvalue
      simp only [List.filterMap_cons]
      refine List.nodup_cons.mpr ⟨?_, ih hothers⟩
      intro hmem
      obtain ⟨i, hi, heq⟩ := buildFrom_drawn hothers _ hmem
      have := hdraws heq
      omega

theorem ValidInput.text {item : ConfigurationValueInput} (h : ValidInput floatRepr .environmentVariable item)
    (hpublic : item.secret = false) : ∃ text, item.value = .str text := by
  have hchecked := h.checked
  simp only [validateInput, hpublic, Bool.false_eq_true, if_false, error_bind, ite_error_eq_ok_iff] at hchecked
  obtain ⟨-, htext, -⟩ := hchecked
  cases hvalue : item.value with
  | str text => exact ⟨text, rfl⟩
  | _ => simp [hvalue] at htext

theorem ValidInput.sized {category : ConfigurationCategory} {item : ConfigurationValueInput}
    (h : ValidInput floatRepr category item) : encodedLength floatRepr item.value ≤ MAX_VALUE_BYTES := by
  have hchecked := h.checked
  unfold validateInput at hchecked
  by_cases hsecret : item.secret
  · simp only [hsecret, if_true, error_bind, ite_error_eq_ok_iff, Nat.not_lt, gt_iff_lt] at hchecked
    exact hchecked.2.2.1
  · simp only [hsecret, Bool.false_eq_true, if_false, error_bind, ite_error_eq_ok_iff,
      Nat.not_lt, gt_iff_lt] at hchecked
    exact hchecked.2.2.1

/-- The draws of one call never repeat a reference. -/
def Draws.Distinct (draws : Draws) : Prop :=
  ∀ c i c' i', draws.secretRef c i = draws.secretRef c' i' → c = c' ∧ i = i'

/-- The values of one category, in the order of their inputs. -/
structure CategoryOk (floatRepr : Rat → List Char) (category : ConfigurationCategory)
    (values : List ConfigurationValue) : Prop where
  count : values.length ≤ MAX_VALUES_PER_CATEGORY
  names : (values.map (·.name)).Nodup
  kind : ∀ value ∈ values, value.category = category
  key : ∀ value ∈ values, keyPattern category value.name = true
  secret : ∀ value ∈ values, value.secret = true → value.secretRef.isSome
  publicRef : ∀ value ∈ values, value.secret = false → value.secretRef = none
  text : category = .environmentVariable → ∀ value ∈ values, value.secret = false → ∃ text, value.value = .str text
  sized : ∀ value ∈ values, value.secret = false → encodedLength floatRepr value.value ≤ MAX_VALUE_BYTES
  material : ∀ value ∈ values, value.Material

/-- Every revision has its environment variables before its parameters, each with distinct names, and no
reference twice. -/
structure ValuesOk (floatRepr : Rat → List Char) (values : List ConfigurationValue) : Prop where
  split : ∃ first second, values = first ++ second ∧ CategoryOk floatRepr .environmentVariable first ∧
    CategoryOk floatRepr .commonParameter second
  refs : (values.filterMap (·.secretRef)).Nodup

/-- No two values of a revision share category and name. -/
theorem ValuesOk.slots_nodup {values : List ConfigurationValue} (h : ValuesOk floatRepr values) :
    (values.map ConfigurationValue.slot).Nodup := by
  obtain ⟨first, second, rfl, hfirst, hsecond⟩ := h.split
  rw [List.map_append, List.nodup_append]
  have hpart : ∀ category part, CategoryOk floatRepr category part → (part.map ConfigurationValue.slot).Nodup := by
    intro category part hpart
    refine List.Nodup.of_map Prod.snd ?_
    rw [List.map_map]
    exact hpart.names
  refine ⟨hpart _ _ hfirst, hpart _ _ hsecond, ?_⟩
  simp only [List.mem_map]
  rintro _ ⟨value, hvalue, rfl⟩ _ ⟨other, hother, rfl⟩ heq
  have hcategory : value.category = other.category := congrArg Prod.fst heq
  rw [hfirst.kind value hvalue, hsecond.kind other hother] at hcategory
  cases hcategory

theorem ValuesOk.public {values : List ConfigurationValue} (h : ValuesOk floatRepr values) :
    ∀ value ∈ values, value.secret = false → value.secretRef = none := by
  obtain ⟨first, second, rfl, hfirst, hsecond⟩ := h.split
  intro value hvalue hpublic
  rcases List.mem_append.mp hvalue with hmem | hmem
  · exact hfirst.publicRef value hmem hpublic
  · exact hsecond.publicRef value hmem hpublic

theorem ValuesOk.referenced {values : List ConfigurationValue} (h : ValuesOk floatRepr values) :
    ∀ value ∈ values, value.secret = true → value.secretRef.isSome := by
  obtain ⟨first, second, rfl, hfirst, hsecond⟩ := h.split
  intro value hvalue hsecret
  rcases List.mem_append.mp hvalue with hmem | hmem
  · exact hfirst.secret value hmem hsecret
  · exact hsecond.secret value hmem hsecret

theorem exists_input {category : ConfigurationCategory} {items : List ConfigurationValueInput}
    {values : List ConfigurationValue} (h : List.Forall₂ (Builds category) items values)
    {value : ConfigurationValue} (hvalue : value ∈ values) : ∃ item ∈ items, Builds category item value := by
  induction h with
  | nil => simp at hvalue
  | cons hbuilds _ ih =>
    rcases List.mem_cons.mp hvalue with rfl | hvalue
    · exact ⟨_, List.mem_cons_self, hbuilds⟩
    · obtain ⟨item, hitem, hb⟩ := ih hvalue
      exact ⟨item, List.mem_cons_of_mem _ hitem, hb⟩

theorem categoryOk_of_builds {category : ConfigurationCategory} {items : List ConfigurationValueInput}
    {values : List ConfigurationValue} (hvalid : validateInputs floatRepr category items = .ok ())
    (hbuilds : List.Forall₂ (Builds category) items values) : CategoryOk floatRepr category values := by
  obtain ⟨hcount, hitems, hnames⟩ := validateInputs_ok_iff.mp hvalid
  have hnamesEq : values.map (·.name) = items.map (·.name) := by
    clear hitems hnames hcount hvalid
    induction hbuilds with
    | nil => rfl
    | cons hb _ ih => simp [hb.name, ih]
  refine ⟨by rw [← hbuilds.length_eq]; exact hcount, by rw [hnamesEq]; exact hnames, ?_, ?_, ?_, ?_, ?_, ?_, ?_⟩
  · intro value hvalue
    obtain ⟨item, -, hb⟩ := exists_input hbuilds hvalue
    exact hb.category
  · intro value hvalue
    obtain ⟨item, hitem, hb⟩ := exists_input hbuilds hvalue
    rw [hb.name]
    exact (hitems item hitem).key
  · intro value hvalue hsecret
    obtain ⟨item, -, hb⟩ := exists_input hbuilds hvalue
    exact hb.opaqueValue hsecret
  · intro value hvalue hpublic
    obtain ⟨item, -, hb⟩ := exists_input hbuilds hvalue
    exact (hb.publicValue hpublic).2
  · rintro rfl value hvalue hpublic
    obtain ⟨item, hitem, hb⟩ := exists_input hbuilds hvalue
    rw [(hb.publicValue hpublic).1]
    exact (hitems item hitem).text (hb.secret ▸ hpublic)
  · intro value hvalue hpublic
    obtain ⟨item, hitem, hb⟩ := exists_input hbuilds hvalue
    rw [(hb.publicValue hpublic).1]
    exact (hitems item hitem).sized
  · intro value hvalue
    obtain ⟨item, -, hb⟩ := exists_input hbuilds hvalue
    exact hb.material

/-- The values of an accepted call, category by category. -/
theorem buildConfigurationValues_split {draws : Draws} {projectId environmentId : UUID} {revision : Nat}
    {previous : Option EnvironmentRecord} {environmentVariables commonParameters : List ConfigurationValueInput}
    {values : List ConfigurationValue}
    (h : buildConfigurationValues floatRepr encryptor draws projectId environmentId revision previous
      environmentVariables commonParameters = .ok values) :
    ∃ first second, values = first ++ second ∧
      buildFrom encryptor draws projectId environmentId revision previous .environmentVariable 0 environmentVariables =
        .ok first ∧
      buildFrom encryptor draws projectId environmentId revision previous .commonParameter 0 commonParameters =
        .ok second ∧
      CategoryOk floatRepr .environmentVariable first ∧ CategoryOk floatRepr .commonParameter second := by
  simp only [buildConfigurationValues, bind_eq_ok_iff, pure_eq_ok_iff] at h
  obtain ⟨_, hvalid, first, hfirst, _, hvalid', second, hsecond, rfl⟩ := h
  exact ⟨first, second, rfl, hfirst, hsecond, categoryOk_of_builds hvalid (buildFrom_builds hfirst),
    categoryOk_of_builds hvalid' (buildFrom_builds hsecond)⟩

/-- The values an accepted call builds are in order. -/
theorem buildConfigurationValues_ok {draws : Draws} {projectId environmentId : UUID} {revision : Nat}
    {previous : Option EnvironmentRecord} {environmentVariables commonParameters : List ConfigurationValueInput}
    {values : List ConfigurationValue} (hdraws : draws.Distinct)
    (h : buildConfigurationValues floatRepr encryptor draws projectId environmentId revision previous
      environmentVariables commonParameters = .ok values) : ValuesOk floatRepr values := by
  obtain ⟨first, second, rfl, hfirst, hsecond, hvariables, hparameters⟩ := buildConfigurationValues_split h
  refine ⟨⟨first, second, rfl, hvariables, hparameters⟩, ?_⟩
  have hnodup := buildFrom_refs (fun i j hij => (hdraws _ i _ j hij).2) hfirst
  have hnodup' := buildFrom_refs (fun i j hij => (hdraws _ i _ j hij).2) hsecond
  rw [List.filterMap_append, List.nodup_append]
  refine ⟨hnodup, hnodup', ?_⟩
  rintro ref href _ href' rfl
  obtain ⟨i, -, hi⟩ := buildFrom_drawn hfirst ref href
  obtain ⟨j, -, hj⟩ := buildFrom_drawn hsecond ref href'
  have hcategory := (hdraws _ i _ j (hi.symm.trans hj)).1
  cases hcategory

end SmartTest.Environment
