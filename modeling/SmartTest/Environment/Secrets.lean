import SmartTest.Environment.AssociatedData
import SmartTest.Environment.Revisions
import SmartTest.Environment.Values

/-!
# What secrets resolve to

A ledger records, for every revision of every environment, the text each secret was
supplied with: the text a caller gave, or the one the ledger has for that name in the
revision before. The repository holds only seals, and resolving any active revision gives
back what the ledger says.
-/

open SmartTest.Lib SmartTest.Run

namespace SmartTest.Environment

/-! ## The ledger -/

/-- What an input supplies under the reference `ref`: a new text, or the one carried over. -/
def suppliedBy (previous : List ResolvedSecretValue) (category : ConfigurationCategory) (ref : UUID)
    (item : ConfigurationValueInput) : Option ResolvedSecretValue :=
  if !item.secret then none
  else match item.secretRef with
    | none =>
      match item.value with
      | .str text => some ⟨category, item.name, ref, text⟩
      | _ => none
    | some _ =>
      (previous.find? fun old => old.category = category && old.name = item.name).map
        fun old => ⟨category, item.name, ref, old.value⟩

def suppliedFrom (previous : List ResolvedSecretValue) (draws : Draws) (category : ConfigurationCategory) :
    (index : Nat) → List ConfigurationValueInput → List ResolvedSecretValue
  | _, [] => []
  | index, item :: rest =>
    (suppliedBy previous category (draws.secretRef category index) item).toList ++
      suppliedFrom previous draws category (index + 1) rest

def supplied (previous : List ResolvedSecretValue) (draws : Draws)
    (environmentVariables commonParameters : List ConfigurationValueInput) : List ResolvedSecretValue :=
  suppliedFrom previous draws .environmentVariable 0 environmentVariables ++
    suppliedFrom previous draws .commonParameter 0 commonParameters

/-- For each environment, what the secrets of its revisions were supplied with. -/
abbrev Ledger := UUID → List (List ResolvedSecretValue)

/-- The repositories that calls lead to, with their ledgers. A call that is refused leaves both alone. -/
inductive Reaches (floatRepr : Rat → List Char) (encryptor : SecretEncryptor) :
    EnvironmentRepository → Ledger → Prop
  | empty : Reaches floatRepr encryptor .empty fun _ => []
  | create {repo ledger} (h : Reaches floatRepr encryptor repo ledger) (draws : Draws)
      (projectId environmentId : UUID) (name : String)
      (environmentVariables commonParameters : List ConfigurationValueInput)
      (record : EnvironmentRecord) (repo' : EnvironmentRepository)
      (hnew : repo.environments.get? environmentId = none)
      (hcall : repo.createEnvironment floatRepr encryptor draws projectId environmentId name
        environmentVariables commonParameters = (.ok record, repo')) :
      Reaches floatRepr encryptor repo'
        (Function.update ledger environmentId [supplied [] draws environmentVariables commonParameters])
  | update {repo ledger} (h : Reaches floatRepr encryptor repo ledger) (draws : Draws)
      (environmentId : UUID) (expectedVersion : Nat) (name : String) (status : EnvironmentStatus)
      (environmentVariables commonParameters : List ConfigurationValueInput)
      (record : EnvironmentRecord) (repo' : EnvironmentRepository)
      (hcall : repo.updateEnvironment floatRepr encryptor draws environmentId expectedVersion name status
        environmentVariables commonParameters = (.ok record, repo')) :
      Reaches floatRepr encryptor repo'
        (Function.update ledger environmentId (ledger environmentId ++
          [supplied ((ledger environmentId).getLastD []) draws environmentVariables commonParameters]))

/-! ## Seals hold what was supplied -/

theorem extract_split (bytes : ByteArray) (n : Nat) (h : n ≤ bytes.size) :
    bytes.extract 0 n ++ bytes.extract n bytes.size = bytes := by
  rw [ByteArray.extract_append_extract, Nat.min_eq_left (Nat.zero_le n), Nat.max_eq_right h,
    ByteArray.extract_zero_size]

/-- Opening undoes sealing. -/
theorem decryptUnder_encryptUnder {encryptor : SecretEncryptor}
    (hopens : ∀ key nonce data aad,
      encryptor.aead.decrypt key nonce (encryptor.aead.encrypt key nonce data aad) aad = some data)
    {random : Randomness} {text : String} {aad : ByteArray} {encrypted : EncryptedSecret}
    (h : encryptor.encryptUnder random text aad = .ok encrypted) :
    encryptor.decryptUnder encrypted aad = .ok text := by
  simp only [SecretEncryptor.encryptUnder, bind_eq_ok_iff, pure_eq_ok_iff] at h
  obtain ⟨⟨key, keyId⟩, hkey, rfl⟩ := h
  have hutf8 : String.fromUTF8? text.toByteArray = some text := by
    simp [String.fromUTF8?, text.isValidUTF8, String.fromUTF8]
  have hvalue := hopens random.dek random.nonce text.toByteArray aad
  rw [← extract_split (encryptor.aead.encrypt _ _ _ _) _ (Nat.sub_le _ 16)] at hvalue
  simp only [SecretEncryptor.decryptUnder, hkey, ok_bind, ne_eq, not_true_eq_false, or_self, if_false, hopens,
    hvalue, hutf8]
  rfl

section Built

variable {floatRepr : Rat → List Char} {encryptor : SecretEncryptor}

/-- A stored secret of the record `owner` opens to what was supplied. -/
structure Holds (encryptor : SecretEncryptor) (owner : EnvironmentRecord) (value : ConfigurationValue)
    (entry : ResolvedSecretValue) : Prop where
  secret : value.secret = true
  category : value.category = entry.category
  name : value.name = entry.name
  secretRef : value.secretRef = some entry.secretRef
  opens : ∃ encrypted, value.encrypted = some encrypted ∧
    encryptor.decrypt encrypted owner.projectId owner.id owner.revision entry.category entry.name =
      .ok entry.value

/-- The secrets of a revision are those of its ledger, and no name is used twice in a category. -/
structure RevisionHolds (encryptor : SecretEncryptor) (record : EnvironmentRecord)
    (entries : List ResolvedSecretValue) : Prop where
  secrets : List.Forall₂ (Holds encryptor record) (record.values.filter (·.secret)) entries
  slots : (record.values.map ConfigurationValue.slot).Nodup

theorem exists_of_forall₂ {α β : Type} {R : α → β → Prop} {l : List α} {l' : List β}
    (h : List.Forall₂ R l l') {a : α} (ha : a ∈ l) : ∃ b ∈ l', R a b := by
  induction h with
  | nil => simp at ha
  | cons hab _ ih =>
    rcases List.mem_cons.mp ha with rfl | ha
    · exact ⟨_, List.mem_cons_self, hab⟩
    · obtain ⟨b, hb, hr⟩ := ih ha
      exact ⟨b, List.mem_cons_of_mem _ hb, hr⟩

theorem slots_eq {owner : EnvironmentRecord} {secrets : List ConfigurationValue}
    {entries : List ResolvedSecretValue} (h : List.Forall₂ (Holds encryptor owner) secrets entries) :
    entries.map (fun entry => (entry.category, entry.name)) = secrets.map ConfigurationValue.slot := by
  induction h with
  | nil => rfl
  | cons hv _ ih => simp [ih, ConfigurationValue.slot, hv.category, hv.name]

theorem RevisionHolds.entry_slots {record : EnvironmentRecord} {entries : List ResolvedSecretValue}
    (h : RevisionHolds encryptor record entries) :
    (entries.map fun entry => (entry.category, entry.name)).Nodup := by
  rw [slots_eq h.secrets]
  exact h.slots.sublist (List.filter_sublist.map _)

/-- The ledger has one text for each name. -/
theorem RevisionHolds.find?_eq {record : EnvironmentRecord} {entries : List ResolvedSecretValue}
    (h : RevisionHolds encryptor record entries) {entry : ResolvedSecretValue} (hmem : entry ∈ entries) :
    (entries.find? fun old => old.category = entry.category && old.name = entry.name) = some entry := by
  have hnodup := h.entry_slots
  clear h
  induction entries with
  | nil => simp at hmem
  | cons first rest ih =>
    simp only [List.map_cons, List.nodup_cons] at hnodup
    rcases List.mem_cons.mp hmem with rfl | hrest
    · simp
    · have hne : ¬ (first.category = entry.category ∧ first.name = entry.name) := by
        rintro ⟨hc, hn⟩
        exact hnodup.1 (List.mem_map.mpr ⟨entry, hrest, by rw [hc, hn]⟩)
      rw [List.find?_cons_of_neg (by simpa using hne)]
      exact ih hrest hnodup.2

/-- What one input builds is what it supplies. -/
theorem buildValue_holds
    (hopens : ∀ key nonce data aad,
      encryptor.aead.decrypt key nonce (encryptor.aead.encrypt key nonce data aad) aad = some data)
    {draws : Draws} {owner : EnvironmentRecord} {previous : Option EnvironmentRecord}
    {entries : List ResolvedSecretValue} (hprevious : ∀ old ∈ previous, RevisionHolds encryptor old entries)
    {category : ConfigurationCategory} {index : Nat} {item : ConfigurationValueInput} {value : ConfigurationValue}
    (h : buildValue encryptor draws owner.projectId owner.id owner.revision previous category index item =
      .ok value) :
    value.slot = (category, item.name) ∧
      List.Forall₂ (Holds encryptor owner) ([value].filter (·.secret))
        (suppliedBy entries category (draws.secretRef category index) item).toList := by
  cases hsecret : item.secret with
  | false =>
    simp only [buildValue, hsecret, Bool.not_false, if_true, Except.ok.injEq] at h
    subst h
    simp [ConfigurationValue.slot, suppliedBy, hsecret]
  | true =>
    simp only [buildValue, hsecret, Bool.not_true, Bool.false_eq_true, if_false, bind_eq_ok_iff,
      pure_eq_ok_iff] at h
    obtain ⟨text, htext, encrypted, hencrypted, rfl⟩ := h
    refine ⟨rfl, ?_⟩
    have hopened := decryptUnder_encryptUnder hopens hencrypted
    have hsupplied : suppliedBy entries category (draws.secretRef category index) item =
        some ⟨category, item.name, draws.secretRef category index, text⟩ := by
      cases href : item.secretRef with
      | none =>
        simp only [plaintextOf, href] at htext
        split at htext
        · next given hgiven =>
          cases htext
          simp [suppliedBy, hsecret, href, hgiven]
        · simp at htext
      | some ref =>
        -- the seal of the revision before opens to the text its ledger has under the same name
        simp only [plaintextOf, href] at htext
        split at htext
        · next old =>
          split at htext
          · next source hsource =>
            split at htext
            · next sealed hsealed =>
              have hmem := List.mem_of_find?_eq_some hsource
              have hprop := List.find?_some hsource
              simp only [Bool.and_eq_true, decide_eq_true_eq] at hprop
              obtain ⟨⟨⟨hcat, hname⟩, -⟩, hsec⟩ := hprop
              have hold := hprevious old rfl
              obtain ⟨entry, hentry, hholds⟩ :=
                exists_of_forall₂ hold.secrets (List.mem_filter.mpr ⟨hmem, hsec⟩)
              obtain ⟨encrypted', heq, hdecrypt⟩ := hholds.opens
              have hsame : encrypted' = sealed := by
                rw [hsealed] at heq
                exact (Option.some.inj heq).symm
              have hcat' : entry.category = category := hholds.category ▸ hcat
              have hname' : entry.name = item.name := hholds.name ▸ hname
              rw [hcat, hname, ← hcat', ← hname', ← hsame, hdecrypt] at htext
              cases htext
              have hfind := hold.find?_eq hentry
              rw [hcat', hname'] at hfind
              simp [suppliedBy, hsecret, href, hfind]
            · simp at htext
          · simp at htext
        · simp at htext
    rw [hsupplied]
    simp only [List.filter_cons, List.filter_nil, if_true, Option.toList_some]
    exact .cons ⟨rfl, rfl, rfl, rfl, encrypted, rfl, hopened⟩ .nil

theorem buildFrom_holds
    (hopens : ∀ key nonce data aad,
      encryptor.aead.decrypt key nonce (encryptor.aead.encrypt key nonce data aad) aad = some data)
    {draws : Draws} {owner : EnvironmentRecord} {previous : Option EnvironmentRecord}
    {entries : List ResolvedSecretValue} (hprevious : ∀ old ∈ previous, RevisionHolds encryptor old entries)
    {category : ConfigurationCategory} {index : Nat} {inputs : List ConfigurationValueInput}
    {values : List ConfigurationValue}
    (h : buildFrom encryptor draws owner.projectId owner.id owner.revision previous category index inputs =
      .ok values) :
    values.map ConfigurationValue.slot = inputs.map (fun item => (category, item.name)) ∧
      List.Forall₂ (Holds encryptor owner) (values.filter (·.secret))
        (suppliedFrom entries draws category index inputs) := by
  induction inputs generalizing index values with
  | nil =>
    cases h
    exact ⟨rfl, .nil⟩
  | cons item rest ih =>
    simp only [buildFrom, bind_eq_ok_iff, pure_eq_ok_iff] at h
    obtain ⟨value, hvalue, others, hothers, rfl⟩ := h
    obtain ⟨hslot, hone⟩ := buildValue_holds hopens hprevious hvalue
    obtain ⟨hslots, hmany⟩ := ih hothers
    refine ⟨by rw [List.map_cons, List.map_cons, hslot, hslots], ?_⟩
    have hsplit : (value :: others).filter (·.secret) = [value].filter (·.secret) ++ others.filter (·.secret) := by
      rw [← List.filter_append]
      rfl
    rw [hsplit, suppliedFrom]
    exact List.rel_append hone hmany

theorem buildConfigurationValues_holds
    (hopens : ∀ key nonce data aad,
      encryptor.aead.decrypt key nonce (encryptor.aead.encrypt key nonce data aad) aad = some data)
    {draws : Draws} {owner : EnvironmentRecord} {previous : Option EnvironmentRecord}
    {entries : List ResolvedSecretValue} (hprevious : ∀ old ∈ previous, RevisionHolds encryptor old entries)
    {environmentVariables commonParameters : List ConfigurationValueInput}
    (h : buildConfigurationValues floatRepr encryptor draws owner.projectId owner.id owner.revision previous
      environmentVariables commonParameters = .ok owner.values) :
    RevisionHolds encryptor owner (supplied entries draws environmentVariables commonParameters) := by
  simp only [buildConfigurationValues, bind_eq_ok_iff, pure_eq_ok_iff] at h
  obtain ⟨_, hvalid, variableValues, hvariables, _, hvalid', parameterValues, hparameters, hvalues⟩ := h
  obtain ⟨hslots, hfirst⟩ := buildFrom_holds hopens hprevious hvariables
  obtain ⟨hslots', hsecond⟩ := buildFrom_holds hopens hprevious hparameters
  refine ⟨?_, ?_⟩
  · rw [← hvalues, List.filter_append]
    exact List.rel_append hfirst hsecond
  · rw [← hvalues, List.map_append, hslots, hslots', List.nodup_append]
    have hnodup (category : ConfigurationCategory) {inputs : List ConfigurationValueInput}
        (hnames : (inputs.map (·.name)).Nodup) : (inputs.map fun item => (category, item.name)).Nodup := by
      have := hnames.map (f := fun name => (category, name)) fun a b hab => by simpa using hab
      rwa [List.map_map] at this
    refine ⟨hnodup _ (validateInputs_ok_iff.mp hvalid).2.2, hnodup _ (validateInputs_ok_iff.mp hvalid').2.2, ?_⟩
    rintro a ha b hb rfl
    obtain ⟨x, -, hx⟩ := List.mem_map.mp ha
    obtain ⟨y, -, hy⟩ := List.mem_map.mp hb
    rw [← hx] at hy
    simp at hy

/-! ## The repository keeps its ledger -/

/-- Each revision holds what the ledger has for it. -/
structure RepositoryHolds (encryptor : SecretEncryptor) (repo : EnvironmentRepository) (ledger : Ledger) : Prop
    extends RepositoryShape repo where
  held : ∀ id revisions, repo.revisions.get? id = some revisions →
    List.Forall₂ (RevisionHolds encryptor) revisions (ledger id)

theorem RepositoryHolds.create
    (hopens : ∀ key nonce data aad,
      encryptor.aead.decrypt key nonce (encryptor.aead.encrypt key nonce data aad) aad = some data)
    {repo repo' : EnvironmentRepository} {ledger : Ledger} (hrepo : RepositoryHolds encryptor repo ledger)
    {draws : Draws} {projectId environmentId : UUID} {name : String}
    {environmentVariables commonParameters : List ConfigurationValueInput} {record : EnvironmentRecord}
    (h : repo.createEnvironment floatRepr encryptor draws projectId environmentId name environmentVariables
      commonParameters = (.ok record, repo')) :
    RepositoryHolds encryptor repo'
      (Function.update ledger environmentId [supplied [] draws environmentVariables commonParameters]) := by
  refine ⟨hrepo.toRepositoryShape.create h, ?_⟩
  obtain ⟨-, -, -, -, hvalues, rfl⟩ := createEnvironment_ok h
  have hholds : RevisionHolds encryptor record (supplied [] draws environmentVariables commonParameters) :=
    buildConfigurationValues_holds hopens (by simp) hvalues
  intro id revisions hrevisions
  by_cases hcase : id = environmentId
  · subst hcase
    obtain rfl : [record] = revisions := by simpa using hrevisions
    rw [Function.update_self]
    exact .cons hholds .nil
  · rw [Function.update_of_ne hcase]
    exact hrepo.held id revisions (by simpa [hcase] using hrevisions)

theorem forall₂_getLast {α β : Type} {R : α → β → Prop} {l : List α} {l' : List β} (h : List.Forall₂ R l l')
    {a : α} (ha : l.getLast? = some a) (default : β) : R a (l'.getLastD default) := by
  induction h generalizing default with
  | nil => simp at ha
  | @cons x y xs ys hxy hrest ih =>
    cases hrest with
    | nil =>
      obtain rfl : x = a := by simpa using ha
      exact hxy
    | cons hxy' hrest' => exact ih (by simpa using ha) y

theorem RepositoryHolds.update
    (hopens : ∀ key nonce data aad,
      encryptor.aead.decrypt key nonce (encryptor.aead.encrypt key nonce data aad) aad = some data)
    {repo repo' : EnvironmentRepository} {ledger : Ledger} (hrepo : RepositoryHolds encryptor repo ledger)
    {draws : Draws} {environmentId : UUID} {expectedVersion : Nat} {name : String} {status : EnvironmentStatus}
    {environmentVariables commonParameters : List ConfigurationValueInput} {record : EnvironmentRecord}
    (h : repo.updateEnvironment floatRepr encryptor draws environmentId expectedVersion name status
      environmentVariables commonParameters = (.ok record, repo')) :
    RepositoryHolds encryptor repo' (Function.update ledger environmentId (ledger environmentId ++
      [supplied ((ledger environmentId).getLastD []) draws environmentVariables commonParameters])) := by
  obtain ⟨current, revisions, hrevisions, hlast, -, hvalues, -, hwritten, hshape⟩ :=
    hrepo.toRepositoryShape.updateEnvironment_ok h
  have hheld := hrepo.held environmentId revisions hrevisions
  have hholds : RevisionHolds encryptor record
      (supplied ((ledger environmentId).getLastD []) draws environmentVariables commonParameters) :=
    buildConfigurationValues_holds hopens
      (by rintro old hold; cases hold; exact forall₂_getLast hheld hlast []) hvalues
  refine ⟨hshape, ?_⟩
  intro id others hothers
  rw [hwritten] at hothers
  by_cases hcase : id = environmentId
  · subst hcase
    obtain rfl : revisions ++ [record] = others := by simpa using hothers
    rw [Function.update_self]
    exact List.rel_append hheld (.cons hholds .nil)
  · rw [Function.update_of_ne hcase]
    exact hrepo.held id others (by simpa [hcase] using hothers)

/-- The references of a revision's secrets. -/
def EnvironmentRecord.references (record : EnvironmentRecord) : List SecretReference :=
  (record.values.filter (·.secret)).filterMap fun value =>
    value.secretRef.map fun ref => ⟨value.category, value.name, ref⟩

theorem references_eq {owner : EnvironmentRecord} {secrets : List ConfigurationValue}
    {entries : List ResolvedSecretValue} (h : List.Forall₂ (Holds encryptor owner) secrets entries) :
    (secrets.filterMap fun value => value.secretRef.map fun ref =>
      (⟨value.category, value.name, ref⟩ : SecretReference)) = entries.map ResolvedSecretValue.reference := by
  induction h with
  | nil => rfl
  | cons hv _ ih =>
    rw [List.filterMap_cons_some (by rw [hv.secretRef, Option.map_some]), ih, hv.category, hv.name]
    rfl

theorem RevisionHolds.references_eq {record : EnvironmentRecord} {entries : List ResolvedSecretValue}
    (h : RevisionHolds encryptor record entries) :
    record.references = entries.map ResolvedSecretValue.reference :=
  Environment.references_eq h.secrets

theorem exists_of_forall₂_right {α β : Type} {R : α → β → Prop} {l : List α} {l' : List β}
    (h : List.Forall₂ R l l') {b : β} (hb : b ∈ l') : ∃ a ∈ l, R a b := by
  obtain ⟨a, ha, hr⟩ := exists_of_forall₂ h.flip hb
  exact ⟨a, ha, hr⟩

theorem Holds.answers {owner : EnvironmentRecord} {value : ConfigurationValue} {entry : ResolvedSecretValue}
    (h : Holds encryptor owner value entry) : value.answers entry.reference = true := by
  obtain ⟨encrypted, hencrypted, -⟩ := h.opens
  simp [ConfigurationValue.answers, ResolvedSecretValue.reference, h.secret, h.category, h.name, h.secretRef,
    hencrypted]

/-- A reference of a revision resolves to its entry in the ledger. -/
theorem RevisionHolds.resolveReference_eq {record : EnvironmentRecord} {entries : List ResolvedSecretValue}
    (h : RevisionHolds encryptor record entries) {entry : ResolvedSecretValue} (hentry : entry ∈ entries) :
    record.values.any (·.answers entry.reference) = true ∧
      resolveReference encryptor record entry.reference = .ok entry := by
  obtain ⟨value, hvalue, hholds⟩ := exists_of_forall₂_right h.secrets hentry
  have hmem : value ∈ record.values := (List.mem_filter.mp hvalue).1
  refine ⟨List.any_eq_true.mpr ⟨value, hmem, hholds.answers⟩, ?_⟩
  have hne : record.values.filter (·.answers entry.reference) ≠ [] :=
    List.ne_nil_of_mem (List.mem_filter.mpr ⟨hmem, hholds.answers⟩)
  obtain ⟨last, hlast⟩ := Option.isSome_iff_exists.mp (List.getLast?_isSome.mpr hne)
  obtain ⟨hlastMem, hanswers⟩ := List.mem_filter.mp (List.mem_of_getLast? hlast)
  simp only [ConfigurationValue.answers, ResolvedSecretValue.reference, Bool.and_eq_true] at hanswers
  obtain ⟨⟨⟨⟨hsecret, -⟩, hcategory⟩, hname⟩, -⟩ := hanswers
  -- whichever value the dictionary has, it stands for the one entry of that name
  obtain ⟨entry', hentry', hholds'⟩ :=
    exists_of_forall₂ h.secrets (List.mem_filter.mpr ⟨hlastMem, hsecret⟩)
  have hsame : entry' = entry := by
    have hfind := h.find?_eq hentry'
    rw [← hholds'.category, ← hholds'.name, of_decide_eq_true hcategory, of_decide_eq_true hname,
      h.find?_eq hentry] at hfind
    exact (Option.some.inj hfind).symm
  subst hsame
  obtain ⟨encrypted, hencrypted, hdecrypt⟩ := hholds'.opens
  simp only [resolveReference, hlast, hencrypted, hholds'.category, hholds'.name, hdecrypt, ok_bind]
  rfl

theorem RepositoryHolds.validatedRecord_eq {repo : EnvironmentRepository} {ledger : Ledger}
    (hrepo : RepositoryHolds encryptor repo ledger) {id : UUID} {revisions : List EnvironmentRecord} {k : Nat}
    {record : EnvironmentRecord} (hrevisions : repo.revisions.get? id = some revisions)
    (hrecord : revisions[k]? = some record) (hactive : record.status = .active)
    {references canonical : List SecretReference}
    (hcanonical : canonicalSecretReferences references = .ok canonical) :
    validatedRecord record.projectId id (k + 1) repo references = .ok (record, canonical) := by
  simp only [validatedRecord, hrepo.getRevision_eq ⟨revisions, hrevisions, hrecord⟩, ok_bind, ne_eq, not_true_eq_false,
    if_false, hactive, hcanonical]
  rfl

theorem RepositoryHolds.resolve {repo : EnvironmentRepository} {ledger : Ledger}
    (hrepo : RepositoryHolds encryptor repo ledger) {id : UUID} {revisions : List EnvironmentRecord} {k : Nat}
    {record : EnvironmentRecord} {entries : List ResolvedSecretValue}
    (hrevisions : repo.revisions.get? id = some revisions) (hrecord : revisions[k]? = some record)
    (hactive : record.status = .active) (hholds : RevisionHolds encryptor record entries)
    {references : List SecretReference} (hnodup : references.Nodup)
    (hknown : ∀ reference ∈ references, reference ∈ record.references) :
    ∃ resolved, resolveSecretValues encryptor record.projectId id (k + 1) repo references = .ok resolved ∧
      canonicalSecretReferences references = .ok (resolved.map ResolvedSecretValue.reference) ∧
      ∀ value ∈ resolved, value ∈ entries := by
  obtain ⟨canonical, hcanonical, hsubset⟩ : ∃ canonical, canonicalSecretReferences references = .ok canonical ∧
      ∀ reference ∈ canonical, reference ∈ references := by
    refine ⟨references.insertionSort fun a b => sortKey a ≤ sortKey b, ?_, fun reference hmem => ?_⟩
    · rw [canonicalSecretReferences, if_neg (not_not.mpr hnodup)]
    · exact (List.mem_insertionSort _).mp hmem
  have hentry (reference : SecretReference) (hmem : reference ∈ canonical) :
      ∃ entry ∈ entries, entry.reference = reference := by
    have hin := hknown reference (hsubset reference hmem)
    rw [hholds.references_eq] at hin
    exact List.mem_map.mp hin
  have hall : canonical.any (fun reference => !record.values.any (·.answers reference)) = false := by
    rw [List.any_eq_false]
    intro reference hmem
    obtain ⟨entry, hin, rfl⟩ := hentry reference hmem
    simp [(hholds.resolveReference_eq hin).1]
  obtain ⟨resolved, hresolved⟩ : ∃ resolved, canonical.mapM (resolveReference encryptor record) = .ok resolved := by
    refine mapM_ok_of_forall fun reference hmem => ?_
    obtain ⟨entry, hin, rfl⟩ := hentry reference hmem
    exact ⟨entry, (hholds.resolveReference_eq hin).2⟩
  have hpairs := mapM_eq_ok_iff.mp hresolved
  have hresult (reference : SecretReference) (value : ResolvedSecretValue) (hmem : reference ∈ canonical)
      (h : resolveReference encryptor record reference = .ok value) :
      value.reference = reference ∧ value ∈ entries := by
    obtain ⟨entry, hin, rfl⟩ := hentry reference hmem
    rw [(hholds.resolveReference_eq hin).2] at h
    cases h
    exact ⟨rfl, hin⟩
  refine ⟨resolved, ?_, ?_, ?_⟩
  · simp only [resolveSecretValues, hrepo.validatedRecord_eq hrevisions hrecord hactive hcanonical, ok_bind, hall,
      Bool.false_eq_true, if_false, hresolved]
  · rw [hcanonical]
    congr 1
    clear hcanonical hsubset hentry hall hresolved
    induction hpairs with
    | nil => rfl
    | cons h _ ih =>
      rw [List.map_cons, (hresult _ _ List.mem_cons_self h).1,
        ← ih fun reference value hmem => hresult reference value (List.mem_cons_of_mem _ hmem)]
  · intro value hvalue
    obtain ⟨reference, hmem, h⟩ := exists_of_forall₂_right hpairs hvalue
    exact (hresult reference value hmem h).2

/-! ## Refused calls -/

end Built

/-- `0.0`, the one float of the examples. -/
def zeroRepr : Rat → List Char := fun _ => ['0', '.', '0']

/-- Sixteen bytes that tell how long the key, the nonce and the associated data are. -/
def sizeTag (key nonce aad : ByteArray) : ByteArray :=
  ⟨#[key.size.toUInt8, nonce.size.toUInt8, aad.size.toUInt8, 0, 0, 0, 0, 0, 0, 0, 0, 0, 0, 0, 0, 0]⟩

/-- The data in the clear with its tag. -/
def sizeTagAead : Aead where
  encrypt key nonce data aad := data ++ sizeTag key nonce aad
  decrypt key nonce sealed aad :=
    if (sealed.extract (sealed.size - 16) sealed.size).data = (sizeTag key nonce aad).data then
      some (sealed.extract 0 (sealed.size - 16))
    else none

def sizeTagEncryptor : SecretEncryptor := ⟨sizeTagAead, some (⟨#[7]⟩, "k")⟩

def tokenDraws (ref : String) : Draws := ⟨fun _ _ => ⟨⟨#[1]⟩, ⟨#[2]⟩, ⟨#[3]⟩⟩, fun _ _ => ⟨ref⟩⟩

/-- An environment with one secret parameter. -/
def tokenCreated : Answered EnvironmentRecord :=
  EnvironmentRepository.empty.createEnvironment zeroRepr sizeTagEncryptor (tokenDraws "s1") ⟨"p"⟩ ⟨"e"⟩ "staging"
    [] [⟨"token", .str "hunter2", true, none⟩]

/-- Its activation, with the secret carried over. -/
def tokenActivated : Answered EnvironmentRecord :=
  tokenCreated.2.updateEnvironment zeroRepr sizeTagEncryptor (tokenDraws "s2") ⟨"e"⟩ 0 "staging" .active
    [] [⟨"token", .null, true, some ⟨"s1"⟩⟩]

theorem eq_ok_of_isOk {answered : Answered EnvironmentRecord} (h : answered.1.isOk = true) :
    ∃ record, answered = (.ok record, answered.2) := by
  obtain ⟨answer, repo⟩ := answered
  cases answer with
  | error e => simp [Except.isOk, Except.toBool] at h
  | ok record => exact ⟨record, rfl⟩

end SmartTest.Environment
