import Mathlib.Data.Set.BooleanAlgebra
import Mathlib.Order.CompletePartialOrder
import SmartTest.Environment.Crypto

/-!
# Slots are told apart

The associated data names one slot and one of its two seals: it is injective in what it
names, and the four families the encryptor uses have no text in common. With an
authenticated cipher no seal opens anywhere but in its own slot and for its own purpose.
-/

open SmartTest.Lib SmartTest.Run

namespace SmartTest.Environment

/-! ## Texts of flat objects -/

def aadFields (projectId environmentId : UUID) (revision : Int) (category : ConfigurationCategory)
    (name : String) : List (String × Json) :=
  [("aad_version", .int AAD_VERSION), ("category", .str category.value),
    ("environment_id", .str environmentId.text), ("name", .str name), ("project_id", .str projectId.text),
    ("revision", .int revision)]

def connectorAadFields (connectorId : UUID) (secretRevision : Int) : List (String × Json) :=
  [("aad_version", .int AAD_VERSION), ("connector_id", .str connectorId.text),
    ("purpose", .str "connector-credential"), ("secret_revision", .int secretRevision)]

/-- The text of an object whose keys stand in order already. -/
def objectText (fields : List (String × Json)) : String :=
  String.ofList ((Json.obj fields).write flatSpelling)

theorem dumpsSorted_of_sorted {fields : List (String × Json)} (h : fields.Pairwise (·.1 ≤ ·.1)) :
    dumpsSorted fields = (objectText fields).toByteArray := by
  rw [dumpsSorted, h.insertionSort_eq, objectText]

theorem canonicalAad_eq (projectId environmentId : UUID) (revision : Int) (category : ConfigurationCategory)
    (name : String) : canonicalAad projectId environmentId revision category name =
      (objectText (aadFields projectId environmentId revision category name)).toByteArray :=
  dumpsSorted_of_sorted (by simp)

theorem canonicalConnectorAad_eq (connectorId : UUID) (secretRevision : Int) :
    canonicalConnectorAad connectorId secretRevision =
      (objectText (connectorAadFields connectorId secretRevision)).toByteArray :=
  dumpsSorted_of_sorted (by simp)

theorem dekWrap_toByteArray (s : String) : dekWrap s.toByteArray = (s ++ "|dek-wrap").toByteArray := by
  rw [dekWrap, String.toByteArray_append]

/-- A flat object without floats, each key once. -/
def Flat (fields : List (String × Json)) : Prop := (Json.obj fields).WellFormed fun _ => False

theorem aadFields_flat (projectId environmentId : UUID) (revision : Int) (category : ConfigurationCategory)
    (name : String) : Flat (aadFields projectId environmentId revision category name) := by
  simp [Flat, aadFields, Json.WellFormed, Json.WellFormedFields]

theorem connectorAadFields_flat (connectorId : UUID) (secretRevision : Int) :
    Flat (connectorAadFields connectorId secretRevision) := by
  simp [Flat, connectorAadFields, Json.WellFormed, Json.WellFormedFields]

theorem objectText_injective {fields fields' : List (String × Json)} (h : Flat fields) (h' : Flat fields')
    (heq : objectText fields = objectText fields') : fields = fields' :=
  Json.obj.inj (write_injective (asciiSpelling_faithful _ fun _ => none) h h' (String.ofList_injective heq))

theorem writeFields_getLast (spelling : Spelling) (fields : List (String × Json)) :
    (Json.writeFields spelling fields).getLast? = some '\x7d' := by
  induction fields with
  | nil => rfl
  | cons field rest ih =>
    obtain ⟨key, value⟩ := field
    simp [Json.writeFields, List.getLast?_cons, List.getLast?_append, ih]

theorem objectText_getLast (fields : List (String × Json)) :
    (objectText fields).toList.getLast? = some '\x7d' := by
  rcases fields with _ | ⟨⟨key, value⟩, rest⟩
  · rfl
  · simp [objectText, Json.write, List.getLast?_cons, List.getLast?_append, writeFields_getLast]

/-- The suffix of a wrapped key ends otherwise than any object. -/
theorem objectText_ne_wrapped (fields fields' : List (String × Json)) :
    objectText fields ≠ objectText fields' ++ "|dek-wrap" := by
  intro heq
  have hlast := objectText_getLast fields
  rw [heq] at hlast
  simp at hlast

theorem wrapped_injective {s t : String} (h : s ++ "|dek-wrap" = t ++ "|dek-wrap") : s = t := by
  have hlist := congrArg String.toList h
  rw [String.toList_append, String.toList_append] at hlist
  exact String.toList_injective (List.append_cancel_right hlist)

/-! ## Slots -/

/-- What a secret can be stored for. -/
inductive Slot where
  | environment (projectId environmentId : UUID) (revision : Int) (category : ConfigurationCategory) (name : String)
  | connector (connectorId : UUID) (secretRevision : Int)

/-- The two seals of an encryption. -/
inductive Purpose where
  | value | key

def Slot.aad : Slot → ByteArray
  | .environment projectId environmentId revision category name =>
    canonicalAad projectId environmentId revision category name
  | .connector connectorId secretRevision => canonicalConnectorAad connectorId secretRevision

/-- The associated data of a seal. -/
def Slot.data (slot : Slot) : Purpose → ByteArray
  | .value => slot.aad
  | .key => dekWrap slot.aad

def Slot.fields : Slot → List (String × Json)
  | .environment projectId environmentId revision category name =>
    aadFields projectId environmentId revision category name
  | .connector connectorId secretRevision => connectorAadFields connectorId secretRevision

theorem Slot.fields_flat (slot : Slot) : Flat slot.fields := by
  cases slot with
  | environment => exact aadFields_flat ..
  | connector => exact connectorAadFields_flat ..

theorem Slot.aad_eq (slot : Slot) : slot.aad = (objectText slot.fields).toByteArray := by
  cases slot with
  | environment => exact canonicalAad_eq ..
  | connector => exact canonicalConnectorAad_eq ..

theorem value_injective {a b : ConfigurationCategory} (h : a.value = b.value) : a = b := by
  cases a <;> cases b <;> simp_all [ConfigurationCategory.value]

theorem UUID_ext {a b : UUID} (h : a.text = b.text) : a = b := by
  cases a; cases b; simp_all

theorem Slot.fields_injective {slot slot' : Slot} (h : slot.fields = slot'.fields) : slot = slot' := by
  cases slot with
  | environment p e r c n =>
    cases slot' with
    | environment p' e' r' c' n' =>
      simp only [Slot.fields, aadFields, List.cons.injEq, Prod.mk.injEq, Json.str.injEq, Json.int.injEq,
        true_and, and_true] at h
      obtain ⟨hc, he, hn, hp, hr⟩ := h
      rw [value_injective hc, UUID_ext he, hn, UUID_ext hp, hr]
    | connector i s => simp [Slot.fields, aadFields, connectorAadFields] at h
  | connector i s =>
    cases slot' with
    | environment p e r c n => simp [Slot.fields, aadFields, connectorAadFields] at h
    | connector i' s' =>
      simp only [Slot.fields, connectorAadFields, List.cons.injEq, Prod.mk.injEq, Json.str.injEq, Json.int.injEq,
        true_and, and_true] at h
      rw [UUID_ext h.1, h.2]

/-- The associated data tells the slot and the purpose. -/
theorem Slot.data_injective {slot slot' : Slot} {purpose purpose' : Purpose}
    (h : slot.data purpose = slot'.data purpose') : slot = slot' ∧ purpose = purpose' := by
  have hfields (heq : objectText slot.fields = objectText slot'.fields) : slot = slot' :=
    Slot.fields_injective (objectText_injective slot.fields_flat slot'.fields_flat heq)
  cases purpose <;> cases purpose' <;>
    simp only [Slot.data, Slot.aad_eq, dekWrap_toByteArray, String.toByteArray_inj] at h
  · exact ⟨hfields h, rfl⟩
  · exact absurd h (objectText_ne_wrapped _ _)
  · exact absurd h.symm (objectText_ne_wrapped _ _)
  · exact ⟨hfields (wrapped_injective h), rfl⟩

/-! ## Seals open in their own slot alone -/

/-- An authenticated cipher: a seal opens under the key, nonce and associated data it was made with, and
under no others. -/
structure Aead.Authentic (aead : Aead) : Prop where
  opens : ∀ key nonce data aad, aead.decrypt key nonce (aead.encrypt key nonce data aad) aad = some data
  rejects : ∀ key nonce data aad key' nonce' aad',
    (aead.decrypt key' nonce' (aead.encrypt key nonce data aad) aad').isSome →
      key' = key ∧ nonce' = nonce ∧ aad' = aad

/-- Everything an opening checks. -/
theorem decryptUnder_ok {encryptor : SecretEncryptor} {encrypted : EncryptedSecret} {aad : ByteArray}
    {text : String} (h : encryptor.decryptUnder encrypted aad = .ok text) :
    ∃ key keyId dek, encryptor.key = some (key, keyId) ∧
      encryptor.aead.decrypt key encrypted.wrapNonce encrypted.wrappedDek (dekWrap aad) = some dek := by
  cases hkey : encryptor.key with
  | none => simp [SecretEncryptor.decryptUnder, SecretEncryptor.requireKey, hkey, error_bind] at h
  | some pair =>
    obtain ⟨key, keyId⟩ := pair
    cases hdek : encryptor.aead.decrypt key encrypted.wrapNonce encrypted.wrappedDek (dekWrap aad) with
    | some dek => exact ⟨key, keyId, dek, rfl, hdek⟩
    | none =>
      simp only [SecretEncryptor.decryptUnder, SecretEncryptor.requireKey, hkey, bind_eq_ok_iff] at h
      obtain ⟨p, hp, h⟩ := h
      cases hp
      simp only [hdek] at h
      split at h <;> simp [error_bind] at h

theorem encryptUnder_ok {encryptor : SecretEncryptor} {random : Randomness} {value : String} {aad : ByteArray}
    {encrypted : EncryptedSecret} (h : encryptor.encryptUnder random value aad = .ok encrypted) :
    ∃ key keyId, encryptor.key = some (key, keyId) ∧
      encrypted.wrappedDek = encryptor.aead.encrypt key random.wrapNonce random.dek (dekWrap aad) := by
  simp only [SecretEncryptor.encryptUnder, SecretEncryptor.requireKey, bind_eq_ok_iff, pure_eq_ok_iff] at h
  obtain ⟨⟨key, keyId⟩, hkey, rfl⟩ := h
  cases hsome : encryptor.key with
  | none => simp [hsome] at hkey
  | some pair =>
    rw [hsome] at hkey
    cases hkey
    exact ⟨key, keyId, rfl, rfl⟩

/-- An encryption for one slot is refused in every other. -/
theorem decryptUnder_other_slot {encryptor : SecretEncryptor} (hauth : encryptor.aead.Authentic)
    {random : Randomness} {value text : String} {slot slot' : Slot} {encrypted : EncryptedSecret}
    (hsealed : encryptor.encryptUnder random value slot.aad = .ok encrypted)
    (hopened : encryptor.decryptUnder encrypted slot'.aad = .ok text) : slot' = slot := by
  obtain ⟨key, keyId, -, hwrapped⟩ := encryptUnder_ok hsealed
  obtain ⟨key', keyId', dek, -, hopen⟩ := decryptUnder_ok hopened
  rw [hwrapped] at hopen
  have hdata : slot'.data .key = slot.data .key :=
    (hauth.rejects _ _ _ _ _ _ _ (Option.isSome_iff_exists.mpr ⟨dek, hopen⟩)).2.2
  exact (Slot.data_injective hdata).1

/-! ## The four families -/

def environmentData : Set ByteArray :=
  {aad | ∃ projectId environmentId revision category name,
    aad = canonicalAad projectId environmentId revision category name}

def connectorData : Set ByteArray :=
  {aad | ∃ connectorId secretRevision, aad = canonicalConnectorAad connectorId secretRevision}

theorem mem_environmentData {aad : ByteArray} (h : aad ∈ environmentData) :
    ∃ p e r c n, aad = (Slot.environment p e r c n).data .value := h

theorem mem_connectorData {aad : ByteArray} (h : aad ∈ connectorData) :
    ∃ i s, aad = (Slot.connector i s).data .value := h

theorem mem_wrapped_environmentData {aad : ByteArray} (h : aad ∈ dekWrap '' environmentData) :
    ∃ p e r c n, aad = (Slot.environment p e r c n).data .key := by
  obtain ⟨_, ⟨p, e, r, c, n, rfl⟩, rfl⟩ := h
  exact ⟨p, e, r, c, n, rfl⟩

theorem mem_wrapped_connectorData {aad : ByteArray} (h : aad ∈ dekWrap '' connectorData) :
    ∃ i s, aad = (Slot.connector i s).data .key := by
  obtain ⟨_, ⟨i, s, rfl⟩, rfl⟩ := h
  exact ⟨i, s, rfl⟩

theorem families_disjoint :
    [environmentData, dekWrap '' environmentData, connectorData, dekWrap '' connectorData].Pairwise Disjoint := by
  simp only [List.pairwise_cons, List.mem_cons, List.not_mem_nil, or_false, forall_eq_or_imp, forall_eq,
    Set.disjoint_left, false_imp_iff, implies_true, List.Pairwise.nil, and_true]
  refine ⟨⟨?_, ?_, ?_⟩, ⟨?_, ?_⟩, ?_⟩ <;> intro aad h h'
  · obtain ⟨p, e, r, c, n, rfl⟩ := mem_environmentData h
    obtain ⟨p', e', r', c', n', heq⟩ := mem_wrapped_environmentData h'
    cases (Slot.data_injective heq).2
  · obtain ⟨p, e, r, c, n, rfl⟩ := mem_environmentData h
    obtain ⟨i, s, heq⟩ := mem_connectorData h'
    cases (Slot.data_injective heq).1
  · obtain ⟨p, e, r, c, n, rfl⟩ := mem_environmentData h
    obtain ⟨i, s, heq⟩ := mem_wrapped_connectorData h'
    cases (Slot.data_injective heq).1
  · obtain ⟨p, e, r, c, n, rfl⟩ := mem_wrapped_environmentData h
    obtain ⟨i, s, heq⟩ := mem_connectorData h'
    cases (Slot.data_injective heq).1
  · obtain ⟨p, e, r, c, n, rfl⟩ := mem_wrapped_environmentData h
    obtain ⟨i, s, heq⟩ := mem_wrapped_connectorData h'
    cases (Slot.data_injective heq).1
  · obtain ⟨i, s, rfl⟩ := mem_connectorData h
    obtain ⟨i', s', heq⟩ := mem_wrapped_connectorData h'
    cases (Slot.data_injective heq).2

/-- Associated data is injective in what it names, its four families are disjoint, and so no value and no
wrapped key of one slot or purpose is accepted in another. -/
theorem associated_data_separated :
    (∀ projectId environmentId revision category name projectId' environmentId' revision' category' name',
      canonicalAad projectId environmentId revision category name =
        canonicalAad projectId' environmentId' revision' category' name' →
      projectId = projectId' ∧ environmentId = environmentId' ∧ revision = revision' ∧
        category = category' ∧ name = name') ∧
    (∀ connectorId secretRevision connectorId' secretRevision',
      canonicalConnectorAad connectorId secretRevision = canonicalConnectorAad connectorId' secretRevision' →
      connectorId = connectorId' ∧ secretRevision = secretRevision') ∧
    [environmentData, dekWrap '' environmentData, connectorData, dekWrap '' connectorData].Pairwise Disjoint ∧
    ∀ encryptor : SecretEncryptor, encryptor.aead.Authentic →
      (∀ (slot slot' : Slot) (purpose purpose' : Purpose) (key key' nonce nonce' data : ByteArray),
        (encryptor.aead.decrypt key' nonce' (encryptor.aead.encrypt key nonce data (slot.data purpose))
          (slot'.data purpose')).isSome → slot' = slot ∧ purpose' = purpose) ∧
      ∀ (slot slot' : Slot) (random : Randomness) (value text : String) (encrypted : EncryptedSecret),
        encryptor.encryptUnder random value slot.aad = .ok encrypted →
        encryptor.decryptUnder encrypted slot'.aad = .ok text → slot' = slot := by
  refine ⟨?_, ?_, families_disjoint, fun encryptor hauth => ⟨?_, ?_⟩⟩
  · intro p e r c n p' e' r' c' n' h
    have hdata : (Slot.environment p e r c n).data .value = (Slot.environment p' e' r' c' n').data .value := h
    simpa using (Slot.data_injective hdata).1
  · intro i s i' s' h
    have hdata : (Slot.connector i s).data .value = (Slot.connector i' s').data .value := h
    simpa using (Slot.data_injective hdata).1
  · intro slot slot' purpose purpose' key key' nonce nonce' data hopen
    exact Slot.data_injective (hauth.rejects _ _ _ _ _ _ _ hopen).2.2
  · intro slot slot' random value text encrypted hsealed hopened
    exact decryptUnder_other_slot hauth hsealed hopened

/-! ## A cipher that is authentic -/

/-- A text with its length in front, so that nothing can follow it unnoticed. -/
def frame (bytes : ByteArray) : List UInt8 := List.replicate bytes.size 1 ++ 0 :: bytes.data.toList

/-- The seal shows its key, nonce and associated data, and opens where all three are the same. -/
def framedAead : Aead where
  encrypt key nonce data aad := ⟨(frame key ++ (frame nonce ++ (frame aad ++ data.data.toList))).toArray⟩
  decrypt key nonce sealed aad :=
    if frame key ++ (frame nonce ++ frame aad) <+: sealed.data.toList then
      some ⟨(sealed.data.toList.drop (frame key ++ (frame nonce ++ frame aad)).length).toArray⟩
    else none

theorem replicate_one_inj {m n : Nat} {x y : List UInt8}
    (h : List.replicate m 1 ++ 0 :: x = List.replicate n 1 ++ 0 :: y) : m = n ∧ x = y := by
  induction m generalizing n with
  | zero =>
    cases n with
    | zero => simpa using h
    | succ n => simp [List.replicate_succ] at h
  | succ m ih =>
    cases n with
    | zero => simp [List.replicate_succ] at h
    | succ n =>
      simp only [List.replicate_succ, List.cons_append, List.cons.injEq, true_and] at h
      obtain ⟨rfl, rfl⟩ := ih h
      exact ⟨rfl, rfl⟩

theorem frame_inj {a b : ByteArray} {r s : List UInt8} (h : frame a ++ r = frame b ++ s) : a = b ∧ r = s := by
  simp only [frame, List.append_assoc, List.cons_append] at h
  obtain ⟨hsize, htail⟩ := replicate_one_inj h
  obtain ⟨hdata, hrest⟩ := List.append_inj htail (by simpa using hsize)
  exact ⟨ByteArray.ext (Array.toList_inj.mp hdata), hrest⟩

theorem framedAead_authentic : framedAead.Authentic where
  opens key nonce data aad := by
    have happend : frame key ++ (frame nonce ++ (frame aad ++ data.data.toList)) =
        frame key ++ (frame nonce ++ frame aad) ++ data.data.toList := by simp
    simp only [framedAead, happend, List.prefix_append, if_true, List.drop_left]
  rejects key nonce data aad key' nonce' aad' h := by
    simp only [framedAead] at h
    split at h
    · next hbegins =>
      obtain ⟨tail, htail⟩ := hbegins
      simp only [List.append_assoc] at htail
      obtain ⟨hkey, hrest⟩ := frame_inj htail
      obtain ⟨hnonce, hrest⟩ := frame_inj hrest
      exact ⟨hkey, hnonce, (frame_inj hrest).1⟩
    · simp at h

def framedEncryptor : SecretEncryptor := ⟨framedAead, some (⟨#[7]⟩, "k")⟩

/-- A token of one environment is refused under another name of it. -/
theorem other_name_refused : ∃ encrypted,
    framedEncryptor.encryptUnder ⟨⟨#[1]⟩, ⟨#[2]⟩, ⟨#[3]⟩⟩ "s3cret"
      (Slot.environment ⟨"p"⟩ ⟨"e"⟩ 1 .commonParameter "token").aad = .ok encrypted ∧
    (framedEncryptor.decryptUnder encrypted
      (Slot.environment ⟨"p"⟩ ⟨"e"⟩ 1 .commonParameter "token\x22").aad).toOption = none := by
  refine ⟨_, rfl, ?_⟩
  cases hopened : framedEncryptor.decryptUnder _ _ with
  | error e => rfl
  | ok text =>
    have hslot := (associated_data_separated.2.2.2 framedEncryptor framedAead_authentic).2 _ _ _ _ _ _ rfl hopened
    simp at hslot

end SmartTest.Environment
