import SmartTest.Connector.Repository
import SmartTest.Environment.AssociatedData
import SmartTest.Environment.Secrets
import SmartTest.Lib.Steps

/-!
# The credential of a connector

After any calls of `ConnectorRepository`, the stored credential opens to the one that was
provided last, under a revision that no other encryption for the connector has had.
-/

open SmartTest.Lib SmartTest.Run SmartTest.Environment

namespace SmartTest.Connector

variable {encryptor : SecretEncryptor} {casefold : String → String}

/-! ## What the checks leave -/

/-- Opening undoes sealing. -/
def Sealing (aead : Aead) : Prop :=
  ∀ key nonce data aad, aead.decrypt key nonce (aead.encrypt key nonce data aad) aad = some data

theorem validateCredential_ok {authType : ConnectorAuthType} {credential : Option String}
    (h : validateCredential authType credential = .ok ()) (hauth : authType ≠ .none) :
    ∃ text, credential = some text := by
  cases credential with
  | some text => exact ⟨text, rfl⟩
  | none => simp [validateCredential, hauth] at h

/-- The record has no credential where it needs none, and otherwise one that opens to what was provided. -/
def Opens (encryptor : SecretEncryptor) (provided : Option String) (record : ConnectorRecord) : Prop :=
  record.authType = .none ∧ record.credential = none ∨
  record.authType ≠ .none ∧ ∃ encrypted text, record.credential = some encrypted ∧ provided = some text ∧
    encryptor.decryptConnector encrypted record.id record.secretRevision = .ok text

theorem encryptConnector_opens (hsealing : Sealing encryptor.aead) {random : Randomness} {text : String}
    {connectorId : UUID} {revision : Int} {encrypted : EncryptedSecret}
    (h : encryptor.encryptConnector random text connectorId revision = .ok encrypted) :
    encryptor.decryptConnector encrypted connectorId revision = .ok text :=
  decryptUnder_encryptUnder hsealing h

theorem prepareCreate_ok (hsealing : Sealing encryptor.aead) {owner : String → Option UUID} {random : Randomness}
    {newId : UUID} {fields : ConnectorFields} {credential : Option String} {enabled : Bool} {record : ConnectorRecord}
    (h : prepareCreate encryptor owner random newId fields credential enabled = .ok record) :
    owner record.name = none ∧ record.id = newId ∧ record.authType = fields.authType ∧
      record.secretRevision = (if fields.authType = .none then 0 else 1) ∧ Opens encryptor credential record := by
  simp only [prepareCreate, firstCredential, bind_eq_ok_iff, error_bind, ite_error_eq_ok_iff, pure_eq_ok_iff] at h
  obtain ⟨⟨name, encrypted⟩, ⟨validated, -, _, hcredential, hfirst⟩, hfree, rfl⟩ := h
  split at hfirst
  · next hauth =>
    obtain ⟨rfl, rfl⟩ := Prod.mk.inj (Except.ok.inj hfirst)
    exact ⟨by simpa using hfree, rfl, rfl, by simp [hauth], .inl ⟨hauth, rfl⟩⟩
  · next hauth =>
    simp only [bind_eq_ok_iff, pure_eq_ok_iff] at hfirst
    obtain ⟨first, hencrypted, heq⟩ := hfirst
    obtain ⟨rfl, rfl⟩ := Prod.mk.inj heq
    obtain ⟨text, rfl⟩ := validateCredential_ok hcredential hauth
    refine ⟨by simpa using hfree, rfl, rfl, by simp [hauth], .inr ⟨hauth, first, text, rfl, rfl, ?_⟩⟩
    exact encryptConnector_opens hsealing hencrypted

/-- What an update keeps and changes of a record. -/
structure Updated (encryptor : SecretEncryptor) (current updated : ConnectorRecord)
    (provided : Option String) (credential : Option String) (credentialProvided : Bool) : Prop where
  id : updated.id = current.id
  revision : current.secretRevision ≤ updated.secretRevision
  sealed : updated.authType ≠ .none → credentialProvided = true →
    updated.secretRevision = current.secretRevision + 1
  opens : Opens encryptor (if credentialProvided then credential else provided) updated

theorem prepareUpdate_ok (hsealing : Sealing encryptor.aead) {owner : String → Option UUID} {random : Randomness}
    {connectorId : UUID} {current updated : ConnectorRecord} {expectedVersion : Nat} {fields : ConnectorFields}
    {name : String} {credential : Option String} {credentialProvided : Bool} {enabled : Option Bool}
    {provided : Option String} (hopens : Opens encryptor provided current) (hid : current.id = connectorId)
    (h : prepareUpdate encryptor owner random connectorId current expectedVersion fields name credential
      credentialProvided enabled = .ok updated) :
    updated.name = name ∧ updated.authType = fields.authType ∧
      (∀ other, owner name = some other → other = connectorId) ∧
      Updated encryptor current updated provided credential credentialProvided := by
  simp only [prepareUpdate, bind_eq_ok_iff, error_bind, ite_error_eq_ok_iff, pure_eq_ok_iff] at h
  obtain ⟨_, -, howner, ⟨encrypted, revision⟩, hnext, rfl⟩ := h
  have howns : ∀ other, owner name = some other → other = connectorId := by
    intro other hother
    by_contra hne
    exact howner (by simp [hother, hne])
  refine ⟨rfl, rfl, howns, ?_⟩
  simp only [nextCredential] at hnext
  split at hnext
  · next hauth =>
    obtain ⟨rfl, rfl⟩ := Prod.mk.inj (Except.ok.inj hnext)
    exact ⟨rfl, Nat.le_add_right _ _, fun hne => absurd hauth hne, .inl ⟨hauth, rfl⟩⟩
  · next hauth =>
    split at hnext
    · next hprovided =>
      simp only [bind_eq_ok_iff, pure_eq_ok_iff] at hnext
      obtain ⟨_, hcredential, first, hencrypted, heq⟩ := hnext
      obtain ⟨rfl, rfl⟩ := Prod.mk.inj heq
      obtain ⟨text, rfl⟩ := validateCredential_ok hcredential hauth
      refine ⟨rfl, Nat.le_succ _, fun _ _ => rfl, .inr ⟨hauth, first, text, rfl, by simp [hprovided], ?_⟩⟩
      rw [hid]
      exact encryptConnector_opens hsealing hencrypted
    · next hprovided =>
      split at hnext
      · cases hnext
      · next hsome =>
        obtain ⟨rfl, rfl⟩ := Prod.mk.inj (Except.ok.inj hnext)
        refine ⟨rfl, le_rfl, fun _ hp => absurd hp hprovided, .inr ⟨hauth, ?_⟩⟩
        rcases hopens with ⟨-, hnone⟩ | ⟨-, stored, text, hstored, htext, hdecrypt⟩
        · simp [hnone] at hsome
        · exact ⟨stored, text, hstored, by simpa [hprovided] using htext, hdecrypt⟩

/-! ## What a call does -/

/-- The key of the index. -/
def foldedName (casefold : String → String) (record : ConnectorRecord) : String := casefold record.name

/-- The records under their own ids, with the index of their names. -/
structure Named (casefold : String → String) (repo : ConnectorRepository) : Prop where
  indexed : Indexed (foldedName casefold) repo.records repo.names
  ids : ∀ id record, repo.records.get? id = some record → record.id = id

/-- Everything a call does that returns. -/
inductive Called (encryptor : SecretEncryptor) (casefold : String → String) (repo repo' : ConnectorRepository) :
    ConnectorCall → Prop
  | created {random : Randomness} {newId : UUID} {fields : ConnectorFields} {credential : Option String}
      {enabled : Bool} (record : ConnectorRecord)
      (hprepared : prepareCreate encryptor (repo.nameOwner casefold) random newId fields credential enabled = .ok record)
      (hrepo : repo' = ⟨repo.records.set newId record, repo.names.set (casefold record.name) newId⟩) :
      Called encryptor casefold repo repo' (.create random newId fields credential enabled)
  | updated {random : Randomness} {connectorId : UUID} {expectedVersion : Nat} {fields : ConnectorFields}
      {credential : Option String} {credentialProvided : Bool} {enabled : Option Bool} (name : String)
      (current updated : ConnectorRecord) (hcurrent : repo.records.get? connectorId = some current)
      (hprepared : prepareUpdate encryptor (repo.nameOwner casefold) random connectorId current expectedVersion fields
        name credential credentialProvided enabled = .ok updated)
      (hrecords : repo'.records = repo.records.set connectorId updated)
      (hnames : repo'.names = if casefold updated.name = casefold current.name then repo.names
        else (repo.names.erase (casefold current.name)).set (casefold updated.name) connectorId) :
      Called encryptor casefold repo repo'
        (.update random connectorId expectedVersion fields credential credentialProvided enabled)
  | touched {call : ConnectorCall} (connectorId : UUID) (current updated : ConnectorRecord)
      (hcall : (∃ enabled expectedVersion, call = .setEnabled connectorId enabled expectedVersion) ∨
        ∃ expectedVersion success tools error, call = .recordTest connectorId expectedVersion success tools error)
      (hcurrent : repo.records.get? connectorId = some current)
      (hsame : updated.toConnectorFields = current.toConnectorFields ∧ updated.id = current.id ∧
        updated.secretRevision = current.secretRevision ∧ updated.credential = current.credential)
      (hrepo : repo' = { repo with records := repo.records.set connectorId updated }) :
      Called encryptor casefold repo repo' call
  | deleted {connectorId : UUID} (current : ConnectorRecord) (hcurrent : repo.records.get? connectorId = some current)
      (hrepo : repo' = ⟨repo.records.erase connectorId, repo.names.erase (casefold current.name)⟩) :
      Called encryptor casefold repo repo' (.delete connectorId)

theorem getConnector_eq_ok {repo : ConnectorRepository} {id : UUID} {record : ConnectorRecord} :
    repo.getConnector id = .ok record ↔ repo.records.get? id = some record := by
  unfold ConnectorRepository.getConnector
  cases repo.records.get? id <;> simp

/-- The writes of an update go through: the name it takes back is there. -/
theorem Named.writeUpdate_eq {repo : ConnectorRepository} (h : Named casefold repo) {connectorId : UUID}
    {current updated : ConnectorRecord} (hcurrent : repo.records.get? connectorId = some current) :
    repo.writeUpdate casefold connectorId current updated = (.ok updated, {
      records := repo.records.set connectorId updated
      names := if casefold updated.name = casefold current.name then repo.names
        else (repo.names.erase (casefold current.name)).set (casefold updated.name) connectorId }) := by
  have hname : repo.names.get? (casefold current.name) = some connectorId := h.indexed.get hcurrent
  unfold ConnectorRepository.writeUpdate
  split
  · rfl
  · simp [hname]

theorem change_cases {repo : ConnectorRepository} {connectorId : UUID}
    {f : ConnectorRecord → Except Exn ConnectorRecord} {call : ConnectorCall}
    (hcall : (∃ enabled expectedVersion, call = .setEnabled connectorId enabled expectedVersion) ∨
      ∃ expectedVersion success tools error, call = .recordTest connectorId expectedVersion success tools error)
    (hf : ∀ current updated, f current = .ok updated → updated.toConnectorFields = current.toConnectorFields ∧
      updated.id = current.id ∧ updated.secretRevision = current.secretRevision ∧
      updated.credential = current.credential) :
    (∃ record, (repo.change connectorId f).1 = .ok record ∧
      Called encryptor casefold repo (repo.change connectorId f).2 call) ∨
    ∃ e, repo.change connectorId f = (.error e, repo) := by
  unfold ConnectorRepository.change
  split
  · next e _ => exact .inr ⟨e, rfl⟩
  · next updated hupdated =>
    obtain ⟨current, hcurrent, hchanged⟩ := (bind_eq_ok_iff _ _ _).mp hupdated
    exact .inl ⟨updated, rfl, .touched connectorId current updated hcall (getConnector_eq_ok.mp hcurrent)
      (hf current updated hchanged) rfl⟩

/-- A call returns and does one of these, or raises and does nothing. -/
theorem Named.on_cases {repo : ConnectorRepository} (h : Named casefold repo) (encryptor : SecretEncryptor) (call : ConnectorCall) :
    (∃ record, (repo.on encryptor casefold call).1 = .ok record ∧
      Called encryptor casefold repo (repo.on encryptor casefold call).2 call) ∨
    ∃ e, repo.on encryptor casefold call = (.error e, repo) := by
  cases call with
  | create random newId fields credential enabled =>
    simp only [ConnectorRepository.on, ConnectorRepository.createConnector]
    split
    · next e _ => exact .inr ⟨e, rfl⟩
    · next record hprepared => exact .inl ⟨record, rfl, .created record hprepared rfl⟩
  | update random connectorId expectedVersion fields credential credentialProvided enabled =>
    simp only [ConnectorRepository.on, ConnectorRepository.updateConnector]
    split
    · next e _ => exact .inr ⟨e, rfl⟩
    · next current updated hprepared =>
      simp only [bind_eq_ok_iff, pure_eq_ok_iff] at hprepared
      obtain ⟨name, -, found, hfound, record, hrecord, heq⟩ := hprepared
      obtain ⟨rfl, rfl⟩ := Prod.mk.inj heq
      have hcurrent := getConnector_eq_ok.mp hfound
      rw [h.writeUpdate_eq hcurrent]
      exact .inl ⟨record, rfl, .updated name found record hcurrent hrecord rfl rfl⟩
  | setEnabled connectorId enabled expectedVersion =>
    apply change_cases (.inl ⟨enabled, expectedVersion, rfl⟩)
    intro current updated hupdated
    simp only [Connector.setEnabled, bind_eq_ok_iff, pure_eq_ok_iff] at hupdated
    obtain ⟨_, -, rfl⟩ := hupdated
    exact ⟨rfl, rfl, rfl, rfl⟩
  | recordTest connectorId expectedVersion success tools error =>
    apply change_cases (.inr ⟨expectedVersion, success, tools, error, rfl⟩)
    intro current updated hupdated
    simp only [Connector.recordTest, bind_eq_ok_iff, pure_eq_ok_iff] at hupdated
    obtain ⟨_, -, rfl⟩ := hupdated
    exact ⟨rfl, rfl, rfl, rfl⟩
  | delete connectorId =>
    simp only [ConnectorRepository.on, ConnectorRepository.deleteConnector]
    split
    · next e _ => exact .inr ⟨e, rfl⟩
    · next current hget =>
      have hcurrent := getConnector_eq_ok.mp hget
      have hname : repo.names.get? (casefold current.name) = some connectorId := h.indexed.get hcurrent
      simp only [hname, Option.isNone_some, Bool.false_eq_true, if_false]
      exact .inl ⟨current, rfl, .deleted current hcurrent rfl⟩

/-- One record is new or changed, under the id it has. -/
theorem Named.set {repo repo' : ConnectorRepository} (h : Named casefold repo) {id : UUID} {record : ConnectorRecord}
    (hid : record.id = id) (hrecords : repo'.records = repo.records.set id record)
    (hindexed : Indexed (foldedName casefold) (repo.records.set id record) repo'.names) : Named casefold repo' := by
  refine ⟨by rw [hrecords]; exact hindexed, ?_⟩
  intro other found hfound
  rw [hrecords, Dict.get?_set] at hfound
  split at hfound
  · next heq =>
    obtain rfl := Option.some.inj hfound
    exact hid.trans heq.symm
  · exact h.ids other found hfound

/-- The index after an update. -/
theorem Named.renamed {repo : ConnectorRepository} (h : Named casefold repo) {id : UUID}
    {current updated : ConnectorRecord} (hcurrent : repo.records.get? id = some current)
    (howner : ∀ other, repo.nameOwner casefold updated.name = some other → other = id) :
    Indexed (foldedName casefold) (repo.records.set id updated)
      (if casefold updated.name = casefold current.name then repo.names
        else (repo.names.erase (casefold current.name)).set (casefold updated.name) id) := by
  split
  · next hsame => exact h.indexed.keep hcurrent hsame
  · exact h.indexed.replace hcurrent howner

/-! ## Histories -/

/-- What a call encrypts: for which connector, and under which revision. `create_connector` encrypts before it looks
for the name; in `update_connector` nothing raises after the encryption. -/
def sealedBy (encryptor : SecretEncryptor) (casefold : String → String) (repo : ConnectorRepository) :
    ConnectorCall → Option (UUID × Nat)
  | .create random newId fields credential _ =>
    match firstCredential encryptor random newId fields credential with
    | .ok (_, some _) => some (newId, 1)
    | _ => none
  | .update random connectorId expectedVersion fields credential credentialProvided enabled =>
    match repo.records.get? connectorId, (repo.updateConnector encryptor casefold random connectorId expectedVersion
        fields credential credentialProvided enabled).1 with
    | some current, .ok _ =>
      if fields.authType ≠ .none ∧ credentialProvided = true then some (connectorId, current.secretRevision + 1) else none
    | _, _ => none
  | _ => none

/-- The repository with the ids that were drawn, the credentials that were provided last, and the encryptions. -/
structure ConnectorHistory where
  repo : ConnectorRepository
  drawn : List UUID
  provided : UUID → Option String
  seals : List (UUID × Nat)

namespace ConnectorHistory

def start : ConnectorHistory := ⟨.empty, [], fun _ => none, []⟩

/-- The id a call draws from `uuid4`. -/
def draws : ConnectorCall → Option UUID
  | .create _ newId _ _ _ => some newId
  | _ => none

/-- What has been provided after a call that returned. -/
def providedBy (provided : UUID → Option String) : ConnectorCall → UUID → Option String
  | .create _ newId _ credential _ => Function.update provided newId credential
  | .update _ connectorId _ _ credential true _ => Function.update provided connectorId credential
  | _ => provided

variable (encryptor casefold)

/-- One call; an id is not drawn twice. -/
def step (x : ConnectorHistory) (call : ConnectorCall) : Option ConnectorHistory :=
  if (draws call).any (· ∈ x.drawn) then none
  else
    let answer := x.repo.on encryptor casefold call
    some {
      repo := answer.2
      drawn := x.drawn ++ (draws call).toList
      provided := if answer.1.toOption.isSome then providedBy x.provided call else x.provided
      seals := x.seals ++ (sealedBy encryptor casefold x.repo call).toList }

variable {encryptor casefold}

/-- What holds after any calls. -/
structure Sound (encryptor : SecretEncryptor) (casefold : String → String) (x : ConnectorHistory) : Prop where
  named : Named casefold x.repo
  known : ∀ id record, x.repo.records.get? id = some record → id ∈ x.drawn
  opens : ∀ id record, x.repo.records.get? id = some record → Opens encryptor (x.provided id) record
  sealsDrawn : ∀ s ∈ x.seals, s.1 ∈ x.drawn
  sealsBelow : ∀ s ∈ x.seals, ∀ record, x.repo.records.get? s.1 = some record → s.2 ≤ record.secretRevision
  once : x.seals.Nodup

/-- Of the connectors drawn so far, those that are still there were there, at no higher revision. -/
def Later (x y : ConnectorHistory) : Prop :=
  ∀ id ∈ x.drawn, id ∈ y.drawn ∧ ∀ record', y.repo.records.get? id = some record' →
    ∃ record, x.repo.records.get? id = some record ∧ record.secretRevision ≤ record'.secretRevision

theorem Later.refl (x : ConnectorHistory) : Later x x := fun _ hid => ⟨hid, fun record' h => ⟨record', h, le_rfl⟩⟩

theorem Later.trans {x y z : ConnectorHistory} (h : Later x y) (h' : Later y z) : Later x z := by
  intro id hid
  obtain ⟨hy, hbefore⟩ := h id hid
  obtain ⟨hz, hafter⟩ := h' id hy
  refine ⟨hz, ?_⟩
  intro record'' hrecord''
  obtain ⟨record', hrecord', hle'⟩ := hafter record'' hrecord''
  obtain ⟨record, hrecord, hle⟩ := hbefore record' hrecord'
  exact ⟨record, hrecord, hle.trans hle'⟩

theorem Sound.start (encryptor : SecretEncryptor) (casefold : String → String) : Sound encryptor casefold start := by
  refine ⟨⟨.empty _, ?_⟩, ?_, ?_, ?_, ?_, List.nodup_nil⟩
  all_goals simp [ConnectorHistory.start, ConnectorRepository.empty]

section Steps

variable {x : ConnectorHistory} (h : Sound encryptor casefold x)

include h

theorem Sound.create (hsealing : Sealing encryptor.aead) {random : Randomness} {newId : UUID}
    {fields : ConnectorFields} {credential : Option String} {enabled : Bool} (hfresh : newId ∉ x.drawn)
    {record : ConnectorRecord}
    (hprepared : prepareCreate encryptor (x.repo.nameOwner casefold) random newId fields credential enabled =
      .ok record) {seals : List (UUID × Nat)} (hseals : ∀ s ∈ seals, s = (newId, 1)) (honce : seals.Nodup)
    (hsealed : seals ≠ [] → fields.authType ≠ .none) :
    Sound encryptor casefold ⟨⟨x.repo.records.set newId record, x.repo.names.set (casefold record.name) newId⟩,
      x.drawn ++ [newId], Function.update x.provided newId credential, x.seals ++ seals⟩ := by
  obtain ⟨hfree, hid, -, hrevision, hopens⟩ := prepareCreate_ok hsealing hprepared
  have hnew : x.repo.records.get? newId = none := by
    by_contra hsome
    obtain ⟨found, hfound⟩ := Option.ne_none_iff_exists'.mp hsome
    exact hfresh (h.known newId found hfound)
  refine ⟨?_, ?_, ?_, ?_, ?_, ?_⟩
  · exact h.named.set hid rfl (h.named.indexed.insert hnew hfree)
  · intro id found hfound
    rw [Dict.get?_set] at hfound
    split at hfound
    · next heq => simp [heq]
    · exact List.mem_append_left _ (h.known id found hfound)
  · intro id found hfound
    rw [Dict.get?_set] at hfound
    split at hfound
    · next heq =>
      obtain rfl := Option.some.inj hfound
      dsimp only
      rw [heq, Function.update_self]
      exact hopens
    · next hne =>
      dsimp only
      rw [Function.update_of_ne hne]
      exact h.opens id found hfound
  · intro s hs
    rcases List.mem_append.mp hs with hold | hadded
    · exact List.mem_append_left _ (h.sealsDrawn s hold)
    · simp [hseals s hadded]
  · intro s hs found hfound
    rw [Dict.get?_set] at hfound
    rcases List.mem_append.mp hs with hold | hadded
    · rw [if_neg] at hfound
      · exact h.sealsBelow s hold found hfound
      · intro heq
        exact hfresh (heq ▸ h.sealsDrawn s hold)
    · obtain rfl := hseals s hadded
      obtain rfl := Option.some.inj ((if_pos rfl).symm.trans hfound)
      rw [hrevision, if_neg (hsealed (List.ne_nil_of_mem hadded))]
  · refine List.nodup_append.mpr ⟨h.once, honce, ?_⟩
    rintro s hold t hadded rfl
    rw [hseals s hadded] at hold
    exact hfresh (h.sealsDrawn _ hold)

theorem Sound.update (hsealing : Sealing encryptor.aead) {random : Randomness} {connectorId : UUID}
    {expectedVersion : Nat} {fields : ConnectorFields} {name : String} {credential : Option String}
    {credentialProvided : Bool} {enabled : Option Bool} {current updated : ConnectorRecord}
    (hcurrent : x.repo.records.get? connectorId = some current)
    (hprepared : prepareUpdate encryptor (x.repo.nameOwner casefold) random connectorId current expectedVersion fields
      name credential credentialProvided enabled = .ok updated) {repo : ConnectorRepository}
    (hrecords : repo.records = x.repo.records.set connectorId updated)
    (hnames : repo.names = if casefold updated.name = casefold current.name then x.repo.names
      else (x.repo.names.erase (casefold current.name)).set (casefold updated.name) connectorId) :
    Sound encryptor casefold ⟨repo, x.drawn,
      if credentialProvided then Function.update x.provided connectorId credential else x.provided,
      x.seals ++ if fields.authType ≠ .none ∧ credentialProvided = true then
        [(connectorId, current.secretRevision + 1)] else []⟩ ∧
    current.secretRevision ≤ updated.secretRevision := by
  obtain ⟨rfl, hauth, howner, hupdated⟩ :=
    prepareUpdate_ok hsealing (h.opens connectorId current hcurrent) (h.named.ids connectorId current hcurrent) hprepared
  have hknown := h.known connectorId current hcurrent
  have hadded : ∀ s, s ∈ (if fields.authType ≠ .none ∧ credentialProvided = true then
      [(connectorId, current.secretRevision + 1)] else []) →
      s = (connectorId, current.secretRevision + 1) ∧ updated.secretRevision = current.secretRevision + 1 := by
    intro s hs
    split at hs
    · next hsealed =>
      exact ⟨List.mem_singleton.mp hs, hupdated.sealed (hauth ▸ hsealed.1) hsealed.2⟩
    · cases hs
  refine ⟨⟨?_, ?_, ?_, ?_, ?_, ?_⟩, hupdated.revision⟩
  · apply h.named.set (hupdated.id.trans (h.named.ids connectorId current hcurrent)) hrecords
    rw [hnames]
    exact h.named.renamed hcurrent howner
  · intro id found hfound
    dsimp only at hfound
    rw [hrecords, Dict.get?_set] at hfound
    split at hfound
    · next heq => rw [heq]; exact hknown
    · exact h.known id found hfound
  · intro id found hfound
    dsimp only at hfound
    rw [hrecords, Dict.get?_set] at hfound
    have hopens := hupdated.opens
    split at hfound
    · next heq =>
      obtain rfl := Option.some.inj hfound
      cases credentialProvided with
      | true => simpa [heq] using hopens
      | false => simpa [heq] using hopens
    · next hne =>
      cases credentialProvided with
      | true => simpa [Function.update_of_ne hne] using h.opens id found hfound
      | false => simpa using h.opens id found hfound
  · intro s hs
    rcases List.mem_append.mp hs with hold | hnew
    · exact h.sealsDrawn s hold
    · rw [(hadded s hnew).1]
      exact hknown
  · intro s hs found hfound
    dsimp only at hfound
    rw [hrecords, Dict.get?_set] at hfound
    rcases List.mem_append.mp hs with hold | hnew
    · split at hfound
      · next heq =>
        obtain rfl := Option.some.inj hfound
        exact (h.sealsBelow s hold current (by rw [heq]; exact hcurrent)).trans hupdated.revision
      · exact h.sealsBelow s hold found hfound
    · obtain ⟨rfl, hrevision⟩ := hadded s hnew
      obtain rfl := Option.some.inj ((if_pos rfl).symm.trans hfound)
      exact hrevision.ge
  · refine List.nodup_append.mpr ⟨h.once, ?_, ?_⟩
    · split <;> simp
    · rintro s hold t hnew rfl
      rw [(hadded s hnew).1] at hold
      have hle := h.sealsBelow _ hold current hcurrent
      dsimp only at hle
      omega

theorem Sound.touch {connectorId : UUID} {current updated : ConnectorRecord}
    (hcurrent : x.repo.records.get? connectorId = some current)
    (hsame : updated.toConnectorFields = current.toConnectorFields ∧ updated.id = current.id ∧
      updated.secretRevision = current.secretRevision ∧ updated.credential = current.credential) :
    Sound encryptor casefold { x with repo := { x.repo with records := x.repo.records.set connectorId updated } } := by
  obtain ⟨hfields, hid, hrevision, hcredential⟩ := hsame
  have hopens : ∀ provided, Opens encryptor provided current → Opens encryptor provided updated := by
    intro provided
    unfold Opens
    rw [hid, hrevision, hcredential, hfields]
    exact fun hopens => hopens
  refine ⟨?_, ?_, ?_, h.sealsDrawn, ?_, h.once⟩
  · apply h.named.set (hid.trans (h.named.ids connectorId current hcurrent)) rfl
    exact h.named.indexed.keep hcurrent (by unfold foldedName; rw [hfields])
  · intro id found hfound
    rw [Dict.get?_set] at hfound
    split at hfound
    · next heq => rw [heq]; exact h.known connectorId current hcurrent
    · exact h.known id found hfound
  · intro id found hfound
    rw [Dict.get?_set] at hfound
    split at hfound
    · next heq =>
      obtain rfl := Option.some.inj hfound
      rw [heq]
      exact hopens _ (h.opens connectorId current hcurrent)
    · exact h.opens id found hfound
  · intro s hs found hfound
    rw [Dict.get?_set] at hfound
    split at hfound
    · next heq =>
      obtain rfl := Option.some.inj hfound
      rw [hrevision]
      exact h.sealsBelow s hs current (by rw [heq]; exact hcurrent)
    · exact h.sealsBelow s hs found hfound

theorem Sound.delete {connectorId : UUID} {current : ConnectorRecord}
    (hcurrent : x.repo.records.get? connectorId = some current) :
    Sound encryptor casefold { x with
      repo := ⟨x.repo.records.erase connectorId, x.repo.names.erase (casefold current.name)⟩ } := by
  have hbefore : ∀ id found, (x.repo.records.erase connectorId).get? id = some found →
      x.repo.records.get? id = some found := by
    intro id found hfound
    rw [Dict.get?_erase] at hfound
    split at hfound
    · cases hfound
    · exact hfound
  refine ⟨⟨h.named.indexed.remove hcurrent, ?_⟩, ?_, ?_, h.sealsDrawn, ?_, h.once⟩
  · exact fun id found hfound => h.named.ids id found (hbefore id found hfound)
  · exact fun id found hfound => h.known id found (hbefore id found hfound)
  · exact fun id found hfound => h.opens id found (hbefore id found hfound)
  · exact fun s hs found hfound => h.sealsBelow s hs found (hbefore s.1 found hfound)

end Steps

/-- The encryptions of a create. -/
theorem sealedBy_create (encryptor : SecretEncryptor) (casefold : String → String) (repo : ConnectorRepository)
    (random : Randomness) (newId : UUID) (fields : ConnectorFields) (credential : Option String) (enabled : Bool) :
    let seals := (sealedBy encryptor casefold repo (.create random newId fields credential enabled)).toList
    (∀ s ∈ seals, s = (newId, 1)) ∧ seals.Nodup ∧ (seals ≠ [] → fields.authType ≠ .none) := by
  simp only [sealedBy]
  split
  · next name encrypted hfirst =>
    refine ⟨by simp, by simp, ?_⟩
    intro _ hauth
    simp only [firstCredential, bind_eq_ok_iff, hauth, if_true, pure_eq_ok_iff] at hfirst
    obtain ⟨_, -, _, -, heq⟩ := hfirst
    cases (Prod.mk.inj heq).2
  · simp

/-- A call that raises has encrypted at most a first credential, for an id that is new. -/
theorem Sound.raised {x : ConnectorHistory} (h : Sound encryptor casefold x) {call : ConnectorCall} {e : Exn}
    (hraised : x.repo.on encryptor casefold call = (.error e, x.repo)) (hfresh : ∀ id, draws call = some id → id ∉ x.drawn) :
    Sound encryptor casefold { x with
      drawn := x.drawn ++ (draws call).toList
      seals := x.seals ++ (sealedBy encryptor casefold x.repo call).toList } := by
  have hseals : (∀ s ∈ (sealedBy encryptor casefold x.repo call).toList, draws call = some s.1) ∧
      (sealedBy encryptor casefold x.repo call).toList.Nodup := by
    cases call with
    | create random newId fields credential enabled =>
      obtain ⟨hnew, hnodup, -⟩ := sealedBy_create encryptor casefold x.repo random newId fields credential enabled
      exact ⟨fun s hs => by rw [hnew s hs]; rfl, hnodup⟩
    | update random connectorId expectedVersion fields credential credentialProvided enabled =>
      have hanswer : (x.repo.updateConnector encryptor casefold random connectorId expectedVersion fields credential
          credentialProvided enabled).1 = .error e := congrArg Prod.fst hraised
      simp [sealedBy, hanswer]
    | _ => simp [sealedBy]
  refine ⟨h.named, ?_, h.opens, ?_, ?_, ?_⟩
  · exact fun id record hrecord => List.mem_append_left _ (h.known id record hrecord)
  · intro s hs
    rcases List.mem_append.mp hs with hold | hadded
    · exact List.mem_append_left _ (h.sealsDrawn s hold)
    · simp [hseals.1 s hadded]
  · intro s hs record hrecord
    rcases List.mem_append.mp hs with hold | hadded
    · exact h.sealsBelow s hold record hrecord
    · exact absurd (h.known s.1 record hrecord) (hfresh s.1 (hseals.1 s hadded))
  · refine List.nodup_append.mpr ⟨h.once, hseals.2, ?_⟩
    rintro s hold t hadded rfl
    exact hfresh s.1 (hseals.1 s hadded) (h.sealsDrawn s hold)

theorem Sound.step (hsealing : Sealing encryptor.aead) {x y : ConnectorHistory} (h : Sound encryptor casefold x)
    {call : ConnectorCall} (hstep : step encryptor casefold x call = some y) :
    Sound encryptor casefold y ∧ Later x y := by
  unfold ConnectorHistory.step at hstep
  split at hstep
  · cases hstep
  · next hundrawn =>
    have hfresh : ∀ id, draws call = some id → id ∉ x.drawn := by
      intro id hid hmem
      exact hundrawn (by simp [hid, hmem])
    obtain rfl := Option.some.inj hstep
    rcases h.named.on_cases encryptor call with ⟨record, hok, hcalled⟩ | ⟨e, hraised⟩
    · rw [hok]
      generalize hafter : (x.repo.on encryptor casefold call).2 = repo' at hcalled
      simp only [Except.toOption, Option.isSome_some, if_true]
      cases hcalled with
      | @created random newId fields credential enabled record hprepared hrepo =>
        subst hrepo
        obtain ⟨hnew, hnodup, hauth⟩ := sealedBy_create encryptor casefold x.repo random newId fields credential enabled
        refine ⟨h.create hsealing (hfresh newId rfl) hprepared hnew hnodup hauth, ?_⟩
        intro id hid
        refine ⟨List.mem_append_left _ hid, ?_⟩
        intro record' hrecord'
        rw [Dict.get?_set, if_neg] at hrecord'
        · exact ⟨record', hrecord', le_rfl⟩
        · rintro rfl
          exact hfresh id rfl hid
      | @updated random connectorId expectedVersion fields credential credentialProvided enabled name current updated
          hcurrent hprepared hrecords hnames =>
        have hanswer : (x.repo.updateConnector encryptor casefold random connectorId expectedVersion fields credential
            credentialProvided enabled).1 = .ok record := hok
        obtain ⟨hsound, hle⟩ := h.update hsealing hcurrent hprepared hrecords hnames
        refine ⟨?_, ?_⟩
        · have hprovided : providedBy x.provided (.update random connectorId expectedVersion fields credential
              credentialProvided enabled) =
              if credentialProvided then Function.update x.provided connectorId credential else x.provided := by
            cases credentialProvided <;> rfl
          have hsealedBy : (sealedBy encryptor casefold x.repo (.update random connectorId expectedVersion fields
              credential credentialProvided enabled)).toList =
              if fields.authType ≠ .none ∧ credentialProvided = true then
                [(connectorId, current.secretRevision + 1)] else [] := by
            simp only [sealedBy, hcurrent, hanswer]
            split <;> rfl
          rw [hprovided, hsealedBy]
          simpa [draws] using hsound
        · intro id hid
          refine ⟨List.mem_append_left _ hid, ?_⟩
          intro record' hrecord'
          dsimp only at hrecord'
          rw [hrecords, Dict.get?_set] at hrecord'
          split at hrecord'
          · next heq =>
            obtain rfl := Option.some.inj hrecord'
            exact ⟨current, by rw [heq]; exact hcurrent, hle⟩
          · exact ⟨record', hrecord', le_rfl⟩
      | touched connectorId current updated hcall hcurrent hsame hrepo =>
        subst hrepo
        have hnothing : draws call = none ∧ sealedBy encryptor casefold x.repo call = none ∧
            providedBy x.provided call = x.provided := by
          rcases hcall with ⟨_, _, rfl⟩ | ⟨_, _, _, _, rfl⟩ <;> exact ⟨rfl, rfl, rfl⟩
        obtain ⟨hdraws, hsealedBy, hprovided⟩ := hnothing
        rw [hdraws, hsealedBy, hprovided]
        refine ⟨by simpa using h.touch hcurrent hsame, ?_⟩
        intro id hid
        refine ⟨List.mem_append_left _ hid, ?_⟩
        intro record' hrecord'
        rw [Dict.get?_set] at hrecord'
        split at hrecord'
        · next heq =>
          obtain rfl := Option.some.inj hrecord'
          exact ⟨current, by rw [heq]; exact hcurrent, hsame.2.2.1.ge⟩
        · exact ⟨record', hrecord', le_rfl⟩
      | deleted current hcurrent hrepo =>
        subst hrepo
        refine ⟨by simpa [draws, sealedBy, providedBy] using h.delete hcurrent, ?_⟩
        intro id hid
        refine ⟨List.mem_append_left _ hid, ?_⟩
        intro record' hrecord'
        rw [Dict.get?_erase] at hrecord'
        split at hrecord'
        · cases hrecord'
        · exact ⟨record', hrecord', le_rfl⟩
    · rw [hraised]
      refine ⟨h.raised hraised hfresh, ?_⟩
      exact fun id hid => ⟨List.mem_append_left _ hid, fun record' hrecord' => ⟨record', hrecord', le_rfl⟩⟩

theorem Sound.run (hsealing : Sealing encryptor.aead) {x y : ConnectorHistory} (h : Sound encryptor casefold x)
    {calls : List ConnectorCall} (hrun : runSteps (ConnectorHistory.step encryptor casefold) x calls = some y) :
    Sound encryptor casefold y ∧ Later x y :=
  runSteps_keeps (I := fun z => Sound encryptor casefold z ∧ Later x z)
    (fun _ _ _ ⟨hz, hlater⟩ hstep => ⟨(hz.step hsealing hstep).1, hlater.trans (hz.step hsealing hstep).2⟩)
    ⟨h, .refl x⟩ hrun

/-- Python folds the names below to lower case. -/
def lowerAscii (name : String) : String := .ofList (name.toList.map Char.toLower)

def searchFields (authType : ConnectorAuthType) : ConnectorFields :=
  ⟨"Search", "", .http, "https://example.com", authType, "Authorization", 10⟩

def sealDraws (n : UInt8) : Randomness := ⟨⟨#[n]⟩, ⟨#[n]⟩, ⟨#[n]⟩⟩

end ConnectorHistory

end SmartTest.Connector
