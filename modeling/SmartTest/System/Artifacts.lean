import Mathlib.Algebra.GroupWithZero.Nat
import Mathlib.Algebra.Order.BigOperators.Group.List
import SmartTest.Lib.PosixPath
import SmartTest.Runner.Agent
import SmartTest.System.HostLock

/-!
# Artifacts

`_emit_artifacts` of the agent names the files under its artifact root, and `ArtifactCollector`
of `services/artifacts.py` stores what such an event names. Both see the same tree of files.
-/

open SmartTest.Lib SmartTest.Run SmartTest.Plan SmartTest.Runner

namespace SmartTest.System

/-! ## The tree -/

/-- The name of a file or directory. -/
def FileName (part : String) : Prop := PurePosixPath.GoodPart part ∧ part ≠ ".."

/-- A regular file, by the names on the way to it. -/
structure SpoolFile where
  directories : List String
  name : String
  size : Nat
  directories_named : ∀ part ∈ directories, FileName part
  name_named : FileName name

namespace SpoolFile

def parts (f : SpoolFile) : List String := f.directories ++ [f.name]

theorem parts_named (f : SpoolFile) : ∀ part ∈ f.parts, FileName part := by
  intro part hpart
  rcases List.mem_append.mp hpart with hpart | hpart
  · exact f.directories_named part hpart
  · rw [List.mem_singleton.mp hpart]
    exact f.name_named

/-- `relative_to(root).as_posix()`. -/
def relative (f : SpoolFile) : String := .ofList (['/'].intercalate (f.parts.map String.toList))

/-- What the agent takes of the file; `guess` is `mimetypes.guess_type(name)[0]`. -/
def artifactFile (guess : String → Option String) (f : SpoolFile) : ArtifactFile := ⟨f.relative, f.name, guess f.name, f.size⟩

end SpoolFile

/-- The regular files under the root of an attempt, without links. -/
structure SpoolTree where
  files : List SpoolFile
  /-- No two files have one path, and no file is a directory of another. -/
  apart : ∀ f ∈ files, ∀ g ∈ files, f.parts <+: g.parts → f = g

inductive Entry where
  | file (name : String) (size : Nat)
  | directory

/-- `resolve(strict=True)`. -/
def SpoolTree.entry? (tree : SpoolTree) (parts : List String) : Option Entry :=
  match tree.files.find? (·.parts = parts) with
  | some f => some (.file f.name f.size)
  | none => if parts = [] ∨ tree.files.any (parts.isPrefixOf ·.parts) then some .directory else none

/-! ## The store -/

structure ArtifactRecord where
  id : UUID
  runId : UUID
  attemptId : UUID
  kind : String
  name : String
  contentType : String
  sizeBytes : Nat
  storageKey : String
  createdAt : Instant
  deriving DecidableEq

/-- `LocalArtifactStore`, with the size of what is stored under each digest. -/
structure LocalArtifactStore where
  maximumBytes : Nat
  objects : Dict String Nat

/-- The repository with its artifacts, and the store. -/
structure ArtifactWorld where
  runs : RunRepository
  artifacts : Dict UUID ArtifactRecord
  store : LocalArtifactStore

def uploadError (message : String) : Exn := ⟨.other "ArtifactUploadError", message⟩

def conflictError (message : String) : Exn := ⟨.other "ArtifactConflict", message⟩

section Code

/- `sha256` in hexadecimal, and `mimetypes.guess_type(name)[0]`. -/
variable (digest : String → String) (guess : String → Option String)

/-- The store with an object under a key. -/
def LocalArtifactStore.stored (store : LocalArtifactStore) (key : String) (size : Nat) : LocalArtifactStore :=
  { store with objects := store.objects.set (digest key) size }

/-- `put`: the file is measured before its key is looked at. -/
def LocalArtifactStore.put (store : LocalArtifactStore) (size : Nat) (key : String) :
    Except Exn (Nat × LocalArtifactStore) :=
  if size > store.maximumBytes then .error (uploadError "artifact exceeds the configured size limit")
  else
    let parsed := PurePosixPath.parse key
    if parsed.isAbsolute || decide (".." ∈ parsed.parts) || parsed.name = "" then
      .error (uploadError "artifact storage key is invalid")
    else .ok (size, store.stored digest key size)

def ArtifactWorld.createArtifact (w : ArtifactWorld) (record : ArtifactRecord) :
    Except Exn (ArtifactRecord × ArtifactWorld) := do
  let attempt ← w.runs.getAttemptLocked record.attemptId
  if attempt.runId ≠ record.runId then .error (conflictError "artifact run_id does not match its attempt")
  let _ ← w.runs.getLocked record.runId
  match w.artifacts.get? record.id with
  | some existing =>
    if existing = record then return (existing, w)
    else .error (conflictError ("artifact " ++ record.id.text ++ " has conflicting contents"))
  | none => return (record, { w with artifacts := w.artifacts.set record.id record })

/-- The file that an event names: its name and its size. -/
def sourceOf (tree : SpoolTree) (payload : Dict String Json) : Except Exn (String × Nat) :=
  match payload.get? "relative_path" with
  | some (.str value) =>
    if value.length > 512 then .error (uploadError "artifact relative_path is invalid")
    else
      let relative := PurePosixPath.parse value
      if relative.isAbsolute || decide (".." ∈ relative.parts) || relative.name = "" then
        .error (uploadError "artifact relative_path is invalid")
      else match tree.entry? relative.parts with
        | none => .error (uploadError "artifact file does not exist")
        | some .directory => .error (uploadError "artifact path escapes its attempt spool")
        | some (.file name size) =>
          if name.length > 255 then .error (uploadError "artifact file name is too long") else .ok (name, size)
  | _ => .error (uploadError "artifact relative_path is invalid")

/-- `strip` and `lower` of an ASCII text, held to letters, digits, `_` and `-`. -/
def checkKind (value : String) : Except Exn String :=
  let kind := (strip value).toList.map Char.toLower
  if value.toList.all (·.toNat < 128) && kind ≠ [] && kind.length ≤ 64 &&
      kind.all fun c => c.isAlphanum || c = '_' || c = '-' then .ok (.ofList kind)
  else .error (uploadError "artifact type is invalid")

def kindOf (event : EventEnvelope) : Except Exn String :=
  match (event.payload.get? "artifact_type").getD (.str event.type.value) with
  | .str value => checkKind value
  | _ => .error (uploadError "artifact type is invalid")

def keyParts (task : FullTaskEnvelope) (event : EventEnvelope) (name : String) : List String :=
  [task.tenantId.text, task.projectId.text, task.runId.text, task.attemptId.text, event.eventId.text, name]

def storageKey (task : FullTaskEnvelope) (event : EventEnvelope) (name : String) : String :=
  .ofList (['/'].intercalate ((keyParts task event name).map String.toList))

def collectedPayload (task : FullTaskEnvelope) (artifact : ArtifactRecord) : Dict String Json :=
  (((((Dict.empty.set "artifact_id" (.str artifact.id.text)).set "artifact_type" (.str artifact.kind)).set
    "file_name" (.str artifact.name)).set "content_type" (.str artifact.contentType)).set "size_bytes"
    (.int artifact.sizeBytes)).set "url"
    (.str ("/api/v1/runs/" ++ task.runId.text ++ "/artifacts/" ++ artifact.id.text ++ "/content"))

/-- The record of a file that an event names. -/
def recordOf (task : FullTaskEnvelope) (event : EventEnvelope) (kind name : String) (size : Nat) : ArtifactRecord where
  id := event.eventId
  runId := task.runId
  attemptId := task.attemptId
  kind := kind
  name := name
  contentType := (guess name).getD "application/octet-stream"
  sizeBytes := size
  storageKey := storageKey task event name
  createdAt := event.occurredAt

/-- `ArtifactCollector.collect`; what has been stored stays where creating the artifact raises. -/
def collect (tree : SpoolTree) (task : FullTaskEnvelope) (event : EventEnvelope) (w : ArtifactWorld) :
    Except Exn EventEnvelope × ArtifactWorld :=
  if event.type ≠ .artifact ∧ event.type ≠ .screenshot then (.ok event, w)
  else
    let put := do
      let (name, size) ← sourceOf tree event.payload
      let kind ← kindOf event
      let (size, store) ← w.store.put digest size (storageKey task event name)
      return (recordOf guess task event kind name size, store)
    match put with
    | .error e => (.error e, w)
    | .ok (record, store) =>
      let w := { w with store := store }
      match w.createArtifact record with
      | .error e => (.error e, w)
      | .ok (artifact, w) => (.ok { event with payload := collectedPayload task artifact }, w)

end Code

/-! ## What the agent emits -/

section Emission

variable {guess : String → Option String}

theorem artifactLoop_eq {total : Nat} {files : List ArtifactFile}
    (h : total + (files.map ArtifactFile.size).sum ≤ 100 * 1024 * 1024) :
    artifactLoop total files = files.map fun file => .emit file.type file.payload := by
  induction files generalizing total with
  | nil => rfl
  | cons file rest ih =>
    rw [List.map_cons, List.sum_cons] at h
    have hfits : ¬ total + file.size > 100 * 1024 * 1024 := by omega
    have hrest : total + file.size + (rest.map ArtifactFile.size).sum ≤ 100 * 1024 * 1024 := by omega
    simp only [artifactLoop, if_neg hfits, ih hrest, List.map_cons]

/-- Within the limits every file is named, and nothing raises. -/
theorem emitArtifacts_eq {files : List ArtifactFile} (hcount : files.length ≤ 100)
    (htotal : (files.map ArtifactFile.size).sum ≤ 100 * 1024 * 1024) :
    emitArtifacts files = files.map fun file => .emit file.type file.payload := by
  unfold emitArtifacts
  rw [if_neg (by omega), artifactLoop_eq (by omega)]

theorem payload_relative (file : ArtifactFile) : file.payload.get? "relative_path" = some (.str file.relative) := by
  simp [ArtifactFile.payload]

theorem payload_kind (file : ArtifactFile) :
    file.payload.get? "artifact_type" = some (.str (if file.type = .screenshot then "screenshot" else "file")) := by
  simp [ArtifactFile.payload]

theorem artifactFile_type (file : ArtifactFile) : file.type = .screenshot ∨ file.type = .artifact := by
  unfold ArtifactFile.type
  split
  · exact .inl rfl
  · exact .inr rfl

end Emission

/-! ## What the collector finds -/

section Paths

/-- Names joined by slashes are read back. -/
theorem parse_joined {parts : List String} (hnamed : ∀ part ∈ parts, FileName part) (hne : parts ≠ []) :
    PurePosixPath.parse (.ofList (['/'].intercalate (parts.map String.toList))) = ⟨"", parts⟩ := by
  have hrelative : PurePosixPath.Relative ⟨"", parts⟩ := ⟨rfl, fun part hpart => (hnamed part hpart).1⟩
  have hstr : PurePosixPath.str ⟨"", parts⟩ = .ofList (['/'].intercalate (parts.map String.toList)) := by
    unfold PurePosixPath.str
    rw [if_neg fun hnil => hne (hrelative.text_eq_nil.mp hnil), hrelative.text_eq]
  rw [← hstr, hrelative.parse_str]

/-- No check of a path refuses names. -/
theorem joined_passes {parts : List String} (hnamed : ∀ part ∈ parts, FileName part) (hne : parts ≠ []) :
    ((⟨"", parts⟩ : PurePosixPath).isAbsolute || decide (".." ∈ (⟨"", parts⟩ : PurePosixPath).parts) ||
      decide ((⟨"", parts⟩ : PurePosixPath).name = "")) = false := by
  have hdots : ".." ∉ parts := fun h => (hnamed _ h).2 rfl
  have hname : parts.getLast hne ≠ "" := (hnamed _ (List.getLast_mem hne)).1.1
  simp [PurePosixPath.isAbsolute, PurePosixPath.parts, PurePosixPath.name, hdots, List.getLast?_eq_some_getLast hne,
    hname]

theorem SpoolTree.entry?_of_mem {tree : SpoolTree} {f : SpoolFile} (h : f ∈ tree.files) :
    tree.entry? f.parts = some (.file f.name f.size) := by
  unfold SpoolTree.entry?
  cases hfind : tree.files.find? (·.parts = f.parts) with
  | none =>
    have hno := List.find?_eq_none.mp hfind f h
    simp at hno
  | some g =>
    have hg := List.mem_of_find?_eq_some hfind
    have hparts : g.parts = f.parts := by simpa using List.find?_some hfind
    obtain rfl := tree.apart g hg f h (hparts ▸ List.prefix_rfl)
    rfl

/-- The collector finds a file by the path of the agent, if the path and the name are short enough. -/
theorem sourceOf_eq {tree : SpoolTree} {f : SpoolFile} (h : f ∈ tree.files) (guess : String → Option String) :
    sourceOf tree (f.artifactFile guess).payload =
      if f.relative.length > 512 then .error (uploadError "artifact relative_path is invalid")
      else if f.name.length > 255 then .error (uploadError "artifact file name is too long")
      else .ok (f.name, f.size) := by
  have hne : f.parts ≠ [] := by simp [SpoolFile.parts]
  have hparse : PurePosixPath.parse f.relative = ⟨"", f.parts⟩ := parse_joined f.parts_named hne
  have hentry : tree.entry? (⟨"", f.parts⟩ : PurePosixPath).parts = some (.file f.name f.size) := by
    simpa [PurePosixPath.parts] using tree.entry?_of_mem h
  unfold sourceOf
  rw [payload_relative]
  simp only [SpoolFile.artifactFile, hparse, joined_passes f.parts_named hne, hentry, Bool.false_eq_true, if_false]

end Paths

/-! ## Agreement -/

/-- The event that the agent emits for a file. -/
def eventOf (task : FullTaskEnvelope) (file : ArtifactFile) (eventId : UUID) (seq : Nat) (occurredAt : Instant) :
    EventEnvelope where
  runId := task.runId
  attemptId := task.attemptId
  engine := task.engine
  eventId := eventId
  seq := seq
  occurredAt := occurredAt
  type := file.type
  payload := file.payload

/-- The repository knows the run and the attempt of the task, and the store takes what the agent may emit. -/
structure Known (w : ArtifactWorld) (task : FullTaskEnvelope) : Prop where
  attempt : ∃ attempt, w.runs.attempts.get? task.attemptId = some attempt ∧ attempt.runId = task.runId
  run : ∃ run, w.runs.runs.get? task.runId = some run
  room : 100 * 1024 * 1024 ≤ w.store.maximumBytes

/-- The ids in the key of an artifact are UUIDs. -/
structure Identified (task : FullTaskEnvelope) (eventId : UUID) : Prop where
  tenant : Canonical task.tenantId
  project : Canonical task.projectId
  run : Canonical task.runId
  attempt : Canonical task.attemptId
  event : Canonical eventId

/-- The event is accepted with one new record of the file, and once more without another. -/
def Collected (digest : String → String) (guess : String → Option String) (tree : SpoolTree) (task : FullTaskEnvelope)
    (w : ArtifactWorld) (f : SpoolFile) (event : EventEnvelope) : Prop :=
  ∃ record w' w'', collect digest guess tree task event w =
      (.ok { event with payload := collectedPayload task record }, w') ∧
    record.id = event.eventId ∧ record.name = f.name ∧ record.sizeBytes = f.size ∧
    w'.artifacts = w.artifacts.set record.id record ∧ w'.runs = w.runs ∧
    collect digest guess tree task event w' = (.ok { event with payload := collectedPayload task record }, w'') ∧
    w''.artifacts = w'.artifacts

section Agreement

variable {digest : String → String} {guess : String → Option String} {tree : SpoolTree} {task : FullTaskEnvelope}
  {w : ArtifactWorld} {f : SpoolFile} {eventId : UUID} {seq : Nat} {occurredAt : Instant}

theorem canonical_named {id : UUID} (h : Canonical id) : FileName id.text := by
  have hlength := h.length
  refine ⟨⟨?_, ?_, ?_⟩, ?_⟩
  · intro heq
    rw [heq] at hlength
    exact absurd hlength (by decide)
  · intro heq
    rw [heq] at hlength
    exact absurd hlength (by decide)
  · intro hslash
    exact absurd (h.hex _ hslash) (by decide)
  · intro heq
    rw [heq] at hlength
    exact absurd hlength (by decide)

theorem put_ok (hids : Identified task eventId) (hsize : f.size ≤ w.store.maximumBytes) (file : ArtifactFile) :
    let key := storageKey task (eventOf task file eventId seq occurredAt) f.name
    w.store.put digest f.size key = .ok (f.size, w.store.stored digest key f.size) := by
  have hnamed : ∀ part ∈ keyParts task (eventOf task file eventId seq occurredAt) f.name, FileName part := by
    simp only [keyParts, List.forall_mem_cons]
    exact ⟨canonical_named hids.tenant, canonical_named hids.project, canonical_named hids.run,
      canonical_named hids.attempt, canonical_named hids.event, f.name_named, by simp⟩
  have hne : keyParts task (eventOf task file eventId seq occurredAt) f.name ≠ [] := List.cons_ne_nil _ _
  unfold LocalArtifactStore.put storageKey
  dsimp only
  rw [if_neg (by omega), parse_joined hnamed hne]
  simp only [joined_passes hnamed hne, Bool.false_eq_true, if_false]

theorem kindOf_ok (file : ArtifactFile) : ∃ kind, kindOf (eventOf task file eventId seq occurredAt) = .ok kind := by
  have hscreenshot : checkKind "screenshot" = .ok "screenshot" := by rfl
  have hfile : checkKind "file" = .ok "file" := by rfl
  have hkind : (eventOf task file eventId seq occurredAt).payload.get? "artifact_type" =
      some (.str (if file.type = .screenshot then "screenshot" else "file")) := payload_kind file
  unfold kindOf
  rw [hkind, Option.getD_some]
  dsimp only
  split
  · exact ⟨_, hscreenshot⟩
  · exact ⟨_, hfile⟩

theorem eventOf_type (file : ArtifactFile) :
    ¬ ((eventOf task file eventId seq occurredAt).type ≠ .artifact ∧
      (eventOf task file eventId seq occurredAt).type ≠ .screenshot) := by
  rcases artifactFile_type file with h | h <;> simp [eventOf, h]

/-- An event whose file is not found is refused, and nothing changes. -/
theorem collect_refused {event : EventEnvelope} (htype : ¬ (event.type ≠ .artifact ∧ event.type ≠ .screenshot)) {e : Exn}
    (h : sourceOf tree event.payload = .error e) : collect digest guess tree task event w = (.error e, w) := by
  unfold collect
  simp only [if_neg htype, h, error_bind]

/-- Short enough, the file is stored, and what remains is its record. -/
theorem collect_eq (hf : f ∈ tree.files) (hids : Identified task eventId) (hsize : f.size ≤ w.store.maximumBytes)
    (hrelative : f.relative.length ≤ 512) (hname : f.name.length ≤ 255) {kind : String} {event : EventEnvelope}
    (hevent : event = eventOf task (f.artifactFile guess) eventId seq occurredAt) (hkind : kindOf event = .ok kind)
    {record : ArtifactRecord} (hrecord : record = recordOf guess task event kind f.name f.size) {w' : ArtifactWorld}
    (hcreated : ({ w with store := w.store.stored digest (storageKey task event f.name) f.size } :
      ArtifactWorld).createArtifact record = .ok (record, w')) :
    collect digest guess tree task event w = (.ok { event with payload := collectedPayload task record }, w') := by
  have htype : ¬ (event.type ≠ .artifact ∧ event.type ≠ .screenshot) := hevent ▸ eventOf_type _
  have hsource : sourceOf tree event.payload = .ok (f.name, f.size) := by
    rw [hevent]
    exact (sourceOf_eq hf guess).trans (by rw [if_neg (by omega), if_neg (by omega)])
  have hput : w.store.put digest f.size (storageKey task event f.name) =
      .ok (f.size, w.store.stored digest (storageKey task event f.name) f.size) := by
    rw [hevent]
    exact put_ok hids hsize _
  unfold collect
  simp only [if_neg htype, hsource, ok_bind, hkind, hput, ← hrecord, hcreated, pure, Except.pure]

/-- A new record is stored, and found again. -/
theorem createArtifact_new (hknown : Known w task) {record : ArtifactRecord} (hrun : record.runId = task.runId)
    (hattempt : record.attemptId = task.attemptId) (hnew : w.artifacts.get? record.id = none) :
    w.createArtifact record = .ok (record, { w with artifacts := w.artifacts.set record.id record }) := by
  obtain ⟨attempt, hstored, howner⟩ := hknown.attempt
  obtain ⟨run, hrunStored⟩ := hknown.run
  unfold ArtifactWorld.createArtifact RunRepository.getAttemptLocked RunRepository.getLocked
  rw [hattempt, hstored, hrun, hrunStored, hnew]
  simp [howner, ok_bind, pure, Except.pure]

theorem createArtifact_again (hknown : Known w task) {record : ArtifactRecord} (hrun : record.runId = task.runId)
    (hattempt : record.attemptId = task.attemptId) (hstored : w.artifacts.get? record.id = some record) :
    w.createArtifact record = .ok (record, w) := by
  obtain ⟨attempt, hattemptStored, howner⟩ := hknown.attempt
  obtain ⟨run, hrunStored⟩ := hknown.run
  unfold ArtifactWorld.createArtifact RunRepository.getAttemptLocked RunRepository.getLocked
  rw [hattempt, hattemptStored, hrun, hrunStored, hstored]
  simp [howner, ok_bind, pure, Except.pure]

/-- The event of a file is collected exactly if its path and its name are short enough. -/
theorem collected_iff (hf : f ∈ tree.files) (hids : Identified task eventId) (hknown : Known w task)
    (hsize : f.size ≤ 100 * 1024 * 1024) (hnew : w.artifacts.get? eventId = none) :
    Collected digest guess tree task w f (eventOf task (f.artifactFile guess) eventId seq occurredAt) ↔
      f.relative.length ≤ 512 ∧ f.name.length ≤ 255 := by
  set event := eventOf task (f.artifactFile guess) eventId seq occurredAt with hevent
  constructor
  · rintro ⟨record, w', _, hcollect, -⟩
    by_contra hlong
    have hsource : ∃ e, sourceOf tree event.payload = .error e := by
      have heq : sourceOf tree event.payload = _ := sourceOf_eq hf guess
      rw [heq]
      split
      · exact ⟨_, rfl⟩
      · split
        · exact ⟨_, rfl⟩
        · exact absurd ⟨by omega, by omega⟩ hlong
    obtain ⟨e, he⟩ := hsource
    rw [collect_refused (eventOf_type _) he] at hcollect
    cases (Prod.mk.inj hcollect).1
  · rintro ⟨hrelative, hname⟩
    obtain ⟨kind, hkind⟩ : ∃ kind, kindOf event = .ok kind := kindOf_ok _
    have hroom := le_trans hsize hknown.room
    let record := recordOf guess task event kind f.name f.size
    let store := w.store.stored digest (storageKey task event f.name) f.size
    let w' : ArtifactWorld := { w with store := store, artifacts := w.artifacts.set record.id record }
    have hstored : Known ({ w with store := store } : ArtifactWorld) task := ⟨hknown.attempt, hknown.run, hknown.room⟩
    have hfirst := collect_eq hf hids hroom hrelative hname hevent hkind rfl
      (createArtifact_new hstored (rfl : record.runId = task.runId) rfl hnew)
    have hagain : Known ({ w' with store := w'.store.stored digest (storageKey task event f.name) f.size } :
      ArtifactWorld) task := ⟨hknown.attempt, hknown.run, hknown.room⟩
    have hsecond := collect_eq (w := w') hf hids hroom hrelative hname hevent hkind rfl
      (createArtifact_again hagain (rfl : record.runId = task.runId) rfl (Dict.get?_set_self _ _ _))
    exact ⟨record, w', _, hfirst, rfl, rfl, rfl, rfl, rfl, hsecond, rfl⟩

end Agreement

/-- Within the limits of the agent every file is named in one event, and the collector takes all these events exactly if
every path has at most 512 characters and every name at most 255. -/
theorem collector_agrees_iff (digest : String → String) (guess : String → Option String) (tree : SpoolTree)
    (task : FullTaskEnvelope) (w : ArtifactWorld) (eventId : UUID) (hcount : tree.files.length ≤ 100)
    (htotal : (tree.files.map SpoolFile.size).sum ≤ 100 * 1024 * 1024) (hids : Identified task eventId)
    (hknown : Known w task) (hnew : w.artifacts.get? eventId = none) :
    emitArtifacts (tree.files.map (SpoolFile.artifactFile guess)) = tree.files.map (fun f =>
      .emit (f.artifactFile guess).type (f.artifactFile guess).payload) ∧
    ((∀ f ∈ tree.files, ∀ seq occurredAt, Collected digest guess tree task w f
      (eventOf task (f.artifactFile guess) eventId seq occurredAt)) ↔
        ∀ f ∈ tree.files, f.relative.length ≤ 512 ∧ f.name.length ≤ 255) := by
  constructor
  · have hsizes : (tree.files.map (SpoolFile.artifactFile guess)).map ArtifactFile.size =
        tree.files.map SpoolFile.size := by
      rw [List.map_map]
      rfl
    rw [emitArtifacts_eq (by simpa using hcount) (hsizes ▸ htotal), List.map_map]
    rfl
  · have hsize : ∀ f ∈ tree.files, f.size ≤ 100 * 1024 * 1024 := fun f hf =>
      le_trans (List.single_le_sum (fun _ _ => Nat.zero_le _) _ (List.mem_map_of_mem hf)) htotal
    constructor
    · exact fun h f hf => (collected_iff hf hids hknown (hsize f hf) hnew).mp (h f hf 0 0)
    · exact fun h f hf seq occurredAt => (collected_iff hf hids hknown (hsize f hf) hnew).mpr (h f hf)

/-! ## Two trees -/

theorem fileName_of {part : String} (h : part ≠ "" ∧ part ≠ "." ∧ '/' ∉ part.toList ∧ part ≠ "..") : FileName part :=
  ⟨⟨h.1, h.2.1, h.2.2.1⟩, h.2.2.2⟩

/-- `login/shot.png` -/
def shotFile : SpoolFile where
  directories := ["login"]
  name := "shot.png"
  size := 2048
  directories_named := by
    intro part hpart
    rw [List.mem_singleton.mp hpart]
    exact fileName_of (by decide)
  name_named := fileName_of (by decide)

/-- A file in a hundred and thirty directories. -/
def deepFile : SpoolFile where
  directories := List.replicate 130 "suite"
  name := "log.txt"
  size := 1
  directories_named := by
    intro part hpart
    rw [List.eq_of_mem_replicate hpart]
    exact fileName_of (by decide)
  name_named := fileName_of (by decide)

def treeOf (f : SpoolFile) : SpoolTree where
  files := [f]
  apart := by simp

/-- What `guess_type` answers for the names above. -/
def guessPng (name : String) : Option String := if name = "shot.png" then some "image/png" else some "text/plain"

def spoolTask : FullTaskEnvelope := taskOf someUuid5 { hostSpec someId with tenantId := someId } someId someId 0

def spoolAttempt : AttemptRecord :=
  ⟨someId, someId, .running, 0, 0, none, none, none, none, none, none, none⟩

def spoolWorld : ArtifactWorld where
  runs := (RunRepository.empty.putRun ⟨someId, .pytest, .empty, .running, 0, 0⟩).putAttempt spoolAttempt
  artifacts := .empty
  store := ⟨100 * 1024 * 1024, .empty⟩

theorem spool_known : Known spoolWorld spoolTask := ⟨⟨spoolAttempt, rfl, rfl⟩, ⟨_, rfl⟩, le_rfl⟩

theorem spool_identified : Identified spoolTask someId :=
  ⟨someId_canonical, someId_canonical, someId_canonical, someId_canonical, someId_canonical⟩

theorem length_intercalate_replicate (n : Nat) (l m : List Char) :
    (['/'].intercalate (List.replicate n l ++ [m])).length = n * (l.length + 1) + m.length := by
  induction n with
  | zero => simp
  | succ n ih =>
    obtain ⟨first, rest, hrest⟩ := List.exists_cons_of_ne_nil (show List.replicate n l ++ [m] ≠ [] by simp)
    rw [List.replicate_succ, List.cons_append, hrest, List.intercalate_cons_cons, ← hrest]
    simp only [List.length_append, List.length_singleton, ih, Nat.add_mul, Nat.one_mul]
    omega

theorem deepFile_long : 512 < deepFile.relative.length := by
  have htexts : deepFile.parts.map String.toList = List.replicate 130 "suite".toList ++ ["log.txt".toList] := by
    simp only [SpoolFile.parts, deepFile, List.map_append, List.map_replicate, List.map_cons, List.map_nil]
  rw [SpoolFile.relative, htexts, String.length_ofList, length_intercalate_replicate]
  decide

theorem deepFile_type : (deepFile.artifactFile guessPng).type = .artifact := rfl

theorem deep_file_refused : emitArtifacts ((treeOf deepFile).files.map (SpoolFile.artifactFile guessPng)) =
      [.emit .artifact (deepFile.artifactFile guessPng).payload] ∧
    deepFile.name.length ≤ 255 ∧ (∀ part ∈ deepFile.directories, part.length ≤ 255) ∧
    (collect id guessPng (treeOf deepFile) spoolTask (eventOf spoolTask (deepFile.artifactFile guessPng) someId 0 0)
      spoolWorld).1 = .error (uploadError "artifact relative_path is invalid") := by
  refine ⟨?_, by decide, ?_, ?_⟩
  · have hemitted : emitArtifacts [deepFile.artifactFile guessPng] = _ := emitArtifacts_eq (by simp) (by decide)
    rw [List.map_singleton, deepFile_type] at hemitted
    exact hemitted
  · intro part hpart
    rw [List.eq_of_mem_replicate hpart]
    decide
  · have hsource : sourceOf (treeOf deepFile) (deepFile.artifactFile guessPng).payload = _ :=
      sourceOf_eq (List.mem_singleton_self _) guessPng
    rw [if_pos deepFile_long] at hsource
    rw [collect_refused (eventOf_type _) hsource]

theorem shot_collected : Collected id guessPng (treeOf shotFile) spoolTask spoolWorld shotFile
    (eventOf spoolTask (shotFile.artifactFile guessPng) someId 0 0) := by
  have hagrees := collector_agrees_iff id guessPng (treeOf shotFile) spoolTask spoolWorld someId (by decide) (by decide)
    spool_identified spool_known rfl
  refine hagrees.2.mpr ?_ shotFile (List.mem_singleton_self _) 0 0
  intro f hf
  obtain rfl := List.mem_singleton.mp hf
  exact ⟨by decide, by decide⟩

end SmartTest.System
