import SmartTest.Run.Protocol
import SmartTest.Source.Workspace

/-!
# The source store

`LocalSourceStore` for inline sources and archives. What is stored is a table from the
project and the digest to the bytes. The digest, the reading of ZIP bytes, the resolution of
paths and the sources on the host are the parameter `SourceWorld`.
-/

open SmartTest.Lib SmartTest.Run

namespace SmartTest.Source

def MAX_SOURCE_BYTES : Nat := 1024 * 1024

def isHex (c : Char) : Bool := c ∈ "0123456789abcdef".toList

/-- `_DIGEST_PATTERN.fullmatch`. -/
def isDigest (value : String) : Bool := value.toList.length = 64 && value.toList.all isHex

/-- The part of `_SOURCE_REF_PATTERN` for the project. -/
def isUuidText (value : String) : Bool :=
  let groups := value.toList.splitOn '-'
  groups.map List.length = [8, 4, 4, 4, 12] && groups.all (·.all isHex)

structure Digest where
  text : String
  hex : isDigest text = true
  deriving DecidableEq

structure ProjectId where
  uuid : UUID
  canonical : isUuidText uuid.text = true
  deriving DecidableEq

inductive SourceVersion where
  | v1 | v2
  deriving DecidableEq, Repr

def SourceVersion.text : SourceVersion → String
  | .v1 => "v1"
  | .v2 => "v2"

structure StoredSource where
  sourceRef : String
  contentDigest : String
  sizeBytes : Nat
  deriving DecidableEq

structure SourceWorld where
  sha256 : Bytes → Digest
  zipFile : Bytes → Except ZipFault (List ZipInfo)
  folding : CaseFolding
  resolve : FileSystem → List String → List String
  resolveHostReference : ProjectId → String → String → String → Except SourceError Unit

structure LocalSourceStore where
  maximumBytes : Nat
  stored : Dict (ProjectId × String) Bytes

/-! ## References -/

def reference (project : ProjectId) (digest : String) (version : SourceVersion) : String :=
  .ofList ([':'].intercalate
    ["local-source".toList, version.text.toList, project.uuid.text.toList, "sha256".toList, digest.toList])

def parseVersion (chars : List Char) : Option SourceVersion :=
  if chars = ['v', '1'] then some .v1 else if chars = ['v', '2'] then some .v2 else none

def parseReference (value : String) : Except SourceError (SourceVersion × ProjectId × String) :=
  match value.toList.splitOn ':' with
  | [scheme, version, project, algorithm, digest] =>
    match parseVersion version with
    | none => .error (.store "source reference is invalid")
    | some version =>
      if h : isUuidText (.ofList project) = true then
        if scheme = "local-source".toList ∧ algorithm = "sha256".toList ∧ isDigest (.ofList digest) = true then
          .ok (version, ⟨⟨.ofList project⟩, h⟩, .ofList digest)
        else .error (.store "source reference is invalid")
      else .error (.store "source reference is invalid")
  | _ => .error (.store "source reference is invalid")

/-! ## Storing -/

def archiveEntries (world : SourceWorld) (content : Bytes) (payload : Bool) :
    Except SourceError (Dict String ZipInfo) :=
  catchZip (match world.zipFile content with
    | .error fault => .error (.zip fault)
    | .ok infos => acceptEntries world.folding infos payload)

def putBytes (world : SourceWorld) (store : LocalSourceStore) (project : ProjectId) (content : Bytes)
    (version : SourceVersion) : StoredSource × LocalSourceStore :=
  let digest := (world.sha256 content).text
  (⟨reference project digest version, digest, content.length⟩,
    { store with stored := store.stored.set (project, digest) content })

def putArchive (world : SourceWorld) (store : LocalSourceStore) (project : ProjectId) (content : Bytes) :
    Except SourceError (StoredSource × LocalSourceStore) :=
  if content = [] || content.length > MAX_ARCHIVE_BYTES then
    .error (.store "project ZIP must be between 1 byte and 10 MiB")
  else do
    let _ ← archiveEntries world content true
    return putBytes world store project content .v2

def verifiedContent (world : SourceWorld) (store : LocalSourceStore) (project : ProjectId) (digest : String)
    (limit : Nat) : Except SourceError Bytes :=
  match store.stored.get? (project, digest) with
  | none => .error (.store "stored source does not exist")
  | some content =>
    if content.length > limit then .error (.store "stored source exceeds the size limit")
    else if (world.sha256 content).text ≠ digest then .error (.store "stored source digest does not match")
    else .ok content

def contentLimit (store : LocalSourceStore) : SourceVersion → Nat
  | .v1 => store.maximumBytes
  | .v2 => MAX_ARCHIVE_BYTES

def validateReference (world : SourceWorld) (store : LocalSourceStore) (project : ProjectId)
    (sourceRef digest value : String) : Except SourceError Unit :=
  if "host-source:".toList.isPrefixOf sourceRef.toList then
    world.resolveHostReference project sourceRef digest value
  else do
    let (version, referencedProject, referencedDigest) ← parseReference sourceRef
    if referencedProject ≠ project ∨ referencedDigest ≠ digest then
      .error (.store "source reference does not match the project or digest")
    else
      let relative ← entrypoint value
      let content ← verifiedContent world store project digest (contentLimit store version)
      if version = .v2 then
        let entries ← archiveEntries world content false
        if relative.str ∈ entries.keys then .ok ()
        else .error (.store "entrypoint does not exist in the project archive")
      else .ok ()

/-! ## Materializing -/

/-- `Path.mkdir` with `parents` and `exist_ok`, on the parts from the last to the first. -/
def makeDirectories (fs : FileSystem) : List String → FileSystem × Except SourceError Unit
  | [] => (fs, .ok ())
  | part :: above =>
    match fs.node (part :: above).reverse with
    | some .dir => (fs, .ok ())
    | some _ => (fs, .error .os)
    | none =>
      match makeDirectories fs above with
      | (fs, .error e) => (fs, .error e)
      | (fs, .ok ()) => (fs.put (part :: above).reverse .dir, .ok ())

def atomicWrite (fs : FileSystem) (target : List String) (token : Token) (content : Bytes) :
    FileSystem × Except SourceError Unit :=
  match makeDirectories fs target.dropLast.reverse with
  | (fs, .error e) => (fs, .error e)
  | (fs, .ok ()) =>
    let temporary := target.dropLast ++ ["." ++ token.text ++ ".tmp"]
    if (fs.node temporary).isSome then (fs.remove temporary, .error .os)
    else
      let fs := (fs.put temporary (.file content)).remove temporary
      if fs.node target = some .dir then (fs, .error .os) else (fs.put target (.file content), .ok ())

def extractArchive (world : SourceWorld) (fs : FileSystem) (content : Bytes) (root : List String)
    (token : Nat → Token) : FileSystem × Except SourceError (List String) :=
  match archiveEntries world content false with
  | .error e => (fs, .error e)
  | .ok entries =>
    match extractLoop root token fs 0 0 entries.entries with
    | (fs, .error e) => (fs, .error e)
    | (fs, .ok ()) => (fs, .ok entries.keys)

/-- An inline source is written at its entrypoint. -/
def writeInline (world : SourceWorld) (fs : FileSystem) (content : Bytes) (root : List String)
    (relative : PurePosixPath) (token : Token) : FileSystem × Except SourceError (List String) :=
  let destination := root ++ relative.parts
  let parent := world.resolve fs destination.dropLast
  if ¬ root.isPrefixOf parent then (fs, .error (.store "entrypoint escapes the workspace"))
  else match makeDirectories fs destination.dropLast.reverse with
    | (fs, .error e) => (fs, .error e)
    | (fs, .ok ()) =>
      if fs.node destination = some .symlink then (fs, .error (.store "entrypoint symlinks are not allowed"))
      else
        let target := parent ++ [relative.name]
        match atomicWrite fs target token content with
        | (fs, .error e) => (fs, .error e)
        | (fs, .ok ()) => (fs, .ok target)

/-- What is read before the workspace is touched. -/
def materialSource (world : SourceWorld) (store : LocalSourceStore) (project : ProjectId)
    (sourceRef digest value : String) : Except SourceError (SourceVersion × PurePosixPath × Bytes) := do
  let (version, referencedProject, referencedDigest) ← parseReference sourceRef
  if referencedProject ≠ project then .error (.store "source reference belongs to a different project")
  else if isDigest digest = false then .error (.store "content digest is invalid")
  else if digest ≠ referencedDigest then .error (.store "source reference and digest do not match")
  else
    let relative ← entrypoint value
    let content ← verifiedContent world store project digest (contentLimit store version)
    return (version, relative, content)

def materialize (world : SourceWorld) (store : LocalSourceStore) (fs : FileSystem) (project : ProjectId)
    (sourceRef digest value : String) (workspace : List String) (token : Nat → Token) :
    FileSystem × Except SourceError (List String) :=
  match materialSource world store project sourceRef digest value with
  | .error e => (fs, .error e)
  | .ok (version, relative, content) =>
    let root := world.resolve fs workspace
    match makeDirectories fs root.reverse with
    | (fs, .error e) => (fs, .error e)
    | (fs, .ok ()) =>
      match version with
      | .v2 =>
        match extractArchive world fs content root token with
        | (fs, .error e) => (fs, .error e)
        | (fs, .ok files) =>
          if relative.str ∈ files then (fs, .ok (root ++ relative.parts))
          else (fs, .error (.store "entrypoint does not exist in the project archive"))
      | .v1 => writeInline world fs content root relative (token 0)

/-! ## What is stored is found again -/

theorem hex_not_colon {chars : List Char} (h : chars.all isHex = true) : ':' ∉ chars := by
  intro hin
  have hcolon := List.all_eq_true.mp h ':' hin
  revert hcolon
  decide

theorem Digest.not_colon (d : Digest) : ':' ∉ d.text.toList :=
  hex_not_colon (Bool.and_eq_true_iff.mp d.hex).2

theorem ProjectId.not_colon (p : ProjectId) : ':' ∉ p.uuid.text.toList := by
  have hgroups := (Bool.and_eq_true_iff.mp p.canonical).2
  intro hin
  rw [← @List.intercalate_splitOn _ p.uuid.text.toList _ _ '-'] at hin
  -- A character of the joined groups is a dash or stands in a group.
  have hsplit : ∀ groups : List (List Char), ':' ∈ ['-'].intercalate groups → ∃ g ∈ groups, ':' ∈ g := by
    intro groups
    induction groups with
    | nil => simp
    | cons g rest ih =>
      cases rest with
      | nil => simp
      | cons next others =>
        rw [List.intercalate_cons_cons]
        intro hmem
        simp only [List.mem_append, List.mem_singleton, Char.reduceEq, or_false] at hmem
        rcases hmem with hg | hrest
        · exact ⟨g, by simp, hg⟩
        · obtain ⟨g', hg', hin'⟩ := ih hrest
          exact ⟨g', List.mem_cons_of_mem _ hg', hin'⟩
  obtain ⟨g, hg, hcolon⟩ := hsplit _ hin
  exact hex_not_colon (List.all_eq_true.mp hgroups g hg) hcolon

theorem parseReference_reference (project : ProjectId) (digest : Digest) (version : SourceVersion) :
    parseReference (reference project digest.text version) = .ok (version, project, digest.text) := by
  have hsplit : (reference project digest.text version).toList.splitOn ':' =
      ["local-source".toList, version.text.toList, project.uuid.text.toList, "sha256".toList, digest.text.toList] := by
    rw [reference, String.toList_ofList]
    refine List.splitOn_intercalate ':' ?_ (by simp)
    have hversion : ':' ∉ version.text.toList := by
      cases version <;> decide
    simp only [List.forall_mem_cons, List.not_mem_nil, false_implies, implies_true, and_true]
    exact ⟨by decide, hversion, project.not_colon, by decide, digest.not_colon⟩
  have hparse : parseVersion version.text.toList = some version := by
    cases version <;> decide
  unfold parseReference
  rw [hsplit]
  simp [hparse, project.canonical, digest.hex]

theorem verifiedContent_putBytes (world : SourceWorld) (store : LocalSourceStore) (project : ProjectId)
    (content : Bytes) (version : SourceVersion) {limit : Nat} (h : content.length ≤ limit) :
    verifiedContent world (putBytes world store project content version).2 project (world.sha256 content).text limit =
      .ok content := by
  simp only [verifiedContent, putBytes, Dict.get?_set_self]
  rw [if_neg (by omega), if_neg (by simp)]

end SmartTest.Source
