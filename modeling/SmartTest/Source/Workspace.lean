import Mathlib.Logic.Function.Basic
import SmartTest.Source.Accepted

/-!
# Extracting an archive

`_extract_archive`, `_safe_archive_parent` and `_atomic_write_stream`. A path of the file
system is the list of its parts, and `written` notes what is created, replaced or removed.
-/

open SmartTest.Lib

namespace SmartTest.Source

inductive FsNode where
  | dir
  | file (content : Bytes)
  | symlink
  deriving DecidableEq, Repr

structure FileSystem where
  node : List String → Option FsNode
  written : List (List String)

namespace FileSystem

def put (fs : FileSystem) (path : List String) (n : FsNode) : FileSystem :=
  ⟨Function.update fs.node path (some n), fs.written ++ [path]⟩

def remove (fs : FileSystem) (path : List String) : FileSystem :=
  ⟨Function.update fs.node path none, fs.written ++ [path]⟩

end FileSystem

/-- `Path.relative_to`. -/
def relativeTo (path root : List String) : Option (List String) :=
  if root.isPrefixOf path then some (path.drop root.length) else none

def safeArchiveParent (fs : FileSystem) (current : List String) :
    List String → FileSystem × Except SourceError Unit
  | [] => (fs, .ok ())
  | part :: rest =>
    match fs.node (current ++ [part]) with
    | some .dir => safeArchiveParent fs (current ++ [part]) rest
    | some _ => (fs, .error (.store "ZIP path conflicts with the workspace"))
    | none => safeArchiveParent (fs.put (current ++ [part]) .dir) (current ++ [part]) rest

/-- What `uuid4().hex` draws. -/
structure Token where
  text : String
  hex : ∀ c ∈ text.toList, c ∈ "0123456789abcdef".toList

def temporaryName (name : String) (token : Token) : String := "." ++ name ++ "." ++ token.text ++ ".tmp"

/-- The `while` loop: how much was copied, with the error that ended it early. -/
def copyChunks (copied remaining : Nat) : List Bytes → Except SourceError Nat
  | [] => .ok copied
  | chunk :: rest =>
    if copied + chunk.length > remaining then .error (.store "expanded ZIP exceeds the 50 MiB limit")
    else copyChunks (copied + chunk.length) remaining rest

/-- Whatever happens, the temporary file is gone in the end. -/
def atomicWriteStream (fs : FileSystem) (target : List String) (token : Token) (source : ZipInfo)
    (remaining : Nat) : FileSystem × Except SourceError Nat :=
  let temporary := target.dropLast ++ [temporaryName (target.getLast?.getD "") token]
  if (fs.node temporary).isSome then (fs.remove temporary, .error .os)
  else
    let copied := do
      let copied ← copyChunks 0 remaining source.chunks
      raiseFault source.readFault
      return copied
    match copied with
    | .error e => ((fs.put temporary (.file [])).remove temporary, .error e)
    | .ok copied =>
      (((fs.put temporary (.file source.content)).remove temporary).put target (.file source.content), .ok copied)

def extractEntry (fs : FileSystem) (root : List String) (token : Token) (remaining : Nat)
    (name : String) (info : ZipInfo) : FileSystem × Except SourceError Nat :=
  let destination := root ++ (PurePosixPath.parse name).parts
  match relativeTo destination.dropLast root with
  | none => (fs, .error .value)
  | some parents =>
    match safeArchiveParent fs root parents with
    | (fs, .error e) => (fs, .error e)
    | (fs, .ok ()) =>
      if (fs.node destination).isSome then
        (fs, .error (.store "project archive would overwrite a workspace file"))
      else match info.openFault with
        | some fault => (fs, .error (.zip fault))
        | none => atomicWriteStream fs destination token info remaining

def extractLoop (root : List String) (token : Nat → Token) (fs : FileSystem) (turn expanded : Nat) :
    List (String × ZipInfo) → FileSystem × Except SourceError Unit
  | [] => (fs, .ok ())
  | (name, info) :: rest =>
    match extractEntry fs root (token turn) (MAX_ARCHIVE_EXPANDED_BYTES - expanded) name info with
    | (fs, .error e) => (fs, .error e)
    | (fs, .ok copied) => extractLoop root token fs (turn + 1) (expanded + copied) rest

/-! ## Only paths inside the root are written -/

def SafePart (part : String) : Prop := PurePosixPath.GoodPart part ∧ part ≠ ".."

/-- Below `root` by one part or more, none of which leads back up. -/
def StrictlyInside (root path : List String) : Prop :=
  ∃ parts, parts ≠ [] ∧ (∀ part ∈ parts, SafePart part) ∧ path = root ++ parts

/-- What is written beyond `fs` lies strictly inside `root`, and `root` is as it was. -/
def Inside (root : List String) (fs fs' : FileSystem) : Prop :=
  fs'.node root = fs.node root ∧ ∃ more, fs'.written = fs.written ++ more ∧ ∀ path ∈ more, StrictlyInside root path

variable {root : List String} {fs fs' fs'' : FileSystem}

theorem SafePath.parts {path : PurePosixPath} (h : SafePath path) : ∀ part ∈ path.tail, SafePart part :=
  fun part hpart => ⟨h.relative.tail part hpart, h.up part hpart⟩

theorem StrictlyInside.ne {path : List String} (h : StrictlyInside root path) : root ≠ path := by
  obtain ⟨parts, hne, -, rfl⟩ := h
  simpa using hne

theorem safePart_temporaryName {name : String} (h : '/' ∉ name.toList) (token : Token) :
    SafePart (temporaryName name token) := by
  have htoken : '/' ∉ token.text.toList := by
    intro hin
    have := token.hex '/' hin
    revert this
    decide
  have hchars : (temporaryName name token).toList =
      '.' :: (name.toList ++ '.' :: (token.text.toList ++ ['.', 't', 'm', 'p'])) := by
    simp [temporaryName]
  have hlen : 2 < (temporaryName name token).toList.length := by
    rw [hchars]
    simp only [List.length_cons, List.length_append]
    omega
  refine ⟨⟨?_, ?_, ?_⟩, ?_⟩
  · intro heq
    simp [heq] at hlen
  · intro heq
    simp [heq] at hlen
  · rw [hchars]
    simp [h, htoken]
  · intro heq
    simp [heq] at hlen

theorem Inside.refl (root : List String) (fs : FileSystem) : Inside root fs fs := ⟨rfl, [], by simp, by simp⟩

theorem Inside.trans (h : Inside root fs fs') (h' : Inside root fs' fs'') : Inside root fs fs'' := by
  obtain ⟨hroot, more, hwritten, hmore⟩ := h
  obtain ⟨hroot', more', hwritten', hmore'⟩ := h'
  refine ⟨hroot'.trans hroot, more ++ more', by rw [hwritten', hwritten, List.append_assoc], ?_⟩
  exact List.forall_mem_append.mpr ⟨hmore, hmore'⟩

theorem inside_put {path : List String} (h : StrictlyInside root path) (n : FsNode) :
    Inside root fs (fs.put path n) :=
  ⟨Function.update_of_ne h.ne _ _, [path], rfl, by simpa using h⟩

theorem inside_remove {path : List String} (h : StrictlyInside root path) : Inside root fs (fs.remove path) :=
  ⟨Function.update_of_ne h.ne _ _, [path], rfl, by simpa using h⟩

theorem inside_safeArchiveParent {above parts : List String} (habove : ∀ part ∈ above, SafePart part)
    (hparts : ∀ part ∈ parts, SafePart part) :
    Inside root fs (safeArchiveParent fs (root ++ above) parts).1 := by
  induction parts generalizing fs above with
  | nil => exact .refl root fs
  | cons part rest ih =>
    obtain ⟨hpart, hrest⟩ := List.forall_mem_cons.mp hparts
    have hnext : ∀ p ∈ above ++ [part], SafePart p := by
      rw [List.forall_mem_append]
      exact ⟨habove, by simpa using hpart⟩
    unfold safeArchiveParent
    rw [List.append_assoc]
    split
    · exact ih hnext hrest
    · exact .refl root fs
    · exact (inside_put ⟨_, by simp, hnext, rfl⟩ .dir).trans (ih hnext hrest)

theorem inside_temporary (root : List String) {parts : List String} (hne : parts ≠ []) (hparts : ∀ part ∈ parts, SafePart part)
    (token : Token) :
    StrictlyInside root ((root ++ parts).dropLast ++ [temporaryName ((root ++ parts).getLast?.getD "") token]) := by
  obtain ⟨above, last, rfl⟩ : ∃ above last, parts = above ++ [last] :=
    ⟨parts.dropLast, parts.getLast hne, (List.dropLast_append_getLast hne).symm⟩
  obtain ⟨habove, hlast⟩ := List.forall_mem_append.mp hparts
  have hslash : '/' ∉ last.toList := (hlast last (by simp)).1.2.2
  refine ⟨above ++ [temporaryName last token], by simp, ?_, ?_⟩
  · rw [List.forall_mem_append]
    exact ⟨habove, by simpa using safePart_temporaryName hslash token⟩
  · rw [← List.append_assoc, List.dropLast_concat, List.getLast?_concat, List.append_assoc]
    rfl

theorem inside_atomicWriteStream {parts : List String} (hne : parts ≠ []) (hparts : ∀ part ∈ parts, SafePart part)
    (token : Token) (source : ZipInfo) (remaining : Nat) :
    Inside root fs (atomicWriteStream fs (root ++ parts) token source remaining).1 := by
  have htemporary := inside_temporary root hne hparts token
  simp only [atomicWriteStream]
  split
  · exact inside_remove htemporary
  · split
    · exact (inside_put htemporary _).trans (inside_remove htemporary)
    · exact ((inside_put htemporary _).trans (inside_remove htemporary)).trans (inside_put ⟨parts, hne, hparts, rfl⟩ _)

theorem relativeTo_parent {parts : List String} (h : parts ≠ []) :
    relativeTo (root ++ parts).dropLast root = some parts.dropLast := by
  unfold relativeTo
  rw [List.dropLast_append_of_ne_nil h, if_pos (by simp), List.drop_left]

theorem relativeTo_root {parents : List String} (h : relativeTo root.dropLast root = some parents) : parents = [] := by
  unfold relativeTo at h
  split at h
  · rw [← Option.some.inj h, List.drop_eq_nil_iff, List.length_dropLast]
    omega
  · cases h

/-- An entry whose path has no parts writes nothing, and every other one writes inside. -/
theorem inside_extractEntry {name : String} (hname : SafePath (PurePosixPath.parse name))
    (hroot : fs.node root = some .dir) (token : Token) (remaining : Nat) (info : ZipInfo) :
    Inside root fs (extractEntry fs root token remaining name info).1 := by
  simp only [extractEntry, parts_eq hname.relative]
  by_cases hnil : (PurePosixPath.parse name).tail = []
  · -- The destination is the root. Its parent is above it, or is the root again, which exists.
    rw [hnil, List.append_nil]
    split
    · exact .refl root fs
    · next parents hparents =>
      obtain rfl := relativeTo_root hparents
      simp only [safeArchiveParent, hroot, Option.isSome_some, if_true]
      exact .refl root fs
  · rw [relativeTo_parent hnil]
    have hparents : ∀ part ∈ (PurePosixPath.parse name).tail.dropLast, SafePart part :=
      fun part hpart => hname.parts part (List.mem_of_mem_dropLast hpart)
    have hparent : Inside root fs (safeArchiveParent fs (root ++ []) _).1 := inside_safeArchiveParent (by simp) hparents
    rw [List.append_nil] at hparent
    dsimp only
    split
    · next heq =>
      rw [heq] at hparent
      exact hparent
    · next heq =>
      rw [heq] at hparent
      split
      · exact hparent
      · split
        · exact hparent
        · exact hparent.trans (inside_atomicWriteStream hnil hname.parts _ _ _)

theorem inside_extractLoop {l : List (String × ZipInfo)} (hnames : ∀ e ∈ l, SafePath (PurePosixPath.parse e.1))
    (hroot : fs.node root = some .dir) (token : Nat → Token) (turn expanded : Nat) :
    Inside root fs (extractLoop root token fs turn expanded l).1 := by
  induction l generalizing fs turn expanded with
  | nil => exact .refl root fs
  | cons e rest ih =>
    obtain ⟨name, info⟩ := e
    obtain ⟨hname, hrest⟩ := List.forall_mem_cons.mp hnames
    have hentry := inside_extractEntry hname hroot (token turn) (MAX_ARCHIVE_EXPANDED_BYTES - expanded) info
    unfold extractLoop
    split
    · next heq =>
      rw [heq] at hentry
      exact hentry
    · next heq =>
      rw [heq] at hentry
      exact hentry.trans (ih hrest (hentry.1.trans hroot) _ _)

end SmartTest.Source
