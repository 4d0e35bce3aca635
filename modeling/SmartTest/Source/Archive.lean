import Mathlib.Algebra.GroupWithZero.Nat
import SmartTest.Lib.Dict
import SmartTest.Lib.Except
import SmartTest.Lib.PosixPath
import SmartTest.Lib.Text
import Mathlib.Algebra.BigOperators.Group.List.Basic

/-!
# Project archives

`_entrypoint`, `_archive_path` and `_archive_entries` of `source_store.py`. What `zipfile`
makes of the bytes is a list of `ZipInfo`, each with what reading it gives.
-/

open SmartTest.Lib

namespace SmartTest.Source

abbrev Bytes := List UInt8

def MAX_ARCHIVE_BYTES : Nat := 10 * 1024 * 1024
def MAX_ARCHIVE_EXPANDED_BYTES : Nat := 50 * 1024 * 1024
def MAX_ARCHIVE_FILES : Nat := 2000

def S_IFMT : Nat := 0o170000
def S_IFLNK : Nat := 0o120000
def S_IFREG : Nat := 0o100000
def S_IFDIR : Nat := 0o040000

/-- What `zipfile` raises: one of the four exceptions that `_archive_entries` names, or another. -/
inductive ZipFault where
  | invalid | other
  deriving DecidableEq, Repr

inductive SourceError where
  | store (message : String)
  /-- A plain `ValueError`. -/
  | value
  | os
  | zip (fault : ZipFault)
  | endless
  deriving DecidableEq, Repr

/-- An entry of `infolist`. The chunks are what `read` gives until it gives an empty one. -/
structure ZipInfo where
  filename : String
  externalAttr : Nat
  flagBits : Nat
  fileSize : Nat
  openFault : Option ZipFault
  chunks : List Bytes
  nonempty : ∀ chunk ∈ chunks, chunk ≠ []
  readFault : Option ZipFault
  deriving DecidableEq

def ZipInfo.isDir (info : ZipInfo) : Bool := info.filename.toList.getLast? = some '/'

def ZipInfo.content (info : ZipInfo) : Bytes := info.chunks.flatten

/-- `str.casefold`, character by character. Nothing else folds to a dot or a slash. -/
structure CaseFolding where
  fold : Char → List Char
  nonempty : ∀ c, fold c ≠ []
  dot : ∀ c, '.' ∈ fold c ↔ c = '.'
  dotAlone : fold '.' = ['.']

def CaseFolding.casefold (f : CaseFolding) (s : String) : String := .ofList (s.toList.flatMap f.fold)

theorem CaseFolding.casefold_dot (f : CaseFolding) (s : String) : f.casefold s = f.casefold "." ↔ s = "." := by
  constructor
  · intro h
    have hchars : s.toList.flatMap f.fold = ['.'] := by
      have heq := congrArg String.toList h
      simpa [casefold, f.dotAlone] using heq
    cases hs : s.toList with
    | nil => simp [hs] at hchars
    | cons c rest =>
      rw [hs, List.flatMap_cons] at hchars
      have hdot : f.fold c = ['.'] ∧ rest.flatMap f.fold = [] := by
        cases hc : f.fold c with
        | nil => exact absurd hc (f.nonempty c)
        | cons d more =>
          rw [hc] at hchars
          simp only [List.cons_append, List.cons.injEq, List.append_eq_nil_iff] at hchars
          exact ⟨by rw [hchars.1, hchars.2.1], hchars.2.2⟩
      have hc : c = '.' := (f.dot c).mp (by simp [hdot.1])
      have hrest : rest = [] := by
        cases rest with
        | nil => rfl
        | cons d more => simp [f.nonempty d] at hdot
      apply String.toList_inj.mp
      rw [hs, hc, hrest]
      rfl
  · rintro rfl
    rfl

/-! ## Paths -/

def entrypoint (value : String) : Except SourceError PurePosixPath :=
  let chars := value.toList
  if value = "" || value ≠ strip value || '\x5c' ∈ chars || chars.any (·.toNat < 32) then
    .error (.store "entrypoint must be a safe relative POSIX path")
  else
    let path := PurePosixPath.parse value
    if path.isAbsolute || ".." ∈ path.parts || "." ∈ path.parts || path.name = "" || path.str ≠ value ||
        chars.getLast? = some '/' || path.parts.any (fun part => ':' ∈ part.toList) then
      .error (.store "entrypoint must be a safe relative POSIX path")
    else .ok path

/-- Without the slash of a directory. -/
def normalized (value : String) : String :=
  if value.toList.getLast? = some '/' then .ofList value.toList.dropLast else value

def archivePath (value : String) : Except SourceError PurePosixPath :=
  let chars := value.toList
  if value = "" || chars.length > 512 || '\x5c' ∈ chars || '\x00' ∈ chars || chars.head? = some '/' ||
      chars.any (·.toNat < 32) then
    .error (.store "ZIP contains an unsafe path")
  else
    let path := PurePosixPath.parse (normalized value)
    if normalized value = "" || path.isAbsolute || path.str ≠ normalized value ||
        path.parts.any (fun part => part ∈ ["", ".", ".."] || ':' ∈ part.toList) then
      .error (.store "ZIP contains an unsafe path")
    else .ok path

/-! ## The first loop -/

/-- The local variables of `_archive_entries`. -/
structure Scan where
  names : Dict String (String × Bool)
  entries : Dict String ZipInfo
  total : Nat

def scanInfo (f : CaseFolding) (s : Scan) (info : ZipInfo) : Except SourceError Scan := do
  let path ← archivePath info.filename
  let kind := (info.externalAttr / 2 ^ 16) &&& S_IFMT
  if info.flagBits % 2 = 1 then .error (.store "encrypted ZIP entries are not allowed")
  else if kind = S_IFLNK ∨ kind ∉ [0, S_IFREG, S_IFDIR] then
    .error (.store "ZIP links and special files are not allowed")
  else if (s.names.get? (f.casefold path.str)).isSome then
    .error (.store "ZIP contains duplicate or case-conflicting paths")
  else
    let names := s.names.set (f.casefold path.str) (path.str, info.isDir)
    if info.isDir then .ok { s with names := names }
    else if s.entries.keys.length ≥ MAX_ARCHIVE_FILES then .error (.store "ZIP contains too many files")
    else if s.total + info.fileSize > MAX_ARCHIVE_EXPANDED_BYTES then
      .error (.store "expanded ZIP exceeds the 50 MiB limit")
    else .ok ⟨names, s.entries.set path.str info, s.total + info.fileSize⟩

def scan (f : CaseFolding) (s : Scan) : List ZipInfo → Except SourceError Scan
  | [] => .ok s
  | info :: rest => do
    let s ← scanInfo f s info
    scan f s rest

/-! ## The other loops -/

/-- The `while` loop over the ancestors of one file. -/
def ancestorWalk (f : CaseFolding) (names : Dict String (String × Bool)) :
    (fuel : Nat) → PurePosixPath → Except SourceError Unit
  | 0, _ => .error .endless
  | fuel + 1, parent =>
    if parent.str = "." then .ok ()
    else match names.get? (f.casefold parent.str) with
      | some (_, false) => .error (.store "ZIP file path conflicts with a parent file")
      | _ => ancestorWalk f names fuel parent.parent

def checkParents (f : CaseFolding) (names : Dict String (String × Bool)) : List String → Except SourceError Unit
  | [] => .ok ()
  | name :: rest => do
    let path := PurePosixPath.parse name
    ancestorWalk f names (path.tail.length + 1) path.parent
    checkParents f names rest

def readChunks (actual : Nat) : List Bytes → Except SourceError Nat
  | [] => .ok actual
  | chunk :: rest =>
    if actual + chunk.length > MAX_ARCHIVE_EXPANDED_BYTES then
      .error (.store "expanded ZIP exceeds the 50 MiB limit")
    else readChunks (actual + chunk.length) rest

def raiseFault : Option ZipFault → Except SourceError Unit
  | some fault => .error (.zip fault)
  | none => .ok ()

def verifyPayload (actual : Nat) : List ZipInfo → Except SourceError Nat
  | [] => .ok actual
  | info :: rest => do
    raiseFault info.openFault
    let actual ← readChunks actual info.chunks
    raiseFault info.readFault
    verifyPayload actual rest

/-- The body of `_archive_entries` on the entries of the archive. -/
def acceptEntries (f : CaseFolding) (infos : List ZipInfo) (payload : Bool) :
    Except SourceError (Dict String ZipInfo) := do
  let s ← scan f ⟨.empty, .empty, 0⟩ infos
  checkParents f s.names s.entries.keys
  if s.entries.keys = [] then .error (.store "project ZIP does not contain any files")
  else if payload then
    let _ ← verifyPayload 0 s.entries.values
    return s.entries
  else return s.entries

/-- The `except` clauses. -/
def catchZip {α : Type} : Except SourceError α → Except SourceError α
  | .error (.zip .invalid) => .error (.store "project source must be a valid, unencrypted ZIP")
  | result => result

/-! ## What is accepted -/

def pathOf (info : ZipInfo) : PurePosixPath := PurePosixPath.parse (normalized info.filename)

def fileInfos (infos : List ZipInfo) : List ZipInfo := infos.filter fun info => !info.isDir

structure SafePath (path : PurePosixPath) : Prop where
  relative : path.Relative
  up : ∀ part ∈ path.tail, part ≠ ".."

theorem parts_eq {path : PurePosixPath} (h : path.Relative) : path.parts = path.tail := by
  simp [PurePosixPath.parts, h.root]

theorem archivePath_ok {value : String} {path : PurePosixPath} (h : archivePath value = .ok path) :
    path = PurePosixPath.parse (normalized value) ∧ SafePath path ∧ path.str = normalized value := by
  simp only [archivePath, ite_error_eq_ok_iff, Except.ok.injEq] at h
  obtain ⟨-, hgood, rfl⟩ := h
  simp only [Bool.or_eq_true, decide_eq_true_eq, not_or, List.any_eq_true, not_exists, not_and, ne_eq,
    not_not, Bool.not_eq_true] at hgood
  obtain ⟨⟨⟨-, habsolute⟩, hstr⟩, hparts⟩ := hgood
  have hrelative := PurePosixPath.relative_parse habsolute
  refine ⟨rfl, ⟨hrelative, ?_⟩, hstr⟩
  rintro part hpart rfl
  rw [parts_eq hrelative] at hparts
  exact (hparts ".." hpart).1 (by simp)

theorem entrypoint_ok {value : String} {path : PurePosixPath} (h : entrypoint value = .ok path) :
    SafePath path ∧ path.tail ≠ [] ∧ path.str = value := by
  simp only [entrypoint, ite_error_eq_ok_iff, Except.ok.injEq] at h
  obtain ⟨-, hgood, rfl⟩ := h
  simp only [Bool.or_eq_true, decide_eq_true_eq, not_or, ne_eq, not_not, Bool.not_eq_true] at hgood
  obtain ⟨⟨⟨⟨⟨⟨habsolute, hup⟩, -⟩, hname⟩, hstr⟩, -⟩, -⟩ := hgood
  have hrelative := PurePosixPath.relative_parse habsolute
  rw [parts_eq hrelative] at hup
  refine ⟨⟨hrelative, ?_⟩, ?_, hstr⟩
  · rintro part hpart rfl
    exact hup hpart
  · intro hnil
    simp [PurePosixPath.name, hnil] at hname

end SmartTest.Source
