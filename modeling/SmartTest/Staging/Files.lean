import Mathlib.Data.Option.Basic
import Mathlib.Data.List.Induction
import Mathlib.Data.List.Nodup
import Mathlib.Logic.Function.Basic
import SmartTest.Lib.PosixPath
import SmartTest.Lib.Prog
import SmartTest.Lib.Text
import SmartTest.Lib.Utf8

/-!
# Secret files

`SecretFileStager` of `services/secret_files.py` writes secrets into a directory of their own,
and `secret_path` of `runner/secrets.py` says where a runner finds them. Every call of the
operating system may fail, and a write may put down a part only.
-/

open SmartTest.Lib SmartTest.Lib.Prog

namespace SmartTest.Staging

/-! ## Paths -/

/-- `path / value`. -/
def join (path : PurePosixPath) (value : String) : PurePosixPath :=
  let other := PurePosixPath.parse value
  if other.isAbsolute then other else ⟨path.root, path.tail ++ other.tail⟩

def climb (parts : List String) (part : String) : List String :=
  if part = ".." then parts.dropLast else parts ++ [part]

/-- `path.resolve()` without symbolic links: the names on the way from the top. -/
def resolve (cwd : List String) (path : PurePosixPath) : List String :=
  path.tail.foldl climb (if path.isAbsolute then [] else cwd)

/-! ## Names -/

def isKeyStart (c : Char) : Bool := c.isAlpha || c = '_'

/-- `^[A-Za-z_][A-Za-z0-9_...]{0,127}$`, with the characters it allows beyond letters, digits and underscores. -/
def matchesKey (more : List Char) (name : String) : Bool :=
  match name.toList with
  | [] => false
  | c :: rest => isKeyStart c && rest.all (fun d => d.isAlphanum || d = '_' || d ∈ more) && decide (rest.length ≤ 127)

namespace SecretFiles

def ENV_KEY : String → Bool := matchesKey []

def COMMON_KEY : String → Bool := matchesKey ['.', '-']

def CATEGORIES (category : String) : Option (String → Bool) :=
  if category = "environment_variable" then some ENV_KEY
  else if category = "common_parameter" then some COMMON_KEY
  else none

end SecretFiles

namespace RunnerSecrets

def PATTERNS (category : String) : Option (String → Bool) :=
  if category = "environment_variable" then some (matchesKey [])
  else if category = "common_parameter" then some (matchesKey ['.', '-'])
  else none

end RunnerSecrets

/-- `secret_path`; `none` is its `ValueError`. -/
def secretPath (cwd : List String) (category name : String) (root : PurePosixPath) : Option (List String) := do
  let pattern ← RunnerSecrets.PATTERNS category
  guard (pattern name)
  let resolvedRoot := resolve cwd root
  let resolved := resolve cwd (join (join ⟨"/", resolvedRoot⟩ category) name)
  guard (resolvedRoot.isPrefixOf resolved)
  return resolved

/-! ## The operating system -/

inductive Failure where
  | os | fileExists | notImplemented | staging
  deriving DecidableEq

/-- What the next call of the operating system does. -/
inductive Fault where
  | none
  | fails (failure : Failure)
  | short (count : Nat)

inductive Node where
  | directory
  | file (content : List UInt8)
  deriving DecidableEq

abbrev Tree := List String → Option Node

/-- The text of `token_hex`. -/
structure Token where
  text : String
  nonempty : text ≠ ""
  hex : ∀ c ∈ text.toList, c ∈ "0123456789abcdef".toList

/-- The files, and what comes next: a fault and a random text. -/
structure Disk where
  tree : Tree
  fault : Fault
  token : Token

abbrev StageM (α : Type) := Prog Unit Disk Failure α

/-- A call that may fail, and otherwise does what `f` says. -/
def osCall {α : Type} (f : Tree → Except Failure (α × Tree)) : StageM α :=
  .op () fun d =>
    match d.fault with
    | .fails failure => (.error failure, d)
    | _ =>
      match f d.tree with
      | .ok (a, tree) => (.ok a, { d with tree := tree })
      | .error e => (.error e, d)

def mkdir (path : List String) : StageM Unit :=
  osCall fun tree =>
    if (tree path).isSome then .error .fileExists
    else if tree path.dropLast = some .directory then .ok ((), Function.update tree path (some .directory))
    else .error .os

/-- `chmod` and `chown` leave the tree as it is. -/
def touch (path : List String) : StageM Unit :=
  osCall fun tree => if (tree path).isSome then .ok ((), tree) else .error .os

/-- `os.open` with `O_CREAT | O_EXCL`. -/
def createFile (path : List String) : StageM Unit :=
  osCall fun tree =>
    if (tree path).isSome then .error .fileExists
    else if tree path.dropLast = some .directory then .ok ((), Function.update tree path (some (.file [])))
    else .error .os

/-- `os.write` puts down a part of the bytes and says how many. -/
def write (path : List String) (view : List UInt8) : StageM Nat :=
  .op () fun d =>
    let put (count : Nat) : Except Failure Nat × Disk :=
      match d.tree path with
      | some (.file content) =>
        (.ok count, { d with tree := Function.update d.tree path (some (.file (content ++ view.take count))) })
      | _ => (.error .os, d)
    match d.fault with
    | .fails failure => (.error failure, d)
    | .short count => put (min count view.length)
    | .none => put view.length

def close : StageM Unit := osCall fun tree => .ok ((), tree)

/-- `shutil.rmtree`, which is taken to succeed where there is something. -/
def rmtree (path : List String) : StageM Unit :=
  .op () fun d =>
    if (d.tree path).isSome then (.ok (), { d with tree := fun p => if path.isPrefixOf p then none else d.tree p })
    else (.error .os, d)

def tokenHex : StageM Token := .op () fun d => (.ok d.token, d)

/-- `try: body finally: last`. -/
def tryFinally {α : Type} (body : StageM α) (last : StageM Unit) : StageM α := do
  let a ← body.handle fun e => do
    last
    throw e
  last
  return a

/-! ## The stager -/

structure ResolvedSecretValue where
  category : String
  name : String
  value : String
  deriving DecidableEq

structure SecretFileStager where
  root : PurePosixPath
  /-- Whether the verifier accepts the root. -/
  verifier : Tree → PurePosixPath → Bool
  maximumSecretBytes : Nat
  /-- The working directory. -/
  cwd : List String
  cwd_resolved : ".." ∉ cwd

namespace SecretFileStager

variable (stager : SecretFileStager)

/-- The loop of `_validate`. -/
def validateLoop : List ResolvedSecretValue → (validated : List (String × String × List UInt8)) →
    (identities : List (String × String)) → Except Failure (List (String × String × List UInt8))
  | [], validated, _ => .ok validated
  | secret :: rest, validated, identities =>
    match SecretFiles.CATEGORIES secret.category with
    | none => .error .staging
    | some pattern =>
      if ¬ pattern secret.name then .error .staging
      else if (secret.category, secret.name) ∈ identities then .error .staging
      else
        let encoded := Utf8.encode secret.value.toList
        if encoded.length > stager.maximumSecretBytes then .error .staging
        else validateLoop rest (validated ++ [(secret.category, secret.name, encoded)])
          ((secret.category, secret.name) :: identities)

def validate (secrets : List ResolvedSecretValue) : Except Failure (List (String × String × List UInt8)) :=
  stager.validateLoop secrets [] []

def verifyRoot : StageM Unit :=
  osCall fun tree => if stager.verifier tree stager.root then .ok ((), tree) else .error .staging

def restrictMode (path : List String) : StageM Unit :=
  (touch path).handle fun e => if e = .notImplemented then touch path else throw e

def changeOwner (path : List String) : StageM Unit := touch path

def cleanup (child : PurePosixPath) : StageM Unit :=
  (rmtree (resolve stager.cwd child)).handle fun _ => throw .staging

/-- The loop of `_create_child`. -/
def createChildLoop : Nat → StageM PurePosixPath
  | 0 => throw .staging
  | rounds + 1 => do
    let token ← tokenHex
    let child := join stager.root token.text
    let made ← (mkdir (resolve stager.cwd child) >>= fun _ => pure true).handle fun e =>
      if e = .fileExists then pure false else throw e
    if made then
      (do restrictMode (resolve stager.cwd child)
          changeOwner (resolve stager.cwd child)
          return child).handle fun e => do
        stager.cleanup child
        throw e
    else createChildLoop rounds

def createChild : StageM PurePosixPath := stager.createChildLoop 128

/-- `while view`: each round writes a byte at least. -/
def writeLoop (path : List String) : (rounds : Nat) → (view : List UInt8) → StageM Unit
  | _, [] => return
  | 0, _ :: _ => throw .os
  | rounds + 1, b :: rest => do
    let written ← write path (b :: rest)
    if written = 0 then throw .os
    else writeLoop path rounds ((b :: rest).drop written)

def makeDirectory (path : List String) : StageM Unit := do
  mkdir path
  restrictMode path
  changeOwner path

def writeValue (path : List String) (value : List UInt8) : StageM Unit := do
  createFile path
  tryFinally (do
    writeLoop path value.length value
    touch path) close
  changeOwner path

/-- A category's directory is made once. -/
def ensureDirectory (path : List String) (known : Bool) : StageM Unit :=
  if known then return else makeDirectory path

/-- The loop of `_write_values`; `categories` are those with a directory. -/
def writeValues (child : PurePosixPath) : (categories : List String) → List (String × String × List UInt8) → StageM Unit
  | _, [] => return
  | categories, (category, name, value) :: rest => do
    ensureDirectory (resolve stager.cwd (join child category)) (category ∈ categories)
    writeValue (resolve stager.cwd (join (join child category) name)) value
    writeValues child (if category ∈ categories then categories else category :: categories) rest

/-- Up to the `yield` of `stage`. Nothing is there to clean up before `_create_child` returns. -/
def enter (secrets : List ResolvedSecretValue) : StageM PurePosixPath :=
  (do
    let validated ← (match stager.validate secrets with
      | .ok validated => pure validated
      | .error e => throw e : StageM _)
    stager.verifyRoot
    let child ← stager.createChild
    (stager.writeValues child [] validated).handle fun _ => do
      stager.cleanup child
      throw .staging
    return child : StageM _).handle fun _ => throw .staging

/-- The rest of `stage`, around the block of the `with` statement. -/
def leave {α : Type} (child : PurePosixPath) (body : StageM α) : StageM α := tryFinally body (stager.cleanup child)

/-- `with stager.stage(secrets) as child: body`. -/
def stage {α : Type} (secrets : List ResolvedSecretValue) (body : PurePosixPath → StageM α) : StageM α := do
  let child ← stager.enter secrets
  stager.leave child (body child)

end SecretFileStager

/-! ## Where a secret is -/

/-- A name that leads down by one directory. -/
def NameDown (part : String) : Prop := PurePosixPath.GoodPart part ∧ part ≠ ".."

theorem join_name {path : PurePosixPath} {part : String} (h : NameDown part) :
    join path part = ⟨path.root, path.tail ++ [part]⟩ := by
  have hrelative : PurePosixPath.Relative ⟨"", [part]⟩ := ⟨rfl, by simpa using h.1⟩
  have hstr : PurePosixPath.str ⟨"", [part]⟩ = part := by
    have hne : part ≠ "" := h.1.1
    simp [PurePosixPath.str, PurePosixPath.text, hne]
  have hparse := hrelative.parse_str
  rw [hstr] at hparse
  simp [join, hparse, PurePosixPath.isAbsolute]

theorem resolve_join {cwd : List String} {path : PurePosixPath} {part : String} (h : NameDown part) :
    resolve cwd (join path part) = resolve cwd path ++ [part] := by
  rw [join_name h]
  simp [resolve, List.foldl_append, climb, h.2, PurePosixPath.isAbsolute]

theorem foldl_climb_noDots {parts start : List String} (h : ".." ∉ start) : ".." ∉ parts.foldl climb start := by
  induction parts generalizing start with
  | nil => exact h
  | cons part rest ih =>
    refine ih ?_
    unfold climb
    split
    · exact fun hin => h (List.mem_of_mem_dropLast hin)
    · next hne => simp [h, Ne.symm hne]

theorem foldl_climb_of_noDots {parts start : List String} (h : ".." ∉ parts) : parts.foldl climb start = start ++ parts := by
  induction parts generalizing start with
  | nil => simp
  | cons part rest ih =>
    rw [List.mem_cons, not_or] at h
    rw [List.foldl_cons, ih h.2, climb, if_neg (Ne.symm h.1), List.append_assoc]
    rfl

/-- Resolving what is resolved changes nothing. -/
theorem resolve_resolve {cwd : List String} (hcwd : ".." ∉ cwd) (path : PurePosixPath) :
    resolve cwd ⟨"/", resolve cwd path⟩ = resolve cwd path := by
  have hnoDots : ".." ∉ resolve cwd path := by
    refine foldl_climb_noDots ?_
    split
    · simp
    · exact hcwd
  rw [resolve, foldl_climb_of_noDots hnoDots]
  simp [PurePosixPath.isAbsolute]

theorem nameDown_of_matches {more : List Char} {name : String} (hmore : '/' ∉ more) (h : matchesKey more name = true) :
    NameDown name := by
  unfold matchesKey at h
  split at h
  · cases h
  · next c rest hchars =>
    simp only [Bool.and_eq_true, List.all_eq_true] at h
    obtain ⟨⟨hstart, hrest⟩, -⟩ := h
    have hdot : c ≠ '.' := by
      rintro rfl
      revert hstart
      decide
    have hslash : c ≠ '/' := by
      rintro rfl
      revert hstart
      decide
    have hname : ∀ text : String, text.toList.head? ≠ some c → name ≠ text := by
      rintro text hne rfl
      rw [hchars] at hne
      exact hne rfl
    refine ⟨⟨hname "" (by simp), hname "." (by simpa using Ne.symm hdot), ?_⟩, hname ".." (by simpa using Ne.symm hdot)⟩
    rw [hchars, List.mem_cons, not_or]
    refine ⟨Ne.symm hslash, fun hin => ?_⟩
    have hallowed := hrest '/' hin
    rw [decide_eq_false hmore] at hallowed
    revert hallowed
    decide

/-- Both tables are the same. -/
theorem categories_patterns (category : String) : SecretFiles.CATEGORIES category = RunnerSecrets.PATTERNS category := rfl

theorem nameDown_of_category {category name : String} {pattern : String → Bool}
    (h : SecretFiles.CATEGORIES category = some pattern) (hname : pattern name = true) : NameDown category ∧ NameDown name := by
  unfold SecretFiles.CATEGORIES at h
  split at h
  · next heq =>
    cases h
    subst heq
    exact ⟨⟨⟨by decide, by decide, by decide⟩, by decide⟩, nameDown_of_matches (by decide) hname⟩
  · split at h
    · next heq =>
      cases h
      subst heq
      exact ⟨⟨⟨by decide, by decide, by decide⟩, by decide⟩, nameDown_of_matches (by decide) hname⟩
    · cases h

theorem secretPath_eq {cwd : List String} (hcwd : ".." ∉ cwd) {category name : String} {pattern : String → Bool}
    (h : SecretFiles.CATEGORIES category = some pattern) (hname : pattern name = true) (root : PurePosixPath) :
    secretPath cwd category name root = some (resolve cwd root ++ [category, name]) := by
  obtain ⟨hcategory, hdown⟩ := nameDown_of_category h hname
  have hresolved : resolve cwd (join (join ⟨"/", resolve cwd root⟩ category) name) = resolve cwd root ++ [category, name] := by
    rw [resolve_join hdown, resolve_join hcategory, resolve_resolve hcwd, List.append_assoc]
    rfl
  have hinside : (resolve cwd root).isPrefixOf (resolve cwd root ++ [category, name]) = true :=
    List.isPrefixOf_iff_prefix.mpr (List.prefix_append _ _)
  rw [categories_patterns] at h
  simp [secretPath, h, hname, hresolved, hinside]

theorem nameDown_token (token : Token) : NameDown token.text := by
  have hchars : ∀ c ∈ token.text.toList, c ≠ '.' ∧ c ≠ '/' := by
    intro c hc
    have hhex := token.hex c hc
    constructor
    · rintro rfl
      revert hhex
      decide
    · rintro rfl
      revert hhex
      decide
  have hdots : ∀ text : String, '.' ∈ text.toList → token.text ≠ text := by
    rintro text hin heq
    rw [← heq] at hin
    exact (hchars '.' hin).1 rfl
  exact ⟨⟨token.nonempty, hdots "." (by decide), fun hin => (hchars '/' hin).2 rfl⟩, hdots ".." (by decide)⟩

/-! ## Rules for calls -/

def Fault.Fine : Fault → Prop
  | .none => True
  | .fails _ => False
  | .short count => 0 < count

/-- Nobody else touches the tree. When `smooth`, no call fails and every random text is a new one. -/
def alone (stager : SecretFileStager) (smooth : Prop) : Rules Unit Disk Unit where
  obs _ _ := ()
  inv _ := True
  rely x y := y.1.tree = x.1.tree ∧ (smooth → y.1.fault.Fine ∧
    y.1.tree (resolve stager.cwd stager.root ++ [y.1.token.text]) = none)
  trust _ _ _ := True
  guar _ _ _ := True
  guar_inv _ _ _ _ _ _ := trivial

variable {stager : SecretFileStager} {smooth : Prop} {α β : Type} {P O : Tree → Prop} {Q : α → Tree → Prop}
  {E : Failure → Tree → Prop}

/-- A triple about the tree alone. -/
def TreeTriple (stager : SecretFileStager) (smooth : Prop) (P : Tree → Prop) (p : StageM α) (Q : α → Tree → Prop)
    (E : Failure → Tree → Prop) : Prop :=
  Triple (alone stager smooth) (fun x => P x.1.tree) p (fun a x => Q a x.1.tree) fun e x => E e x.1.tree

namespace TreeTriple

theorem bind {p : StageM α} {k : α → StageM β} {R : β → Tree → Prop} (hp : TreeTriple stager smooth P p Q E)
    (hk : ∀ a, TreeTriple stager smooth (Q a) (k a) R E) : TreeTriple stager smooth P (p >>= k) R E :=
  Triple.bind hp hk

theorem handle {p : StageM α} {h : Failure → StageM α} {E' : Failure → Tree → Prop} (hp : TreeTriple stager smooth P p Q E)
    (hh : ∀ e, TreeTriple stager smooth (E e) (h e) Q E') : TreeTriple stager smooth P (p.handle h) Q E' :=
  Triple.handle hp hh

theorem ret {a : α} (h : ∀ t, P t → Q a t) : TreeTriple stager smooth P (pure a) Q E := fun x _ hP => h x.1.tree hP

theorem raise {e : Failure} (h : ∀ t, P t → E e t) : TreeTriple stager smooth P (throw e) Q E :=
  fun x _ hP => h x.1.tree hP

theorem weaken {p : StageM α} {P' : Tree → Prop} {Q' : α → Tree → Prop} {E' : Failure → Tree → Prop}
    (h : TreeTriple stager smooth P p Q E) (hP : ∀ t, P' t → P t) (hQ : ∀ a t, Q a t → Q' a t)
    (hE : ∀ e t, E e t → E' e t) : TreeTriple stager smooth P' p Q' E' :=
  Triple.weaken h (fun _ _ hx => hP _ hx) (fun _ _ _ hx => hQ _ _ hx) fun _ _ _ hx => hE _ _ hx

/-- A fact that does not depend on the tree. -/
theorem assume {φ : Prop} {p : StageM α} (h : φ → TreeTriple stager smooth P p Q E) :
    TreeTriple stager smooth (fun t => P t ∧ φ) p Q E := fun x hx hP => h hP.2 x hx hP.1

end TreeTriple

theorem op_alone {f : Disk → Except Failure α × Disk} (h : ∀ d, P d.tree → (smooth → d.fault.Fine ∧
      d.tree (resolve stager.cwd stager.root ++ [d.token.text]) = none) →
    match (f d).1 with
    | .ok a => Q a (f d).2.tree
    | .error e => E e (f d).2.tree) : TreeTriple stager smooth P (.op () f) Q E := by
  intro x _ hP y _ hrely _
  refine ⟨trivial, ?_⟩
  rw [← hrely.1] at hP
  have hpost := h y.1 hP hrely.2
  dsimp only
  cases hf : (f y.1).1 with
  | ok a =>
    rw [hf] at hpost
    exact hpost
  | error e =>
    rw [hf] at hpost
    exact hpost

theorem osCall_alone {f : Tree → Except Failure (α × Tree)} (hok : ∀ t a t', P t → f t = .ok (a, t') → Q a t')
    (herr : ∀ t e, P t → f t = .error e → E e t) (hfail : ¬ smooth → ∀ t e, P t → E e t) :
    TreeTriple stager smooth P (osCall f) Q E := by
  refine op_alone fun d hP hfine => ?_
  cases hfault : d.fault with
  | fails failure =>
    simp only
    refine hfail (fun hs => ?_) _ _ hP
    rw [hfault] at hfine
    exact (hfine hs).1
  | none =>
    simp only
    cases hf : f d.tree with
    | ok p => exact hok _ _ _ hP hf
    | error e => exact herr _ _ hP hf
  | short count =>
    simp only
    cases hf : f d.tree with
    | ok p => exact hok _ _ _ hP hf
    | error e => exact herr _ _ hP hf

/-- Calls that leave the tree alone. -/
theorem touch_alone {path : List String} (hsome : ∀ t, P t → (t path).isSome) (hE : ¬ smooth → ∀ t e, P t → E e t) :
    TreeTriple stager smooth P (touch path) (fun _ => P) E := by
  refine osCall_alone ?_ ?_ hE
  · intro t a t' hP h
    rw [if_pos (hsome t hP)] at h
    cases h
    exact hP
  · intro t e hP h
    rw [if_pos (hsome t hP)] at h
    cases h

theorem restrictMode_alone {path : List String} (hsome : ∀ t, P t → (t path).isSome)
    (hE : ¬ smooth → ∀ t e, P t → E e t) :
    TreeTriple stager smooth P (SecretFileStager.restrictMode path) (fun _ => P) E := by
  refine (touch_alone (E := fun _ t => P t ∧ ¬ smooth) hsome fun hs t _ hP => ⟨hP, hs⟩).handle fun e => ?_
  refine .assume fun hs => ?_
  split
  · exact touch_alone hsome hE
  · exact .raise fun t hP => hE hs _ _ hP

/-! ## The staged directory -/

/-- Nothing outside `base` was touched, and `base` is there. -/
structure Within (t₀ : Tree) (base : List String) (t : Tree) : Prop where
  outside : ∀ p, ¬ base <+: p → t p = t₀ p
  here : t base = some .directory

/-- What has been made so far. -/
structure Staged (t₀ : Tree) (base categories : List String) (written : String × String → Option (List UInt8))
    (t : Tree) : Prop extends Within t₀ base t where
  category : ∀ c, t (base ++ [c]) = if c ∈ categories then some .directory else none
  content : ∀ c n, t (base ++ [c, n]) = (written (c, n)).map .file

variable {t₀ t : Tree} {base categories : List String} {written : String × String → Option (List UInt8)} {c n : String}

theorem Within.update (h : Within t₀ base t) {path : List String} (hpath : base <+: path) (hne : path ≠ base)
    (node : Node) : Within t₀ base (Function.update t path (some node)) where
  outside := by
    intro p hp
    rw [Function.update_of_ne, h.outside p hp]
    rintro rfl
    exact hp hpath
  here := by
    rw [Function.update_of_ne hne.symm]
    exact h.here

theorem Staged.addCategory (h : Staged t₀ base categories written t) :
    Staged t₀ base (c :: categories) written (Function.update t (base ++ [c]) (some .directory)) where
  toWithin := h.toWithin.update (List.prefix_append _ _) (by simp) _
  category := by
    intro c'
    by_cases heq : c' = c
    · subst heq
      simp
    · rw [Function.update_of_ne (by simpa using heq), h.category]
      simp [heq]
  content := by
    intro c' n'
    rw [Function.update_of_ne (by simp), h.content]

theorem Staged.setContent (h : Staged t₀ base categories written t) (bytes : List UInt8) :
    Staged t₀ base categories (Function.update written (c, n) (some bytes))
      (Function.update t (base ++ [c, n]) (some (.file bytes))) where
  toWithin := h.toWithin.update (List.prefix_append _ _) (by simp) _
  category := by
    intro c'
    rw [Function.update_of_ne (by simp), h.category]
  content := by
    intro c' n'
    by_cases heq : c' = c ∧ n' = n
    · obtain ⟨rfl, rfl⟩ := heq
      simp
    · rw [Function.update_of_ne (by simpa using heq), Function.update_of_ne (by simpa using heq), h.content]

/-- What a failure leaves behind: something to remove, and only where nothing was. -/
def Broken (smooth : Prop) (t₀ : Tree) (base : List String) : Failure → Tree → Prop := fun _ t =>
  ¬ smooth ∧ Within t₀ base t

theorem Staged.broken (hs : ¬ smooth) : ∀ t (e : Failure), Staged t₀ base categories written t → Broken smooth t₀ base e t :=
  fun _ _ h => ⟨hs, h.toWithin⟩

theorem makeDirectory_staged (hc : c ∉ categories) :
    TreeTriple stager smooth (Staged t₀ base categories written) (SecretFileStager.makeDirectory (base ++ [c]))
      (fun _ => Staged t₀ base (c :: categories) written) (Broken smooth t₀ base) := by
  have hthere : ∀ t, Staged t₀ base (c :: categories) written t → (t (base ++ [c])).isSome := by
    intro t h
    rw [h.category, if_pos List.mem_cons_self]
    rfl
  have hmkdir : TreeTriple stager smooth (Staged t₀ base categories written) (mkdir (base ++ [c]))
      (fun _ => Staged t₀ base (c :: categories) written) (Broken smooth t₀ base) := by
    refine osCall_alone ?_ ?_ Staged.broken
    · intro t a t' h hok
      rw [h.category, if_neg hc, if_neg (by simp), List.dropLast_concat, if_pos h.here] at hok
      cases hok
      exact h.addCategory
    · intro t e h herr
      rw [h.category, if_neg hc, if_neg (by simp), List.dropLast_concat, if_pos h.here] at herr
      cases herr
  exact hmkdir.bind fun _ => (restrictMode_alone hthere Staged.broken).bind fun _ => touch_alone hthere Staged.broken

theorem createFile_staged (hc : c ∈ categories) (hfree : written (c, n) = none) :
    TreeTriple stager smooth (Staged t₀ base categories written) (createFile (base ++ [c, n]))
      (fun _ => Staged t₀ base categories (Function.update written (c, n) (some []))) (Broken smooth t₀ base) := by
  have hparent : (base ++ [c, n]).dropLast = base ++ [c] := by simp
  refine osCall_alone ?_ ?_ Staged.broken
  · intro t a t' h hok
    rw [h.content, hfree, if_neg (by simp), hparent, h.category, if_pos hc, if_pos rfl] at hok
    cases hok
    exact h.setContent []
  · intro t e h herr
    rw [h.content, hfree, if_neg (by simp), hparent, h.category, if_pos hc, if_pos rfl] at herr
    cases herr

theorem write_staged {bytes view : List UInt8} (hview : view ≠ []) (hbytes : written (c, n) = some bytes) :
    TreeTriple stager smooth (Staged t₀ base categories written) (write (base ++ [c, n]) view)
      (fun count t => (Staged t₀ base categories (Function.update written (c, n) (some (bytes ++ view.take count))) t ∧
        count ≤ view.length) ∧ (smooth → 0 < count)) (Broken smooth t₀ base) := by
  refine op_alone fun d h hfine => ?_
  have hnode : d.tree (base ++ [c, n]) = some (.file bytes) := by
    rw [h.content, hbytes]
    rfl
  have hlength : 0 < view.length := List.length_pos_iff.mpr hview
  cases hfault : d.fault with
  | fails failure =>
    simp only
    refine ⟨fun hs => ?_, h.toWithin⟩
    rw [hfault] at hfine
    exact (hfine hs).1
  | none =>
    simp only [hnode]
    exact ⟨⟨h.setContent _, Nat.le_refl _⟩, fun _ => hlength⟩
  | short count =>
    simp only [hnode]
    refine ⟨⟨h.setContent _, Nat.min_le_right _ _⟩, fun hs => ?_⟩
    rw [hfault] at hfine
    exact Nat.lt_min.mpr ⟨(hfine hs).1, hlength⟩

/-- The loop writes the whole view, in as many pieces as it takes. -/
theorem writeLoop_staged {bytes view : List UInt8} {rounds : Nat} (hrounds : view.length ≤ rounds)
    (hbytes : written (c, n) = some bytes) :
    TreeTriple stager smooth (Staged t₀ base categories written) (SecretFileStager.writeLoop (base ++ [c, n]) rounds view)
      (fun _ => Staged t₀ base categories (Function.update written (c, n) (some (bytes ++ view))))
      (Broken smooth t₀ base) := by
  induction rounds generalizing bytes view written with
  | zero =>
    obtain rfl := List.length_eq_zero_iff.mp (Nat.le_zero.mp hrounds)
    refine .ret fun t h => ?_
    rwa [List.append_nil, ← hbytes, Function.update_eq_self]
  | succ rounds ih =>
    cases view with
    | nil =>
      refine .ret fun t h => ?_
      rwa [List.append_nil, ← hbytes, Function.update_eq_self]
    | cons b rest =>
      refine (write_staged (List.cons_ne_nil b rest) hbytes).bind fun count => .assume fun hpos => ?_
      split
      · next hzero => exact .raise fun t h => ⟨fun hs => (hpos hs).ne' hzero, h.1.toWithin⟩
      · next hzero =>
        refine .assume fun hcount => ?_
        have hwritten : Function.update written (c, n) (some (bytes ++ (b :: rest).take count)) (c, n) =
            some (bytes ++ (b :: rest).take count) := Function.update_self ..
        have hrest := @ih _ _ ((b :: rest).drop count) (by simp only [List.length_drop]; omega) hwritten
        rwa [Function.update_idem, List.append_assoc, List.take_append_drop] at hrest

theorem writeValue_staged {value : List UInt8} (hc : c ∈ categories) (hfree : written (c, n) = none) :
    TreeTriple stager smooth (Staged t₀ base categories written) (SecretFileStager.writeValue (base ++ [c, n]) value)
      (fun _ => Staged t₀ base categories (Function.update written (c, n) (some value))) (Broken smooth t₀ base) := by
  have hthere : ∀ t, Staged t₀ base categories (Function.update written (c, n) (some value)) t →
      (t (base ++ [c, n])).isSome := by
    intro t h
    rw [h.content, Function.update_self]
    rfl
  have hclose : ∀ {P : Tree → Prop} {E : Failure → Tree → Prop}, (¬ smooth → ∀ t e, P t → E e t) →
      TreeTriple stager smooth P close (fun _ => P) E := by
    intro P E hE
    refine osCall_alone ?_ ?_ hE
    · intro t a t' hP hok
      cases hok
      exact hP
    · intro t e hP herr
      cases herr
  have hbody : TreeTriple stager smooth (Staged t₀ base categories (Function.update written (c, n) (some [])))
      (do SecretFileStager.writeLoop (base ++ [c, n]) value.length value
          touch (base ++ [c, n]))
      (fun _ => Staged t₀ base categories (Function.update written (c, n) (some value))) (Broken smooth t₀ base) := by
    have hloop := @writeLoop_staged stager smooth t₀ base categories _ c n _ value _ (Nat.le_refl _)
      (Function.update_self (c, n) (some []) written)
    rw [Function.update_idem, List.nil_append] at hloop
    exact hloop.bind fun _ => touch_alone hthere Staged.broken
  have hfinally : TreeTriple stager smooth (Staged t₀ base categories (Function.update written (c, n) (some [])))
      (tryFinally (do
        SecretFileStager.writeLoop (base ++ [c, n]) value.length value
        touch (base ++ [c, n])) close)
      (fun _ => Staged t₀ base categories (Function.update written (c, n) (some value))) (Broken smooth t₀ base) := by
    refine (hbody.handle fun e => ?_).bind fun _ => (hclose Staged.broken).bind fun _ => .ret fun t h => h
    exact (hclose fun _ t _ h => h).bind fun _ => .raise fun t h => h
  exact (createFile_staged hc hfree).bind fun _ => hfinally.bind fun _ => touch_alone hthere Staged.broken

/-- A list of values under the keys where they are written. -/
def writtenAs (values : List (String × String × List UInt8)) (written : String × String → Option (List UInt8)) :
    String × String → Option (List UInt8) :=
  values.foldl (fun written value => Function.update written (value.1, value.2.1) (some value.2.2)) written

theorem writeValues_staged {child : PurePosixPath} {values : List (String × String × List UInt8)}
    (hbase : resolve stager.cwd child = base) (hnames : ∀ value ∈ values, NameDown value.1 ∧ NameDown value.2.1)
    (hkeys : (values.map fun value => (value.1, value.2.1)).Nodup)
    (hfree : ∀ value ∈ values, written (value.1, value.2.1) = none) :
    TreeTriple stager smooth (Staged t₀ base categories written) (stager.writeValues child categories values)
      (fun _ t => ∃ categories, Staged t₀ base categories (writtenAs values written) t) (Broken smooth t₀ base) := by
  induction values generalizing categories written with
  | nil => exact .ret fun t h => ⟨categories, h⟩
  | cons value rest ih =>
    obtain ⟨c, n, bytes⟩ := value
    obtain ⟨⟨hc, hn⟩, hnames⟩ := List.forall_mem_cons.mp hnames
    obtain ⟨hfreeHead, hfree⟩ := List.forall_mem_cons.mp hfree
    rw [List.map_cons, List.nodup_cons] at hkeys
    have hdirectory : resolve stager.cwd (join child c) = base ++ [c] := by rw [resolve_join hc, hbase]
    have hfile : resolve stager.cwd (join (join child c) n) = base ++ [c, n] := by
      rw [resolve_join hn, hdirectory, List.append_assoc]
      rfl
    have hfreeRest : ∀ value ∈ rest, Function.update written (c, n) (some bytes) (value.1, value.2.1) = none := by
      intro value hvalue
      have hne : (value.1, value.2.1) ≠ (c, n) := fun heq => hkeys.1 (heq ▸ List.mem_map_of_mem hvalue)
      rw [Function.update_of_ne hne]
      exact hfree value hvalue
    rw [SecretFileStager.writeValues, hdirectory, hfile]
    by_cases hmem : c ∈ categories
    · rw [if_pos hmem, decide_eq_true hmem]
      refine TreeTriple.bind (Q := fun _ => Staged t₀ base categories written) (.ret fun t h => h) fun _ => ?_
      exact (writeValue_staged hmem hfreeHead).bind fun _ => ih hnames hkeys.2 hfreeRest
    · rw [if_neg hmem, decide_eq_false hmem]
      refine (makeDirectory_staged hmem).bind fun _ => ?_
      exact (writeValue_staged List.mem_cons_self hfreeHead).bind fun _ => ih hnames hkeys.2 hfreeRest

theorem writtenAs_of_not_mem {values : List (String × String × List UInt8)} {key : String × String}
    (h : key ∉ values.map fun value => (value.1, value.2.1)) : writtenAs values written key = written key := by
  induction values generalizing written with
  | nil => rfl
  | cons value rest ih =>
    rw [List.map_cons, List.mem_cons, not_or] at h
    exact (ih h.2).trans (Function.update_of_ne h.1 ..)

theorem writtenAs_of_mem {values : List (String × String × List UInt8)}
    (hkeys : (values.map fun value => (value.1, value.2.1)).Nodup) :
    ∀ value ∈ values, writtenAs values written (value.1, value.2.1) = some value.2.2 := by
  induction values generalizing written with
  | nil => simp
  | cons value rest ih =>
    rw [List.map_cons, List.nodup_cons] at hkeys
    refine List.forall_mem_cons.mpr ⟨?_, ih hkeys.2⟩
    exact (writtenAs_of_not_mem hkeys.1).trans (Function.update_self ..)

/-! ## The whole stage -/

/-- Every directory on the way to a file is there. -/
def Grown (t : Tree) : Prop := ∀ p name, t (p ++ [name]) ≠ none → t p = some .directory

theorem none_below (hgrown : Grown t₀) (hbase : t₀ base = none) : ∀ p, base <+: p → t₀ p = none := by
  rintro p ⟨rest, rfl⟩
  induction rest using List.reverseRecOn with
  | nil => rwa [List.append_nil]
  | append_singleton rest name ih =>
    by_contra hsome
    rw [← List.append_assoc] at hsome
    rw [hgrown _ _ hsome] at ih
    cases ih

theorem staged_empty (hgrown : Grown t₀) (hbase : t₀ base = none) :
    Staged t₀ base [] (fun _ => none) (Function.update t₀ base (some .directory)) where
  outside := by
    intro p hp
    rw [Function.update_of_ne]
    rintro rfl
    exact hp List.prefix_rfl
  here := Function.update_self ..
  category := by
    intro c
    rw [Function.update_of_ne (by simp), none_below hgrown hbase _ (List.prefix_append _ _)]
    rfl
  content := by
    intro c n
    rw [Function.update_of_ne (by simp), none_below hgrown hbase _ (List.prefix_append _ _)]
    rfl

/-- Removing the directory brings back what there was. -/
theorem cleanup_alone {child : PurePosixPath} (hbase : resolve stager.cwd child = base)
    (hnone : ∀ p, base <+: p → t₀ p = none) :
    TreeTriple stager smooth (Within t₀ base) (stager.cleanup child) (fun _ t => t = t₀) fun _ _ => False := by
  refine TreeTriple.handle (E := fun _ _ => False) ?_ fun e => .raise fun t h => h
  refine op_alone fun d h _ => ?_
  simp only [hbase, h.here, Option.isSome_some, if_true, List.isPrefixOf_iff_prefix]
  refine funext fun p => ?_
  split
  · next hp => exact (hnone p hp).symm
  · next hp => exact h.outside p hp

/-- A failure below the directory is cleaned up and raised again. -/
theorem cleanup_raised {child : PurePosixPath} (hgrown : Grown t₀) (hnone : t₀ (resolve stager.cwd child) = none)
    (e failure : Failure) :
    TreeTriple stager smooth (Broken smooth t₀ (resolve stager.cwd child) e)
      (do stager.cleanup child
          throw failure) Q fun _ t => t = t₀ ∧ ¬ smooth := by
  have hcleanup : TreeTriple stager smooth (Within t₀ (resolve stager.cwd child)) (stager.cleanup child)
      (fun _ t => t = t₀) fun _ _ => False := cleanup_alone rfl (none_below hgrown hnone)
  refine TreeTriple.weaken (P := fun t => Within t₀ (resolve stager.cwd child) t ∧ ¬ smooth)
    (.assume fun hs => ?_) (fun t h => ⟨h.2, h.1⟩) (fun _ _ h => h) fun _ _ h => h
  refine TreeTriple.bind (hcleanup.weaken (fun _ h => h) (fun _ _ h => h) fun _ _ h => h.elim) fun _ => ?_
  exact .raise fun t h => ⟨h, hs⟩

theorem createChildLoop_staged (hgrown : Grown t₀)
    (hroot : smooth → t₀ (resolve stager.cwd stager.root) = some .directory) {rounds : Nat} (hrounds : smooth → rounds ≠ 0) :
    TreeTriple stager smooth (fun t => t = t₀) (stager.createChildLoop rounds)
      (fun child t => Staged t₀ (resolve stager.cwd child) [] (fun _ => none) t ∧ t₀ (resolve stager.cwd child) = none)
      fun _ t => t = t₀ ∧ ¬ smooth := by
  induction rounds with
  | zero => exact .raise fun t h => ⟨h, fun hs => hrounds hs rfl⟩
  | succ rounds ih =>
    have htoken : TreeTriple stager smooth (fun t => t = t₀) tokenHex
        (fun token t => t = t₀ ∧ (smooth → t₀ (resolve stager.cwd stager.root ++ [token.text]) = none))
        fun _ t => t = t₀ ∧ ¬ smooth := op_alone fun d h hfine => ⟨h, fun hs => h ▸ (hfine hs).2⟩
    refine htoken.bind fun token => .assume fun hnew => ?_
    generalize hchild : join stager.root token.text = child
    have hbase : resolve stager.cwd child = resolve stager.cwd stager.root ++ [token.text] := by
      rw [← hchild, resolve_join (nameDown_token token)]
    rw [← hbase] at hnew
    have hmkdir : TreeTriple stager smooth (fun t => t = t₀) (mkdir (resolve stager.cwd child))
        (fun _ t => Staged t₀ (resolve stager.cwd child) [] (fun _ => none) t ∧ t₀ (resolve stager.cwd child) = none)
        fun _ t => t = t₀ ∧ ¬ smooth := by
      refine osCall_alone ?_ ?_ fun hs t _ h => ⟨h, hs⟩
      · rintro t a t' rfl hok
        split at hok
        · cases hok
        · next hfree =>
          split at hok
          · cases hok
            have hnone : t (resolve stager.cwd child) = none := by simpa using hfree
            exact ⟨staged_empty hgrown hnone, hnone⟩
          · cases hok
      · rintro t e rfl herr
        refine ⟨rfl, fun hs => ?_⟩
        rw [hnew hs, if_neg (by simp), hbase, List.dropLast_concat, if_pos (hroot hs)] at herr
        cases herr
    have hmade : TreeTriple stager smooth (fun t => t = t₀)
        ((mkdir (resolve stager.cwd child) >>= fun _ => pure true).handle fun e =>
          if e = .fileExists then pure false else throw e)
        (fun made t => if made then Staged t₀ (resolve stager.cwd child) [] (fun _ => none) t ∧
          t₀ (resolve stager.cwd child) = none else t = t₀ ∧ ¬ smooth)
        fun _ t => t = t₀ ∧ ¬ smooth := by
      refine (hmkdir.bind fun _ => .ret fun t h => h).handle fun e => ?_
      split
      · exact .ret fun t h => h
      · exact .raise fun t h => h
    refine hmade.bind fun made => ?_
    cases made with
    | true =>
      refine TreeTriple.assume fun hnone => ?_
      have hthere : ∀ t, Staged t₀ (resolve stager.cwd child) [] (fun _ => none) t → (t (resolve stager.cwd child)).isSome := by
        intro t h
        rw [h.here]
        rfl
      refine TreeTriple.handle (E := Broken smooth t₀ (resolve stager.cwd child)) ?_ fun e => cleanup_raised hgrown hnone e e
      refine (restrictMode_alone hthere Staged.broken).bind fun _ => (touch_alone hthere Staged.broken).bind fun _ => ?_
      exact .ret fun t h => ⟨h, hnone⟩
    | false => exact TreeTriple.assume fun hs => ih fun hsmooth => absurd hsmooth hs

/-! ## What `_validate` accepts -/

def keyOf (secret : ResolvedSecretValue) : String × String := (secret.category, secret.name)

def encodedOf (secret : ResolvedSecretValue) : String × String × List UInt8 :=
  (secret.category, secret.name, Utf8.encode secret.value.toList)

def KeyAllowed (secret : ResolvedSecretValue) : Prop :=
  ∃ pattern, SecretFiles.CATEGORIES secret.category = some pattern ∧ pattern secret.name = true

theorem validateLoop_ok {secrets : List ResolvedSecretValue} {validated result : List (String × String × List UInt8)}
    {identities : List (String × String)} (h : stager.validateLoop secrets validated identities = .ok result) :
    result = validated ++ secrets.map encodedOf ∧ (∀ secret ∈ secrets, KeyAllowed secret ∧ keyOf secret ∉ identities) ∧
      (secrets.map keyOf).Nodup := by
  induction secrets generalizing validated identities with
  | nil =>
    cases h
    simp
  | cons secret rest ih =>
    rw [SecretFileStager.validateLoop] at h
    split at h
    · cases h
    · next pattern hpattern =>
      split at h
      · cases h
      · next hname =>
        split at h
        · cases h
        · next hnew =>
          dsimp only at h
          split at h
          · cases h
          · obtain ⟨hresult, hrest, hkeys⟩ := ih h
            have hother : keyOf secret ∉ rest.map keyOf := by
              intro hin
              obtain ⟨other, hother, heq⟩ := List.mem_map.mp hin
              exact (hrest other hother).2 (heq ▸ List.mem_cons_self)
            refine ⟨by rw [hresult, List.append_assoc]; rfl, ?_, List.nodup_cons.mpr ⟨hother, hkeys⟩⟩
            refine List.forall_mem_cons.mpr ⟨⟨⟨pattern, hpattern, by simpa using hname⟩, hnew⟩, fun other hin => ?_⟩
            exact ⟨(hrest other hin).1, fun hold => (hrest other hin).2 (List.mem_cons_of_mem _ hold)⟩

variable {secrets : List ResolvedSecretValue} {validated : List (String × String × List UInt8)}

theorem enter_staged (hvalid : stager.validate secrets = .ok validated) (hgrown : Grown t₀)
    (hready : smooth → stager.verifier t₀ stager.root = true ∧ t₀ (resolve stager.cwd stager.root) = some .directory) :
    TreeTriple stager smooth (fun t => t = t₀) (stager.enter secrets)
      (fun child t => ∃ categories, Staged t₀ (resolve stager.cwd child) categories
        (writtenAs (secrets.map encodedOf) fun _ => none) t) fun _ t => t = t₀ ∧ ¬ smooth := by
  obtain ⟨rfl, hallowed, hkeys⟩ := validateLoop_ok hvalid
  have hverify : TreeTriple stager smooth (fun t => t = t₀) stager.verifyRoot (fun _ t => t = t₀)
      fun _ t => t = t₀ ∧ ¬ smooth := by
    refine osCall_alone ?_ ?_ fun hs t _ h => ⟨h, hs⟩
    · rintro t a t' rfl hok
      split at hok
      · cases hok
        rfl
      · cases hok
    · rintro t e rfl herr
      refine ⟨rfl, fun hs => ?_⟩
      rw [if_pos (hready hs).1] at herr
      cases herr
  have hnames : ∀ value ∈ secrets.map encodedOf, NameDown value.1 ∧ NameDown value.2.1 := by
    intro value hvalue
    obtain ⟨secret, hsecret, rfl⟩ := List.mem_map.mp hvalue
    obtain ⟨pattern, hpattern, hname⟩ := (hallowed secret hsecret).1
    exact nameDown_of_category hpattern hname
  have hwrite : ∀ child, t₀ (resolve stager.cwd child) = none →
      TreeTriple stager smooth (Staged t₀ (resolve stager.cwd child) [] fun _ => none)
        ((stager.writeValues child [] (secrets.map encodedOf)).handle fun _ => do
          stager.cleanup child
          throw .staging)
        (fun _ t => ∃ categories, Staged t₀ (resolve stager.cwd child) categories
          (writtenAs (secrets.map encodedOf) fun _ => none) t) fun _ t => t = t₀ ∧ ¬ smooth := by
    intro child hnone
    exact (writeValues_staged rfl hnames (by rwa [List.map_map]) fun _ _ => rfl).handle fun e =>
      cleanup_raised hgrown hnone e .staging
  have hchild := @createChildLoop_staged stager smooth t₀ hgrown (fun hs => (hready hs).2) 128 fun _ => by decide
  unfold SecretFileStager.enter
  rw [hvalid]
  refine TreeTriple.handle (E := fun _ t => t = t₀ ∧ ¬ smooth) ?_ fun _ => .raise fun t h => h
  refine TreeTriple.bind (Q := fun result t => t = t₀ ∧ result = secrets.map encodedOf) (.ret fun t h => ⟨h, rfl⟩) fun result => ?_
  refine TreeTriple.assume fun hresult => ?_
  subst hresult
  refine hverify.bind fun _ => hchild.bind fun child => TreeTriple.assume fun hnone => ?_
  exact (hwrite child hnone).bind fun _ => .ret fun t h => h

/-- What the runner finds under the staged directory. -/
structure Found (stager : SecretFileStager) (secrets : List ResolvedSecretValue) (child : PurePosixPath) (t : Tree) :
    Prop where
  written : ∀ secret ∈ secrets, ∃ path, secretPath stager.cwd secret.category secret.name child = some path ∧
    t path = some (.file (Utf8.encode secret.value.toList)) ∧
    resolve stager.cwd child <+: path ∧ path ≠ resolve stager.cwd child
  apart : (secrets.map fun secret => secretPath stager.cwd secret.category secret.name child).Nodup

/-- Whatever fails, nothing is left; what is staged is found, and is gone when the block ends. When no call
fails, the verifier accepts the root and the root is a directory, the secrets are staged. -/
theorem secret_files_found (hvalid : stager.validate secrets = .ok validated) (hgrown : Grown t₀)
    (hready : smooth → stager.verifier t₀ stager.root = true ∧ t₀ (resolve stager.cwd stager.root) = some .directory) :
    TreeTriple stager smooth (fun t => t = t₀) (stager.enter secrets) (Found stager secrets)
        (fun _ t => t = t₀ ∧ ¬ smooth) ∧
      ∀ (α : Type) (child : PurePosixPath) (body : StageM α),
        TreeTriple stager smooth (fun _ => True) (stager.leave child body)
          (fun _ t => t (resolve stager.cwd child) = none) fun _ t => t (resolve stager.cwd child) = none := by
  obtain ⟨-, hallowed, hkeys⟩ := validateLoop_ok hvalid
  constructor
  · refine (enter_staged hvalid hgrown hready).weaken (fun _ h => h) (fun child t h => ?_) fun _ _ h => h
    obtain ⟨categories, h⟩ := h
    have hpath : ∀ secret ∈ secrets, secretPath stager.cwd secret.category secret.name child =
        some (resolve stager.cwd child ++ [secret.category, secret.name]) := by
      intro secret hsecret
      obtain ⟨pattern, hpattern, hname⟩ := (hallowed secret hsecret).1
      exact secretPath_eq stager.cwd_resolved hpattern hname child
    constructor
    · intro secret hsecret
      refine ⟨_, hpath secret hsecret, ?_, List.prefix_append _ _, by simp⟩
      rw [h.content]
      have hmem := @writtenAs_of_mem (fun _ => none) (secrets.map encodedOf) (by rwa [List.map_map]) _
        (List.mem_map_of_mem (f := encodedOf) hsecret)
      exact congrArg (Option.map Node.file) hmem
    · rw [List.map_congr_left hpath]
      refine List.Nodup.map_on (fun a ha b hb heq => ?_) hkeys.of_map
      have hkey : keyOf a = keyOf b := by simpa [keyOf] using heq
      exact List.inj_on_of_nodup_map hkeys ha hb hkey
  · intro α child body
    have hgone : TreeTriple stager smooth (fun _ => True) (stager.cleanup child)
        (fun _ t => t (resolve stager.cwd child) = none) fun _ t => t (resolve stager.cwd child) = none := by
      refine TreeTriple.handle (E := fun _ t => t (resolve stager.cwd child) = none) ?_ fun e => .raise fun t h => h
      refine op_alone fun d _ _ => ?_
      cases hthere : (d.tree (resolve stager.cwd child)).isSome with
      | true => simp
      | false => simpa using hthere
    have hbody : TreeTriple stager smooth (fun _ => True) body (fun _ _ => True) fun _ _ => True :=
      Triple.of_all (All.any body) (fun _ _ _ _ _ h => h) fun _ _ _ _ _ _ _ => ⟨trivial, trivial⟩
    refine (hbody.handle fun e => ?_).bind fun a => hgone.bind fun _ => .ret fun t h => h
    exact hgone.bind fun _ => .raise fun t h => h

/-! ## Two secrets -/

def runnerStager : SecretFileStager where
  root := ⟨"/", ["run", "secrets"]⟩
  verifier _ _ := true
  maximumSecretBytes := 65536
  cwd := []
  cwd_resolved := by simp

def runnerTree : Tree := fun p => if p ∈ [[], ["run"], ["run", "secrets"]] then some .directory else none

def runnerSecrets : List ResolvedSecretValue :=
  [⟨"environment_variable", "TOKEN", "pä"⟩, ⟨"common_parameter", "api-key", "k"⟩]

theorem runner_secrets_found :
    TreeTriple runnerStager True (fun t => t = runnerTree) (runnerStager.enter runnerSecrets)
      (Found runnerStager runnerSecrets) fun _ t => t = runnerTree ∧ ¬ True := by
  have hvalid : runnerStager.validate runnerSecrets = .ok (runnerSecrets.map encodedOf) := by rfl
  have hgrown : Grown runnerTree := by
    intro p name hsome
    have hin : p ++ [name] ∈ ([[], ["run"], ["run", "secrets"]] : List (List String)) := by
      by_contra hnot
      exact hsome (if_neg hnot)
    simp only [List.mem_cons, List.append_eq_nil_iff, List.cons_ne_nil, and_false, List.not_mem_nil, or_false, false_or] at hin
    rcases hin with hone | htwo
    · have hp : p = [] := by simpa using congrArg List.dropLast hone
      subst hp
      rfl
    · have hp : p = ["run"] := by simpa using congrArg List.dropLast htwo
      subst hp
      rfl
  exact (secret_files_found hvalid hgrown fun _ => ⟨rfl, rfl⟩).1

end SmartTest.Staging
