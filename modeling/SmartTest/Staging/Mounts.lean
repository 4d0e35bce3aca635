import Mathlib.Data.List.MinMax
import SmartTest.Lib.JsonLines
import SmartTest.Lib.PosixPath
import SmartTest.Lib.Text

/-!
# Secrets on tmpfs only

`LinuxTmpfsVerifier` of `services/secret_files.py` and the mounts that `/proc/self/mountinfo`
lists: one line a mount, later ones mounted on top of earlier ones.
-/

open SmartTest.Lib

namespace SmartTest.Staging

/-! ## The verifier -/

structure Mount where
  point : PurePosixPath
  fstype : String
  deriving DecidableEq, Repr

/-- `line.split()`. -/
def fieldsOf (line : List Char) : List (List Char) := (line.splitOnP isSpace).filter (· ≠ [])

def octalDigit (c : Char) : Option Nat := if '0' ≤ c ∧ c ≤ '7' then some (c.toNat - '0'.toNat) else none

def octal (a b c : Char) : Option Char := do
  return .ofNat (64 * (← octalDigit a) + 8 * (← octalDigit b) + (← octalDigit c))

/-- `_MOUNT_ESCAPE.sub(...)`. -/
def unescape : List Char → List Char
  | '\x5c' :: a :: b :: c :: rest =>
    match octal a b c with
    | some char => char :: unescape rest
    | none => '\x5c' :: unescape (a :: b :: c :: rest)
  | c :: rest => c :: unescape rest
  | [] => []

/-- The body of the loop in `_mounts`; `none` is a `SecretStagingError`. -/
def readMount (line : List Char) : Option Mount := do
  let fields := fieldsOf line
  let separator ← fields.idxOf? ['-']
  let point ← fields[4]?
  let fstype ← fields[separator + 1]?
  return ⟨.parse (.ofList (unescape point)), .ofList fstype⟩

def readMounts (mountinfo : String) : Option (List Mount) :=
  (splitLines (universalNewlines mountinfo.toList)).mapM readMount

/-- `path == mount or path.is_relative_to(mount)`. -/
def within (path mount : PurePosixPath) : Bool := path = mount || mount ∈ path.parents

/-- What the file system says about the directory. -/
structure SecretRoot where
  isSymlink : Bool
  exists_ : Bool
  isDir : Bool
  /-- `root.resolve(strict=True)`. -/
  resolved : Option PurePosixPath

def depth (mount : Mount) : Nat := mount.point.parts.length

/-- `verify`; `mountinfo` is what the file holds, if it can be read. -/
def verify (mountinfo : Option String) (root : SecretRoot) : Option Unit := do
  guard (!root.isSymlink && root.exists_ && root.isDir)
  let resolved ← root.resolved
  let mounts ← readMounts (← mountinfo)
  -- `max` of an empty list is the missing mount
  let mount ← (mounts.filter fun mount => within resolved mount.point).argmax depth
  guard (mount.fstype = "tmpfs")

/-! ## The lines of the kernel -/

/-- A field without blanks. A lone dash ends the optional fields. -/
structure Word (field : List Char) : Prop where
  nonempty : field ≠ []
  noSpace : ∀ c ∈ field, isSpace c = false

instance : DecidablePred Word := fun field =>
  decidable_of_iff (field ≠ [] ∧ (field.all fun c => !isSpace c) = true)
    ⟨fun h => ⟨h.1, by simpa using h.2⟩, fun h => ⟨h.nonempty, by simpa using h.noSpace⟩⟩

structure MountLine where
  /-- The ids, the device and the directory that is mounted. -/
  ids : List (List Char)
  /-- The parts of the mount point. -/
  directory : List String
  /-- The mount options and the optional fields. -/
  options : List (List Char)
  fstype : List Char
  /-- The source and the options of the file system. -/
  source : List (List Char)
  ids_length : ids.length = 4
  words : ∀ field ∈ ids ++ options ++ fstype :: source, Word field
  noDash : ['-'] ∉ ids ++ options
  parts : ∀ part ∈ directory, PurePosixPath.GoodPart part ∧
    ∀ c ∈ part.toList, isSpace c = true → c = ' ' ∨ c = '\t' ∨ c = '\n'

/-- Blanks, line breaks and backslashes are written in octal. -/
def escapeChar (c : Char) : List Char :=
  if c = ' ' then ['\x5c', '0', '4', '0']
  else if c = '\t' then ['\x5c', '0', '1', '1']
  else if c = '\n' then ['\x5c', '0', '1', '2']
  else if c = '\x5c' then ['\x5c', '1', '3', '4']
  else [c]

namespace MountLine

def path (line : MountLine) : List Char := '/' :: ['/'].intercalate (line.directory.map String.toList)

def fields (line : MountLine) : List (List Char) :=
  line.ids ++ line.path.flatMap escapeChar :: line.options ++ ['-'] :: line.fstype :: line.source

def text (line : MountLine) : List Char := [' '].intercalate line.fields

def mount (line : MountLine) : Mount := ⟨⟨"/", line.directory⟩, .ofList line.fstype⟩

end MountLine

def listing (lines : List MountLine) : String := .ofList (lines.flatMap fun line => line.text ++ ['\n'])

theorem octal_escapes : octal '0' '4' '0' = some ' ' ∧ octal '0' '1' '1' = some '\t' ∧
    octal '0' '1' '2' = some '\n' ∧ octal '1' '3' '4' = some '\x5c' := by decide

theorem unescape_escaped (chars : List Char) : unescape (chars.flatMap escapeChar) = chars := by
  induction chars with
  | nil => rfl
  | cons c rest ih =>
    obtain ⟨hblank, htab, hbreak, hslash⟩ := octal_escapes
    rw [List.flatMap_cons, escapeChar]
    split
    · next heq => subst heq; simp [unescape, hblank, ih]
    · split
      · next heq => subst heq; simp [unescape, htab, ih]
      · split
        · next heq => subst heq; simp [unescape, hbreak, ih]
        · split
          · next heq => subst heq; simp [unescape, hslash, ih]
          · next hne =>
            rw [List.singleton_append, unescape, ih]
            intro a b d tail heq
            exact absurd heq hne

theorem fieldsOf_intercalate {fields : List (List Char)} (h : ∀ field ∈ fields, Word field) :
    fieldsOf ([' '].intercalate fields) = fields := by
  have hspace : isSpace ' ' = true := by decide
  induction fields with
  | nil => rfl
  | cons field rest ih =>
    obtain ⟨hfield, hrest⟩ := List.forall_mem_cons.mp h
    unfold fieldsOf at *
    cases rest with
    | nil =>
      rw [List.intercalate_singleton, List.splitOnP_eq_singleton hfield.noSpace]
      simp [hfield.nonempty]
    | cons next others =>
      rw [List.intercalate_cons_cons, List.append_assoc, List.singleton_append,
        List.splitOnP_append_cons_of_forall_mem hfield.noSpace ' ' hspace, List.filter_cons_of_pos, ih hrest]
      simpa using hfield.nonempty

theorem forall_mem_intercalate {P : Char → Prop} {fields : List (List Char)} {sep : Char} (hsep : P sep)
    (h : ∀ field ∈ fields, ∀ c ∈ field, P c) : ∀ c ∈ [sep].intercalate fields, P c := by
  induction fields with
  | nil => simp
  | cons field rest ih =>
    obtain ⟨hfield, hrest⟩ := List.forall_mem_cons.mp h
    cases rest with
    | nil => simpa using hfield
    | cons next others =>
      intro c hc
      rw [List.intercalate_cons_cons] at hc
      simp only [List.mem_append, List.mem_singleton] at hc
      rcases hc with (hc | rfl) | hc
      · exact hfield c hc
      · exact hsep
      · exact ih hrest c hc

theorem universalNewlines_eq_self {text : List Char} (h : '\r' ∉ text) : universalNewlines text = text := by
  induction text with
  | nil => rfl
  | cons c rest ih =>
    rw [List.mem_cons, not_or] at h
    rw [universalNewlines, ih h.2]
    · rintro _ rfl
      exact absurd rfl h.1
    · rintro rfl
      exact absurd rfl h.1

theorem splitLines_line {line : List Char} (h : '\n' ∉ line) (rest : List Char) :
    splitLines (line ++ '\n' :: rest) = line :: splitLines rest := by
  induction line with
  | nil => simp [splitLines]
  | cons c line ih =>
    rw [List.mem_cons, not_or] at h
    rw [List.cons_append, splitLines, if_neg (Ne.symm h.1), ih h.2]

theorem idxOf?_append_cons {α : Type} [BEq α] [LawfulBEq α] {a : α} {front : List α} (h : a ∉ front) (back : List α) :
    (front ++ a :: back).idxOf? a = some front.length := by
  induction front with
  | nil => simp [List.idxOf?_cons]
  | cons b front ih =>
    rw [List.mem_cons, not_or] at h
    have hb : (b == a) = false := by simpa using Ne.symm h.1
    rw [List.cons_append, List.idxOf?_cons, hb, ih h.2]
    rfl

theorem escapeChar_noSpace {c : Char} (h : isSpace c = true → c = ' ' ∨ c = '\t' ∨ c = '\n') :
    ∀ d ∈ escapeChar c, isSpace d = false := by
  unfold escapeChar
  split
  · exact forall_mem_of_all (by decide)
  · next hblank =>
    split
    · exact forall_mem_of_all (by decide)
    · next htab =>
      split
      · exact forall_mem_of_all (by decide)
      · next hbreak =>
        split
        · exact forall_mem_of_all (by decide)
        · intro d hd
          rw [List.mem_singleton.mp hd]
          cases hspace : isSpace c with
          | false => rfl
          | true => exact absurd (h hspace) (by simp [hblank, htab, hbreak])

namespace MountLine

variable (line : MountLine)

theorem escaped_path : ∃ more, line.path.flatMap escapeChar = '/' :: more :=
  ⟨(['/'].intercalate (line.directory.map String.toList)).flatMap escapeChar, rfl⟩

theorem word_path : Word (line.path.flatMap escapeChar) where
  nonempty := by
    obtain ⟨more, hmore⟩ := line.escaped_path
    simp [hmore]
  noSpace := by
    have hslash : isSpace '/' = true → '/' = ' ' ∨ '/' = '\t' ∨ '/' = '\n' := by decide
    intro d hd
    obtain ⟨c, hc, hd⟩ := List.mem_flatMap.mp hd
    refine escapeChar_noSpace ?_ d hd
    rcases List.mem_cons.mp hc with rfl | hc
    · exact hslash
    · refine forall_mem_intercalate (P := fun c => isSpace c = true → c = ' ' ∨ c = '\t' ∨ c = '\n') hslash ?_ c hc
      intro chars hchars
      obtain ⟨part, hpart, rfl⟩ := List.mem_map.mp hchars
      exact (line.parts part hpart).2

theorem word_fields : ∀ field ∈ line.fields, Word field := by
  intro field hfield
  have hwords := line.words
  simp only [fields, List.mem_append, List.mem_cons] at hfield hwords
  rcases hfield with (hids | rfl | hoptions) | rfl | hrest
  · exact hwords field (.inl (.inl hids))
  · exact line.word_path
  · exact hwords field (.inl (.inr hoptions))
  · exact ⟨by simp, forall_mem_of_all (by decide)⟩
  · exact hwords field (.inr hrest)

theorem parse_path : PurePosixPath.parse (.ofList line.path) = ⟨"/", line.directory⟩ := by
  have hrelative : PurePosixPath.Relative ⟨"", line.directory⟩ := ⟨rfl, fun part hpart => (line.parts part hpart).1⟩
  have htext := hrelative.text_eq
  have hroot : PurePosixPath.rootOf line.path = ['/'] := by
    have hfirst := hrelative.rootOf_text
    rw [htext] at hfirst
    unfold path
    generalize ['/'].intercalate (line.directory.map String.toList) = more at hfirst ⊢
    unfold PurePosixPath.rootOf at hfirst ⊢
    split at hfirst <;> simp_all
  have htail : PurePosixPath.splitTail (line.path.drop 1) = line.directory.map String.toList := by
    have hsplit := hrelative.splitTail_text
    rwa [htext] at hsplit
  unfold PurePosixPath.parse
  simp only [String.toList_ofList, hroot, List.length_singleton, htail, List.map_map]
  simp [Function.comp_def]

theorem readMount_text : readMount line.text = some line.mount := by
  have hfields : fieldsOf line.text = line.fields := fieldsOf_intercalate line.word_fields
  obtain ⟨more, hmore⟩ := line.escaped_path
  have hnoDash : ['-'] ∉ line.ids ++ line.path.flatMap escapeChar :: line.options := by
    have hnot := line.noDash
    simp only [List.mem_append, List.mem_cons, not_or] at hnot ⊢
    exact ⟨hnot.1, by simp [hmore], hnot.2⟩
  have hseparator : line.fields.idxOf? ['-'] = some (line.ids ++ line.path.flatMap escapeChar :: line.options).length :=
    idxOf?_append_cons hnoDash _
  have hpoint : line.fields[4]? = some (line.path.flatMap escapeChar) := by
    simp [fields, ← line.ids_length]
  have htype : line.fields[(line.ids ++ line.path.flatMap escapeChar :: line.options).length + 1]? = some line.fstype := by
    rw [fields, List.getElem?_append_right (by omega)]
    simp
  unfold readMount
  rw [hfields]
  simp only [hseparator]
  simp only [Option.bind_eq_bind, Option.bind_some, hpoint, htype, unescape_escaped, line.parse_path]
  rfl

theorem no_break : '\n' ∉ line.text ∧ '\r' ∉ line.text := by
  have hchars : ∀ c ∈ line.text, c ≠ '\n' ∧ c ≠ '\r' := by
    refine forall_mem_intercalate ⟨by decide, by decide⟩ fun field hfield c hc => ?_
    have hspace := (line.word_fields field hfield).noSpace c hc
    constructor
    · rintro rfl
      exact absurd hspace (by decide)
    · rintro rfl
      exact absurd hspace (by decide)
  exact ⟨fun h => (hchars _ h).1 rfl, fun h => (hchars _ h).2 rfl⟩

end MountLine

/-- A listing is read line by line, each with its directory. -/
theorem readMounts_listing (lines : List MountLine) : readMounts (listing lines) = some (lines.map MountLine.mount) := by
  have hreturn : '\r' ∉ lines.flatMap fun line => line.text ++ ['\n'] := by
    intro h
    obtain ⟨line, -, hin⟩ := List.mem_flatMap.mp h
    rcases List.mem_append.mp hin with hin | hin
    · exact line.no_break.2 hin
    · exact absurd (List.mem_singleton.mp hin) (by decide)
  unfold readMounts listing
  rw [String.toList_ofList, universalNewlines_eq_self hreturn]
  clear hreturn
  induction lines with
  | nil => rfl
  | cons line rest ih =>
    rw [List.flatMap_cons, List.append_assoc, List.singleton_append, splitLines_line line.no_break.1, List.mapM_cons,
      line.readMount_text, ih]
    rfl

/-! ## What is mounted at a directory -/

/-- The mounts that no later one covers. -/
def uncovered : List Mount → List Mount
  | [] => []
  | mount :: later =>
    if later.any fun other => within mount.point other.point then uncovered later else mount :: uncovered later

def effectiveMount (mounts : List Mount) (path : PurePosixPath) : Option Mount :=
  ((uncovered mounts).filter fun mount => within path mount.point).getLast?

variable {p q r : PurePosixPath}

theorem within_iff : within p q = true ↔ p.root = q.root ∧ q.tail <+: p.tail := by
  unfold within
  simp only [Bool.or_eq_true, decide_eq_true_eq, PurePosixPath.mem_parents]
  constructor
  · rintro (rfl | ⟨n, -, rfl⟩)
    · exact ⟨rfl, List.prefix_rfl⟩
    · exact ⟨rfl, List.take_prefix n p.tail⟩
  · rintro ⟨hroot, hhead⟩
    obtain ⟨root, tail⟩ := p
    obtain ⟨root', tail'⟩ := q
    simp only at hroot hhead
    subst hroot
    rcases hhead.length_le.eq_or_lt with hlength | hlength
    · left
      rw [hhead.eq_of_length hlength]
    · right
      exact ⟨tail'.length, hlength, by rw [← List.prefix_iff_eq_take.mp hhead]⟩

theorem within_trans (h : within p q = true) (h' : within q r = true) : within p r = true := by
  rw [within_iff] at *
  exact ⟨h.1.trans h'.1, h'.2.trans h.2⟩

/-- Of two directories above one path the higher is above the lower. -/
theorem within_of_depth {m n : Mount} (hm : within p m.point = true) (hn : within p n.point = true) :
    depth n ≤ depth m ↔ within m.point n.point = true := by
  rw [within_iff] at *
  have hroot : m.point.root = n.point.root := hm.1.symm.trans hn.1
  have hdepth : depth n ≤ depth m ↔ n.point.tail.length ≤ m.point.tail.length := by
    unfold depth PurePosixPath.parts
    rw [hroot]
    split
    · exact Iff.rfl
    · simp
  rw [hdepth]
  exact ⟨fun h => ⟨hroot, List.prefix_of_prefix_length_le hn.2 hm.2 h⟩, fun h => h.2.length_le⟩

/-- The mount that counts at a directory is the last one above it. -/
theorem effectiveMount_eq (mounts : List Mount) (path : PurePosixPath) :
    effectiveMount mounts path = (mounts.filter fun mount => within path mount.point).getLast? := by
  unfold effectiveMount
  induction mounts with
  | nil => rfl
  | cons mount later ih =>
    rw [uncovered]
    split
    · next hcovered =>
      rw [ih, List.filter_cons]
      split
      · next hwithin =>
        obtain ⟨other, hother, hcovers⟩ := List.any_eq_true.mp hcovered
        have hmem : other ∈ later.filter fun mount => within path mount.point :=
          List.mem_filter.mpr ⟨hother, within_trans hwithin hcovers⟩
        rw [List.getLast?_cons_of_ne_nil (List.ne_nil_of_mem hmem)]
      · rfl
    · rw [List.filter_cons, List.filter_cons]
      split
      · rw [List.getLast?_cons, List.getLast?_cons, ih]
      · exact ih

/-! ## The first of the deepest -/

section Argmax

variable {α : Type} {f : α → Nat} {m : α}

theorem argmax_append_cons {before after : List α} (hbefore : ∀ a ∈ before, f a < f m) (hafter : ∀ a ∈ after, f a ≤ f m) :
    (before ++ m :: after).argmax f = some m := by
  induction before with
  | nil =>
    rw [List.nil_append, List.argmax_cons]
    cases hmax : after.argmax f with
    | none => rfl
    | some n => exact if_neg (Nat.not_lt.mpr (hafter n (List.argmax_mem hmax)))
  | cons a before ih =>
    obtain ⟨ha, hbefore⟩ := List.forall_mem_cons.mp hbefore
    rw [List.cons_append, List.argmax_cons, ih hbefore]
    exact if_pos ha

theorem exists_of_argmax {l : List α} (h : l.argmax f = some m) : ∃ before after, l = before ++ m :: after ∧
    (∀ a ∈ before, f a < f m) ∧ ∀ a ∈ after, f a ≤ f m := by
  induction l with
  | nil => simp at h
  | cons a l ih =>
    rw [List.argmax_cons] at h
    cases hmax : l.argmax f with
    | none =>
      rw [hmax] at h
      cases h
      rw [List.argmax_eq_none.mp hmax]
      exact ⟨[], [], rfl, by simp, by simp⟩
    | some n =>
      rw [hmax] at h
      dsimp only at h
      split at h
      · next hlt =>
        cases h
        obtain ⟨before, after, rfl, hbefore, hafter⟩ := ih hmax
        exact ⟨a :: before, after, rfl, List.forall_mem_cons.mpr ⟨hlt, hbefore⟩, hafter⟩
      · next hge =>
        cases h
        refine ⟨[], l, rfl, by simp, fun b hb => ?_⟩
        exact (List.le_of_mem_argmax hb hmax).trans (Nat.not_lt.mp hge)

end Argmax

/-! ## When the verifier is right -/

/-- A tmpfs with a mount of another type on top of it, or on a directory above it. Nothing above the path
is listed after that mount, and the tmpfs is the first of the deepest mounts above the path. -/
def Overmounted (mounts : List Mount) (path : PurePosixPath) : Prop :=
  ∃ before m between n after, mounts = before ++ m :: between ++ n :: after ∧
    (within path m.point = true ∧ m.fstype = "tmpfs") ∧ (within m.point n.point = true ∧ n.fstype ≠ "tmpfs") ∧
    (∀ k ∈ before, within path k.point = true → depth k < depth m) ∧
    (∀ k ∈ between, within path k.point = true → depth k ≤ depth m) ∧
    ∀ k ∈ after, within path k.point = false

variable {mounts : List Mount} {path : PurePosixPath}

theorem overmounted_iff : Overmounted mounts path ↔
    ∃ m n, (mounts.filter fun mount => within path mount.point).argmax depth = some m ∧ m.fstype = "tmpfs" ∧
      effectiveMount mounts path = some n ∧ n.fstype ≠ "tmpfs" := by
  rw [effectiveMount_eq]
  constructor
  · rintro ⟨before, m, between, n, after, rfl, ⟨hm, htmpfs⟩, ⟨hn, hother⟩, hbefore, hbetween, hafter⟩
    have hpath : within path n.point = true := within_trans hm hn
    have hdepth : depth n ≤ depth m := (within_of_depth hm hpath).mpr hn
    have hnone : after.filter (fun mount => within path mount.point) = [] := by
      simpa [List.filter_eq_nil_iff] using hafter
    have hfilter : (before ++ m :: between ++ n :: after).filter (fun mount => within path mount.point) =
        (before.filter fun mount => within path mount.point) ++
          m :: ((between.filter fun mount => within path mount.point) ++ [n]) := by
      simp [List.filter_append, hm, hpath, hnone]
    rw [hfilter]
    refine ⟨m, n, argmax_append_cons ?_ ?_, htmpfs, ?_, hother⟩
    · exact fun k hk => hbefore k (List.mem_filter.mp hk).1 (List.mem_filter.mp hk).2
    · intro k hk
      rcases List.mem_append.mp hk with hk | hk
      · exact hbetween k (List.mem_filter.mp hk).1 (List.mem_filter.mp hk).2
      · rwa [List.mem_singleton.mp hk]
    · rw [← List.cons_append, ← List.append_assoc, List.getLast?_concat]
  · rintro ⟨m, n, hmax, htmpfs, hlast, hother⟩
    obtain ⟨before, after, hfilter, hbefore, hafter⟩ := exists_of_argmax hmax
    rw [hfilter] at hlast
    obtain ⟨init, rfl⟩ : ∃ init, after = init ++ [n] := by
      rcases List.eq_nil_or_concat' after with rfl | ⟨init, last, rfl⟩
      · rw [List.getLast?_concat] at hlast
        cases hlast
        exact absurd htmpfs hother
      · rw [← List.cons_append, ← List.append_assoc, List.getLast?_concat] at hlast
        cases hlast
        exact ⟨init, rfl⟩
    -- the kept mounts are in the listing in the same order, with others between them
    obtain ⟨l₁, l₂, rfl, rfl, hfrom⟩ := List.filter_eq_append_iff.mp hfilter
    obtain ⟨u₁, u₂, rfl, hu₁, hm, hlater⟩ := List.filter_eq_cons_iff.mp hfrom
    obtain ⟨v₁, v₂, rfl, rfl, hend⟩ := List.filter_eq_append_iff.mp hlater
    obtain ⟨w₁, w₂, rfl, hw₁, hn, hnone⟩ := List.filter_eq_cons_iff.mp hend
    refine ⟨l₁ ++ u₁, m, v₁ ++ w₁, n, w₂, by simp, ⟨hm, htmpfs⟩, ⟨?_, hother⟩, ?_, ?_, ?_⟩
    · exact (within_of_depth hm hn).mp (hafter n (by simp))
    · intro k hk hwithin
      rcases List.mem_append.mp hk with hk | hk
      · exact hbefore k (List.mem_filter.mpr ⟨hk, hwithin⟩)
      · exact absurd hwithin (hu₁ k hk)
    · intro k hk hwithin
      rcases List.mem_append.mp hk with hk | hk
      · exact hafter k (List.mem_append_left _ (List.mem_filter.mpr ⟨hk, hwithin⟩))
      · exact absurd hwithin (hw₁ k hk)
    · intro k hk
      simpa using List.filter_eq_nil_iff.mp hnone k hk

def SecretRoot.isReal (root : SecretRoot) : Bool := !root.isSymlink && root.exists_ && root.isDir

theorem verify_iff {mountinfo : Option String} {root : SecretRoot} : verify mountinfo root = some () ↔
    ∃ text mounts path m, mountinfo = some text ∧ readMounts text = some mounts ∧ root.isReal = true ∧
      root.resolved = some path ∧ (mounts.filter fun mount => within path mount.point).argmax depth = some m ∧
      m.fstype = "tmpfs" := by
  unfold verify SecretRoot.isReal
  constructor
  · intro h
    simp only [Option.bind_eq_bind, Option.bind_eq_some_iff, Option.guard_eq_some'] at h
    obtain ⟨-, hreal, path, hpath, text, htext, mounts, hmounts, m, hm, htmpfs⟩ := h
    exact ⟨text, mounts, path, m, htext, hmounts, hreal, hpath, hm, htmpfs⟩
  · rintro ⟨text, mounts, path, m, rfl, hmounts, hreal, hpath, hm, htmpfs⟩
    simp [hmounts, hreal, hpath, hm, htmpfs]

/-- Kernel listings are read as they are meant. Whatever is read, an accepted directory is on tmpfs unless its
tmpfs is overmounted. -/
theorem tmpfs_verified_iff (text : String) (mounts : List Mount) (root : SecretRoot) (path : PurePosixPath)
    (hmounts : readMounts text = some mounts) (hpath : root.resolved = some path) :
    (∀ lines, readMounts (listing lines) = some (lines.map MountLine.mount)) ∧
      ((verify (some text) root = some () → ∃ n, effectiveMount mounts path = some n ∧ n.fstype = "tmpfs") ↔
        ¬ (root.isReal = true ∧ Overmounted mounts path)) := by
  refine ⟨readMounts_listing, ?_⟩
  rw [overmounted_iff, verify_iff]
  constructor
  · rintro hsound ⟨hreal, m, n, hm, htmpfs, hn, hother⟩
    obtain ⟨n', hn', htype⟩ := hsound ⟨text, mounts, path, m, rfl, hmounts, hreal, hpath, hm, htmpfs⟩
    rw [hn] at hn'
    cases hn'
    exact hother htype
  · rintro hnot ⟨text', mounts', path', m, heq, hmounts', hreal, hpath', hm, htmpfs⟩
    cases heq
    rw [hmounts] at hmounts'
    cases hmounts'
    rw [hpath] at hpath'
    cases hpath'
    cases heff : effectiveMount mounts path with
    | none =>
      rw [effectiveMount_eq, List.getLast?_eq_none_iff] at heff
      rw [heff] at hm
      cases hm
    | some n => exact ⟨n, rfl, not_not.mp fun hother => hnot ⟨hreal, m, n, hm, htmpfs, heff, hother⟩⟩

/-! ## A tmpfs and a disk on the same directory -/

def secretsRoot : SecretRoot := ⟨false, true, true, some ⟨"/", ["run", "secrets"]⟩⟩

def rootLine : MountLine where
  ids := [['1'], ['0'], ['8', ':', '1'], ['/']]
  directory := []
  options := [['r', 'w']]
  fstype := "ext4".toList
  source := [['/', 'd'], ['r', 'w']]
  ids_length := rfl
  words := forall_mem_of_all (by decide)
  noDash := by decide
  parts := by simp

def secretsLine (disk : Bool) : MountLine where
  ids := [['2'], ['1'], ['0', ':', '5'], ['/']]
  directory := ["run", "secrets"]
  options := [['r', 'w']]
  fstype := if disk then "ext4".toList else "tmpfs".toList
  source := [['s'], ['r', 'w']]
  ids_length := rfl
  words := by
    cases disk
    · exact forall_mem_of_all (by decide)
    · exact forall_mem_of_all (by decide)
  noDash := by decide
  parts := by
    intro part hpart
    have htwo : part = "run" ∨ part = "secrets" := by simpa using hpart
    rcases htwo with rfl | rfl
    · exact ⟨⟨by decide, by decide, by decide⟩, forall_mem_of_all (by decide)⟩
    · exact ⟨⟨by decide, by decide, by decide⟩, forall_mem_of_all (by decide)⟩

theorem tmpfs_root_accepted : verify (some (listing [rootLine, secretsLine false])) secretsRoot = some () ∧
    ∃ n, effectiveMount ([rootLine, secretsLine false].map MountLine.mount) ⟨"/", ["run", "secrets"]⟩ = some n ∧
      n.fstype = "tmpfs" := by
  have haccepted : verify (some (listing [rootLine, secretsLine false])) secretsRoot = some () :=
    verify_iff.mpr ⟨_, _, _, _, rfl, readMounts_listing _, rfl, rfl, rfl, rfl⟩
  have hsound := (tmpfs_verified_iff _ _ secretsRoot _ (readMounts_listing [rootLine, secretsLine false]) rfl).2
  refine ⟨haccepted, hsound.mpr ?_ haccepted⟩
  rintro ⟨-, hover⟩
  obtain ⟨m, n, -, -, hn, hother⟩ := overmounted_iff.mp hover
  have hlast : effectiveMount ([rootLine, secretsLine false].map MountLine.mount) ⟨"/", ["run", "secrets"]⟩ =
      some (secretsLine false).mount := by decide
  rw [hlast] at hn
  cases hn
  exact hother rfl

/-- The tmpfs is listed first and the disk is mounted on it. -/
theorem stacked_disk_accepted : ¬ ∀ lines root path, root.resolved = some path →
    verify (some (listing lines)) root = some () →
      ∃ n, effectiveMount (lines.map MountLine.mount) path = some n ∧ n.fstype = "tmpfs" := by
  intro hsound
  have haccepted : verify (some (listing [rootLine, secretsLine false, secretsLine true])) secretsRoot = some () :=
    verify_iff.mpr ⟨_, _, _, _, rfl, readMounts_listing _, rfl, rfl, rfl, rfl⟩
  obtain ⟨n, hn, htype⟩ := hsound _ secretsRoot _ rfl haccepted
  have hlast : effectiveMount ([rootLine, secretsLine false, secretsLine true].map MountLine.mount)
      ⟨"/", ["run", "secrets"]⟩ = some (secretsLine true).mount := by decide
  rw [hlast] at hn
  cases hn
  exact absurd htype (by decide)

end SmartTest.Staging
