import SmartTest.Lib.Text
import SmartTest.Lib.Utf8

/-!
# Changed paths

`VersionControlService._changed_paths` of `services/api/version_control_service.py` and the
output of `git status --porcelain=v1 -z` it reads: for each entry two characters of status,
a blank and a path, and for a rename or a copy the original path in a field of its own.
-/

open SmartTest.Lib

namespace SmartTest.Source

/-! ## The parser -/

def isMoved (status : Char) : Bool := status = 'R' || status = 'C'

/-- The fields an entry takes: one more where its first or second character is of a rename or a copy. -/
def fieldsTaken (entry : List Char) : Nat := if (entry.take 2).any isMoved then 2 else 1

/-- The `while` loop; `none` is a loop that goes on. -/
def changedPathsLoop (entries : List (List Char)) : (rounds index : Nat) → List (List Char) → Option (List (List Char))
  | rounds, index, paths =>
    match entries[index]? with
    | none => some paths
    | some entry =>
      match rounds with
      | 0 => none
      | rounds + 1 =>
        if entry.length < 4 then changedPathsLoop entries rounds (index + 1) paths
        else changedPathsLoop entries rounds (index + fieldsTaken entry) (paths ++ [entry.drop 3])

/-- `_changed_paths` on what `git` printed. Every round is one step further in the fields. -/
def changedPaths (stdout : List UInt8) : Option (List String) :=
  let entries := (Utf8.decodeReplace stdout).splitOn '\x00'
  (changedPathsLoop entries entries.length 0 []).map (·.map String.ofList)

/-! ## The output of git -/

/-- The bytes of a path. -/
structure GitPath where
  bytes : List UInt8
  nonempty : bytes ≠ []
  noNul : 0 ∉ bytes

/-- A character of the status: a byte of ASCII that ends no field. -/
structure StatusChar where
  byte : UInt8
  ascii : byte.toNat < 0x80
  noNul : byte ≠ 0

def StatusChar.char (status : StatusChar) : Char := Char.ofNat status.byte.toNat

structure StatusEntry where
  index : StatusChar
  worktree : StatusChar
  path : GitPath
  original : Option GitPath
  original_iff : original.isSome = (isMoved index.char || isMoved worktree.char)

def GitPath.text (path : GitPath) : List Char := Utf8.decodeReplace path.bytes

def StatusEntry.bytes (entry : StatusEntry) : List UInt8 :=
  entry.index.byte :: entry.worktree.byte :: 0x20 :: (entry.path.bytes ++ [0]) ++
    (match entry.original with
      | some original => original.bytes ++ [0]
      | none => [])

def statusOutput (entries : List StatusEntry) : List UInt8 := entries.flatMap StatusEntry.bytes

/-! ## The fields -/

theorem decodeReplace_terminated (field rest : List UInt8) :
    Utf8.decodeReplace (field ++ 0 :: rest) = Utf8.decodeReplace field ++ '\x00' :: Utf8.decodeReplace rest := by
  have hzero : (0 : UInt8).toNat < 0x80 := by decide
  simp only [Utf8.decodeReplace, Utf8.units_append_ascii hzero, List.map_append, List.map_cons]
  rfl

theorem decodeReplace_cons_ascii {b : UInt8} (hb : b.toNat < 0x80) (rest : List UInt8) :
    Utf8.decodeReplace (b :: rest) = Char.ofNat b.toNat :: Utf8.decodeReplace rest := by
  simp [Utf8.decodeReplace, Utf8.units_cons, Utf8.next_ascii hb]

theorem nul_notMem_decodeReplace {field : List UInt8} (h : 0 ∉ field) : '\x00' ∉ Utf8.decodeReplace field := by
  intro hmem
  obtain ⟨unit, hunit, hchar⟩ := List.mem_map.mp hmem
  cases unit with
  | none => exact absurd hchar (by decide)
  | some c =>
    obtain rfl : c = '\x00' := hchar
    exact h (Utf8.mem_units hunit (by decide))

theorem GitPath.text_ne_nil (path : GitPath) : path.text ≠ [] := by
  simpa [GitPath.text, Utf8.decodeReplace, Utf8.units_eq_nil] using path.nonempty

theorem StatusChar.char_ne_nul (status : StatusChar) : status.char ≠ '\x00' := by
  intro h
  have hnat := congrArg Char.toNat h
  have hvalid : status.byte.toNat.isValidChar := by
    have := status.ascii
    unfold Nat.isValidChar
    omega
  rw [StatusChar.char, Utf8.toNat_charOfNat hvalid] at hnat
  exact status.noNul (UInt8.toNat_inj.mp hnat)

/-- The characters of an entry's first field. -/
def StatusEntry.field (entry : StatusEntry) : List Char :=
  entry.index.char :: entry.worktree.char :: ' ' :: entry.path.text

def StatusEntry.fields (entry : StatusEntry) : List (List Char) :=
  entry.field :: (entry.original.map GitPath.text).toList

theorem split_entry (entry : StatusEntry) (rest : List UInt8) :
    (Utf8.decodeReplace (entry.bytes ++ rest)).splitOn '\x00' =
      entry.fields ++ (Utf8.decodeReplace rest).splitOn '\x00' := by
  have hfield : '\x00' ∉ entry.field := by
    simp only [StatusEntry.field, List.mem_cons, not_or]
    exact ⟨entry.index.char_ne_nul.symm, entry.worktree.char_ne_nul.symm, by decide,
      nul_notMem_decodeReplace entry.path.noNul⟩
  have hfirst : ∀ more, Utf8.decodeReplace
      (entry.index.byte :: entry.worktree.byte :: 0x20 :: (entry.path.bytes ++ 0 :: more)) =
        entry.field ++ '\x00' :: Utf8.decodeReplace more := by
    intro more
    rw [decodeReplace_cons_ascii entry.index.ascii, decodeReplace_cons_ascii entry.worktree.ascii,
      decodeReplace_cons_ascii (by decide), decodeReplace_terminated]
    rfl
  unfold StatusEntry.bytes StatusEntry.fields
  cases entry.original with
  | none =>
    simp only [List.append_nil, List.cons_append, List.append_assoc, List.nil_append, hfirst]
    rw [splitOn_terminated hfield]
    rfl
  | some original =>
    simp only [List.cons_append, List.append_assoc, List.nil_append, hfirst, decodeReplace_terminated]
    rw [splitOn_terminated hfield, splitOn_terminated (nul_notMem_decodeReplace original.noNul)]
    rfl

theorem split_statusOutput (entries : List StatusEntry) :
    (Utf8.decodeReplace (statusOutput entries)).splitOn '\x00' = entries.flatMap StatusEntry.fields ++ [[]] := by
  induction entries with
  | nil => simp [statusOutput, Utf8.decodeReplace]
  | cons entry rest ih =>
    change (Utf8.decodeReplace (entry.bytes ++ statusOutput rest)).splitOn '\x00' = _
    rw [split_entry, ih, List.flatMap_cons, List.append_assoc]

/-! ## The loop -/

theorem one_le_fieldsTaken (entry : List Char) : 1 ≤ fieldsTaken entry := by
  unfold fieldsTaken
  split <;> omega

/-- The loop ends on any fields. -/
theorem changedPathsLoop_terminates (entries : List (List Char)) {rounds index : Nat}
    (h : entries.length ≤ index + rounds) (paths : List (List Char)) :
    ∃ result, changedPathsLoop entries rounds index paths = some result := by
  induction rounds generalizing index paths with
  | zero =>
    rw [changedPathsLoop, List.getElem?_eq_none (by omega)]
    exact ⟨_, rfl⟩
  | succ rounds ih =>
    rw [changedPathsLoop]
    split
    · exact ⟨_, rfl⟩
    · next entry _ =>
      have := one_le_fieldsTaken entry
      simp only
      split
      · exact ih (by omega) _
      · exact ih (by omega) _

theorem fieldsTaken_field (entry : StatusEntry) : fieldsTaken entry.field = entry.fields.length := by
  have horiginal := entry.original_iff
  unfold fieldsTaken StatusEntry.field StatusEntry.fields
  cases ho : entry.original with
  | none =>
    rw [ho] at horiginal
    simp at horiginal
    simp [horiginal]
  | some original =>
    rw [ho, Option.isSome_some] at horiginal
    simp [← horiginal]

/-- The loop takes an entry's fields together, whatever the original path looks like. -/
theorem changedPathsLoop_entries (entries : List StatusEntry) (before : List (List Char)) {rounds : Nat}
    (h : (entries.flatMap StatusEntry.fields ++ [[]]).length ≤ rounds) (paths : List (List Char)) :
    changedPathsLoop (before ++ (entries.flatMap StatusEntry.fields ++ [[]])) rounds before.length paths =
      some (paths ++ entries.map fun entry => entry.path.text) := by
  induction entries generalizing before rounds paths with
  | nil =>
    cases rounds with
    | zero => simp at h
    | succ rounds =>
      rw [changedPathsLoop]
      simp only [List.flatMap_nil, List.nil_append, List.getElem?_append_right (Nat.le_refl _), Nat.sub_self,
        List.getElem?_cons_zero, List.length_nil]
      rw [if_pos (by decide), changedPathsLoop, List.getElem?_eq_none (by simp)]
      simp
  | cons entry rest ih =>
    cases rounds with
    | zero => simp at h
    | succ rounds =>
      have hfirst : (before ++ ((entry :: rest).flatMap StatusEntry.fields ++ [[]]))[before.length]? =
          some entry.field := by
        rw [List.getElem?_append_right (Nat.le_refl _), Nat.sub_self]
        rfl
      have hlong : ¬ entry.field.length < 4 := by
        have := List.length_pos_iff.mpr entry.path.text_ne_nil
        simp only [StatusEntry.field, List.length_cons]
        omega
      have hdrop : entry.field.drop 3 = entry.path.text := rfl
      rw [changedPathsLoop, hfirst]
      simp only [if_neg hlong, hdrop, fieldsTaken_field]
      have hsplit : before ++ ((entry :: rest).flatMap StatusEntry.fields ++ [[]]) =
          (before ++ entry.fields) ++ (rest.flatMap StatusEntry.fields ++ [[]]) := by simp
      have hlength : 1 ≤ entry.fields.length := by simp [StatusEntry.fields]
      simp only [List.flatMap_cons, List.length_append] at h
      rw [hsplit, ← List.length_append, ih _ (by simp only [List.length_append]; omega)]
      simp

/-- The current paths of all entries are read, in their order and no others, and any output is read to its end. -/
theorem changed_paths_read :
    (∀ stdout, ∃ paths, changedPaths stdout = some paths) ∧
    (∀ entries, changedPaths (statusOutput entries) =
      some (entries.map fun entry => String.ofList entry.path.text)) ∧
    (∀ text, Utf8.decodeReplace (Utf8.encode text) = text) := by
  refine ⟨?_, ?_, Utf8.decodeReplace_encode⟩
  · intro stdout
    obtain ⟨paths, hpaths⟩ := @changedPathsLoop_terminates ((Utf8.decodeReplace stdout).splitOn '\x00')
      ((Utf8.decodeReplace stdout).splitOn '\x00').length 0 (by omega) []
    exact ⟨_, by rw [changedPaths, hpaths]; rfl⟩
  · intro entries
    have hloop := changedPathsLoop_entries entries [] (Nat.le_refl _) []
    simp only [List.nil_append, List.length_nil] at hloop
    simp only [changedPaths, split_statusOutput, hloop, Option.map_some, List.map_map]
    rfl

end SmartTest.Source
