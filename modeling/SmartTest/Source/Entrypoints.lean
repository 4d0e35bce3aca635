import SmartTest.Source.Archive

/-!
# The two checks of an entrypoint

`_ScriptBody.validate_entrypoint` of `services/api/automation_schemas.py` checks an entrypoint
when a script is saved, and `LocalSourceStore._entrypoint` when its source is used.
-/

open SmartTest.Lib

namespace SmartTest.Source

/-- The exceptions are `ValueError`s, by their messages. -/
def validateEntrypoint (value : String) : Except String String :=
  let chars := value.toList
  if value ≠ strip value || chars.any (·.toNat < 32) then
    .error "entrypoint must not contain whitespace padding or controls"
  else
    let path := PurePosixPath.parse value
    if '\x5c' ∈ chars || path.isAbsolute || ".." ∈ path.parts || "." ∈ path.parts || path.str ≠ value ||
        path.parts.any (fun part => ':' ∈ part.toList) then
      .error "entrypoint must be a safe relative POSIX path"
    else if value = "." || value = "" || chars.getLast? = some '/' then
      .error "entrypoint must identify a file"
    else .ok value

/-! ## What both of them check -/

/-- The conditions that the two checks have in common. -/
structure Checked (value : String) : Prop where
  padding : value = strip value
  control : ∀ c ∈ value.toList, ¬ c.toNat < 32
  backslash : '\x5c' ∉ value.toList
  relative : (PurePosixPath.parse value).isAbsolute = false
  up : ".." ∉ (PurePosixPath.parse value).parts
  dot : "." ∉ (PurePosixPath.parse value).parts
  normal : (PurePosixPath.parse value).str = value
  colon : ∀ part ∈ (PurePosixPath.parse value).parts, ':' ∉ part.toList
  directory : value.toList.getLast? ≠ some '/'

theorem validateEntrypoint_ok_iff (value result : String) :
    validateEntrypoint value = .ok result ↔ Checked value ∧ value ≠ "." ∧ value ≠ "" ∧ result = value := by
  unfold validateEntrypoint
  simp only [ite_error_eq_ok_iff, Except.ok.injEq, Bool.or_eq_true, decide_eq_true_eq, not_or, List.any_eq_true,
    not_exists, not_and, ne_eq, not_not, Bool.not_eq_true]
  constructor
  · rintro ⟨⟨hpadding, hcontrol⟩, ⟨⟨⟨⟨⟨hbackslash, habsolute⟩, hup⟩, hdot⟩, hnormal⟩, hcolon⟩, ⟨⟨hne, hempty⟩, hlast⟩, rfl⟩
    exact ⟨⟨hpadding, hcontrol, hbackslash, habsolute, hup, hdot, hnormal, hcolon, hlast⟩, hne, hempty, rfl⟩
  · rintro ⟨h, hne, hempty, rfl⟩
    exact ⟨⟨h.padding, h.control⟩, ⟨⟨⟨⟨⟨h.backslash, h.relative⟩, h.up⟩, h.dot⟩, h.normal⟩, h.colon⟩,
      ⟨⟨hne, hempty⟩, h.directory⟩, rfl⟩

theorem entrypoint_ok_iff (value : String) (path : PurePosixPath) :
    entrypoint value = .ok path ↔
      Checked value ∧ value ≠ "" ∧ (PurePosixPath.parse value).name ≠ "" ∧ path = PurePosixPath.parse value := by
  unfold entrypoint
  simp only [ite_error_eq_ok_iff, Except.ok.injEq, Bool.or_eq_true, decide_eq_true_eq, not_or, List.any_eq_true,
    not_exists, not_and, ne_eq, not_not, Bool.not_eq_true]
  constructor
  · rintro ⟨⟨⟨⟨hempty, hpadding⟩, hbackslash⟩, hcontrol⟩,
      ⟨⟨⟨⟨⟨⟨habsolute, hup⟩, hdot⟩, hname⟩, hnormal⟩, hlast⟩, hcolon⟩, rfl⟩
    exact ⟨⟨hpadding, hcontrol, hbackslash, habsolute, hup, hdot, hnormal, hcolon, hlast⟩, hempty, hname, rfl⟩
  · rintro ⟨h, hempty, hname, rfl⟩
    exact ⟨⟨⟨⟨hempty, h.padding⟩, h.backslash⟩, h.control⟩,
      ⟨⟨⟨⟨⟨⟨h.relative, h.up⟩, h.dot⟩, hname⟩, h.normal⟩, h.directory⟩, h.colon⟩, rfl⟩

/-- A path has a name unless it has no parts at all. -/
theorem name_eq_empty {path : PurePosixPath} (h : path.Relative) : path.name = "" ↔ path.tail = [] := by
  unfold PurePosixPath.name
  constructor
  · intro hname
    cases hlast : path.tail.getLast? with
    | none => exact List.getLast?_eq_none_iff.mp hlast
    | some part =>
      rw [hlast, Option.getD_some] at hname
      exact absurd hname (h.tail part (List.mem_of_getLast? hlast)).1
  · intro hnil
    simp [hnil]

theorem Checked.name_eq_empty {value : String} (h : Checked value) :
    (PurePosixPath.parse value).name = "" ↔ value = "." := by
  have hrelative := PurePosixPath.relative_parse h.relative
  rw [Source.name_eq_empty hrelative, ← hrelative.str_eq_dot, h.normal]

/-! ## Agreement -/

/-- A relative path to a file below the directory it is read in. -/
structure SafeEntrypoint (value : String) (components : List String) : Prop where
  relative : value.toList.head? ≠ some '/'
  nonempty : components ≠ []
  named : ∀ part ∈ components, part ≠ "" ∧ part ≠ "." ∧ part ≠ ".."
  characters : ∀ part ∈ components, '/' ∉ part.toList ∧ ':' ∉ part.toList ∧ '\x5c' ∉ part.toList
  joined : value.toList = ['/'].intercalate (components.map String.toList)

/-- A text without a root does not begin with a slash. -/
theorem head_of_relative {value : String} (h : (PurePosixPath.parse value).isAbsolute = false) :
    value.toList.head? ≠ some '/' := by
  intro hhead
  obtain ⟨rest, hchars⟩ := List.head?_eq_some_iff.mp hhead
  simp only [PurePosixPath.isAbsolute, PurePosixPath.parse, hchars, decide_eq_false_iff_not, ne_eq, not_not] at h
  have hroot : PurePosixPath.rootOf ('/' :: rest) = [] := by simpa using congrArg String.toList h
  unfold PurePosixPath.rootOf at hroot
  split at hroot <;> simp_all

theorem mem_intercalate {part : List Char} {parts : List (List Char)} (h : part ∈ parts) {c : Char} (hc : c ∈ part) :
    c ∈ ['/'].intercalate parts := by
  induction parts with
  | nil => cases h
  | cons first rest ih =>
    cases rest with
    | nil =>
      obtain rfl := List.mem_singleton.mp h
      simpa using hc
    | cons next others =>
      rw [List.intercalate_cons_cons]
      rcases List.mem_cons.mp h with rfl | hrest
      · simp [hc]
      · simp [ih hrest]

theorem Checked.safe {value : String} (h : Checked value) (hdot : value ≠ ".") :
    SafeEntrypoint value (PurePosixPath.parse value).parts := by
  have hrelative := PurePosixPath.relative_parse h.relative
  have hparts := parts_eq hrelative
  have htail : (PurePosixPath.parse value).tail ≠ [] := by
    rw [ne_eq, ← hrelative.str_eq_dot, h.normal]
    exact hdot
  have hjoined : value.toList = ['/'].intercalate ((PurePosixPath.parse value).tail.map String.toList) := by
    have hstr := h.normal
    unfold PurePosixPath.str at hstr
    rw [if_neg (mt hrelative.text_eq_nil.mp htail)] at hstr
    rw [← hrelative.text_eq, ← String.toList_ofList (l := (PurePosixPath.parse value).text), hstr]
  have hup := h.up
  have hcolon := h.colon
  rw [hparts] at hup hcolon ⊢
  refine ⟨head_of_relative h.relative, htail, fun part hpart => ?_, fun part hpart => ?_, hjoined⟩
  · obtain ⟨hne, hone, -⟩ := hrelative.tail part hpart
    exact ⟨hne, hone, fun heq => hup (heq ▸ hpart)⟩
  · refine ⟨(hrelative.tail part hpart).2.2, hcolon part hpart, fun hmem => h.backslash ?_⟩
    rw [hjoined]
    exact mem_intercalate (List.mem_map_of_mem hpart) hmem

/-- A script can be saved with the entrypoints that its source can be used with, and they name a file
below the directory of the source. -/
theorem entrypoint_checks_agree (value : String) :
    ((∃ result, validateEntrypoint value = .ok result) ↔ ∃ path, entrypoint value = .ok path) ∧
    (∀ result, validateEntrypoint value = .ok result → result = value ∧
      SafeEntrypoint value (PurePosixPath.parse value).parts) ∧
    (∀ path, entrypoint value = .ok path → path = PurePosixPath.parse value ∧ SafeEntrypoint value path.parts) := by
  refine ⟨?_, ?_, ?_⟩
  · constructor
    · rintro ⟨result, hresult⟩
      obtain ⟨hchecked, hdot, hempty, -⟩ := (validateEntrypoint_ok_iff value result).mp hresult
      exact ⟨_, (entrypoint_ok_iff value _).mpr ⟨hchecked, hempty, mt hchecked.name_eq_empty.mp hdot, rfl⟩⟩
    · rintro ⟨path, hpath⟩
      obtain ⟨hchecked, hempty, hname, -⟩ := (entrypoint_ok_iff value path).mp hpath
      exact ⟨_, (validateEntrypoint_ok_iff value _).mpr ⟨hchecked, mt hchecked.name_eq_empty.mpr hname, hempty, rfl⟩⟩
  · intro result hresult
    obtain ⟨hchecked, hdot, -, rfl⟩ := (validateEntrypoint_ok_iff value result).mp hresult
    exact ⟨rfl, hchecked.safe hdot⟩
  · intro path hpath
    obtain ⟨hchecked, -, hname, rfl⟩ := (entrypoint_ok_iff value path).mp hpath
    exact ⟨rfl, hchecked.safe (mt hchecked.name_eq_empty.mpr hname)⟩

example : (validateEntrypoint "tests/./test_login.py").isOk = false := by decide +kernel

end SmartTest.Source
