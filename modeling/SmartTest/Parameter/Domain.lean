import Mathlib.Data.List.Sort
import SmartTest.Lib.Except
import SmartTest.Lib.JsonText
import SmartTest.Lib.Text
import SmartTest.Run.Domain

/-!
# Script parameters and enum sets

`services/api/parameter_domain.py` and the checks at the top of
`services/api/parameter_repository.py`. Values are compared by the JSON text they have, and
not as Python compares them: `1`, `1.0`, `True` and `"1"` are four values.
-/

open SmartTest.Lib SmartTest.Run

namespace SmartTest.Parameter

/-- The `repr` of a float that is a number: a point or an exponent is in it. -/
def isFloatRepr (repr : List Char) : Bool :=
  repr.all (fun c => c.isDigit || c = '-' || c = '+' || c = '.' || c = 'e') && repr.any fun c => c = '.' || c = 'e'

/-- A value as it is handed in. A float is what its `repr` is, or `nan` or infinite; `structured` is no scalar. -/
inductive JsonScalar where
  | null
  | bool (b : Bool)
  | int (n : Int)
  | float (repr : List Char) (spelled : isFloatRepr repr = true)
  | notFinite
  | str (s : String)
  | structured
  deriving DecidableEq

/-- Characters that `ensure_ascii=False` writes as they are. -/
def rawChar (c : Char) : Bool := 0x20 ≤ c.toNat

/-- `json_identity`. -/
def jsonIdentity : JsonScalar → Except Exn (List Char)
  | .null => .ok ['n', 'u', 'l', 'l']
  | .bool true => .ok ['t', 'r', 'u', 'e']
  | .bool false => .ok ['f', 'a', 'l', 's', 'e']
  | .int n => .ok (writeInt n)
  | .float repr _ => .ok repr
  | .str s => .ok (writeString rawChar s)
  | .notFinite => .error ⟨.valueError, "values must be finite JSON scalars"⟩
  | .structured => .error ⟨.valueError, "values must be JSON scalars"⟩

/-! ## The identity of a value -/

/-- The scalar that has a text. -/
def readScalar (text : List Char) : JsonScalar :=
  if text = ['n', 'u', 'l', 'l'] then .null
  else if text = ['t', 'r', 'u', 'e'] then .bool true
  else if text = ['f', 'a', 'l', 's', 'e'] then .bool false
  else if text.head? = some '\x22' then .str (((readString text.tail).map Prod.fst).getD "")
  else if spelled : isFloatRepr text = true then .float text spelled
  else .int (readInt text)

theorem isFloatRepr_writeInt (n : Int) : isFloatRepr (writeInt n) = false := by
  have hany : (writeInt n).any (fun c => c = '.' || c = 'e') = false := by
    rw [List.any_eq_false]
    intro c hc
    rcases mem_writeInt hc with rfl | hdigit
    · decide
    · intro hmark
      simp only [Bool.or_eq_true, decide_eq_true_eq] at hmark
      rcases hmark with rfl | rfl
      · exact absurd hdigit (by decide)
      · exact absurd hdigit (by decide)
  unfold isFloatRepr
  rw [hany, Bool.and_false]

theorem isFloatRepr_head {text : List Char} (h : isFloatRepr text = true) : text.head? ≠ some '\x22' := by
  intro hhead
  obtain ⟨tail, rfl⟩ : ∃ tail, text = '\x22' :: tail := List.head?_eq_some_iff.mp hhead
  simp [isFloatRepr] at h

theorem writeInt_head (n : Int) : (writeInt n).head? ≠ some '\x22' := by
  intro hhead
  obtain ⟨tail, htail⟩ := List.head?_eq_some_iff.mp hhead
  exact writeInt_ne (c := '\x22') List.mem_cons_self (by decide) (by decide) htail

/-- The text gives the value back. -/
theorem readScalar_jsonIdentity {value : JsonScalar} {text : List Char} (h : jsonIdentity value = .ok text) :
    readScalar text = value := by
  unfold readScalar
  cases value with
  | null =>
    obtain rfl := Except.ok.inj h
    rfl
  | bool b =>
    cases b <;> obtain rfl := Except.ok.inj h <;> rfl
  | int n =>
    obtain rfl := Except.ok.inj h
    rw [if_neg (writeInt_ne (c := 'n') (by decide) (by decide) (by decide)),
      if_neg (writeInt_ne (c := 't') (by decide) (by decide) (by decide)),
      if_neg (writeInt_ne (c := 'f') (by decide) (by decide) (by decide)), if_neg (writeInt_head n),
      dif_neg (by simp [isFloatRepr_writeInt]), readInt_writeInt]
  | float repr spelled =>
    obtain rfl := Except.ok.inj h
    have hne : ∀ text, isFloatRepr text = false → repr ≠ text := by
      rintro text htext rfl
      rw [htext] at spelled
      cases spelled
    rw [if_neg (hne _ (by decide)), if_neg (hne _ (by decide)), if_neg (hne _ (by decide)),
      if_neg (isFloatRepr_head spelled), dif_pos spelled]
  | str s =>
    obtain rfl := Except.ok.inj h
    have hsound : Spelling.Sound rawChar := fun c hc => by simpa [rawChar] using hc
    have hread := readString_writeString hsound s []
    rw [List.append_nil] at hread
    rw [hread]
    rfl
  | notFinite => cases h
  | structured => cases h

/-- Only equal values have one identity. -/
theorem jsonIdentity_inj {a b : JsonScalar} {text : List Char} (ha : jsonIdentity a = .ok text)
    (hb : jsonIdentity b = .ok text) : a = b := by
  rw [← readScalar_jsonIdentity ha, readScalar_jsonIdentity hb]

/-- `1`, `1.0`, `True` and `"1"`. -/
example : [jsonIdentity (.int 1), jsonIdentity (.float ['1', '.', '0'] rfl), jsonIdentity (.bool true),
    jsonIdentity (.str "1")].Nodup := by decide +kernel

/-! ## Records -/

inductive ParameterInputType where
  | text | number | integer | boolean | enum
  deriving DecidableEq, Repr

structure ParameterEnumOption where
  label : String
  value : JsonScalar
  deriving DecidableEq

structure ParameterEnumSetRecord where
  id : UUID
  projectId : UUID
  name : String
  description : String
  options : List ParameterEnumOption
  stateVersion : Nat
  deriving DecidableEq

structure ScriptParameterDefinition where
  name : String
  label : String
  inputType : ParameterInputType
  required : Bool
  enumSetId : Option UUID
  defaultValue : JsonScalar
  position : Int
  deriving DecidableEq

/-- `ParameterEnumSetRecord.update`. -/
def ParameterEnumSetRecord.update (record : ParameterEnumSetRecord) (name description : String)
    (options : List ParameterEnumOption) : ParameterEnumSetRecord :=
  { record with
    name := name, description := description, options := options, stateVersion := record.stateVersion + 1 }

/-! ## Checks -/

/-- A label or a name: something in it, and at most 255 characters. -/
def blankOrLong (text : String) : Bool := text = "" || text.length > 255

/-- The loop of `validate_enum_values`, with the identities it has met. -/
def validateOptions (identities : List (List Char)) :
    List ParameterEnumOption → Except Exn (List ParameterEnumOption)
  | [] => .ok []
  | option :: rest => do
    if blankOrLong (strip option.label) then
      .error ⟨.valueError, "option labels must contain 1 to 255 characters"⟩
    let identity ← jsonIdentity option.value
    if identity ∈ identities then .error ⟨.valueError, "enum option values must be unique"⟩
    let validated ← validateOptions (identity :: identities) rest
    return ⟨strip option.label, option.value⟩ :: validated

def validateEnumValues (name : String) (options : List ParameterEnumOption) :
    Except Exn (String × List ParameterEnumOption) := do
  if blankOrLong (strip name) then .error ⟨.valueError, "enum name must contain 1 to 255 characters"⟩
  let validated ← validateOptions [] options
  return (strip name, validated)

/-- Whether the identity of a value is among those of the options. -/
def offered (options : List ParameterEnumOption) (value : JsonScalar) : Except Exn Bool := do
  let identities ← options.mapM fun option => jsonIdentity option.value
  let identity ← jsonIdentity value
  return decide (identity ∈ identities)

def parameterConflict (message : String) : Exn := ⟨.other "ScriptParameterConflict", message⟩

/-- The loop of `validate_parameter_definitions`. `PARAMETER_NAME_PATTERN` is the pattern of environment names. -/
def validateDefinitions (names : List String) (positions : List Int) :
    List ScriptParameterDefinition → Except Exn (List ScriptParameterDefinition)
  | [] => .ok []
  | item :: rest => do
    if isEnvironmentName item.name = false ∨ item.name ∈ names then
      .error (parameterConflict "parameter names must be unique valid identifiers")
    if blankOrLong (strip item.label) then .error (parameterConflict "parameter labels must not be blank")
    if item.position < 0 ∨ item.position ∈ positions then
      .error (parameterConflict "parameter positions must be unique non-negative integers")
    let _ ← jsonIdentity item.defaultValue
    if item.inputType = .enum ∧ item.enumSetId = none then
      .error (parameterConflict "enum parameters require enum_set_id")
    if item.inputType ≠ .enum ∧ item.enumSetId ≠ none then
      .error (parameterConflict "enum_set_id is only valid for enum parameters")
    let validated ← validateDefinitions (item.name :: names) (item.position :: positions) rest
    return { item with label := strip item.label } :: validated

/-- `validate_parameter_definitions`: in the order of their positions. -/
def validateParameterDefinitions (definitions : List ScriptParameterDefinition) :
    Except Exn (List ScriptParameterDefinition) := do
  let validated ← validateDefinitions [] [] definitions
  return validated.insertionSort fun a b => a.position ≤ b.position

end SmartTest.Parameter
