import Mathlib.Data.List.Nodup
import Mathlib.Data.Rat.Defs
import Mathlib.Tactic.Common
import SmartTest.Lib.Dict

/-!
# JSON values

A value as a Python program holds it: objects keep the order of their fields, and a float
stands for the finite number it is.
-/

namespace SmartTest.Lib

/-- A JSON value. A `float` is finite and stands for its value. -/
inductive Json where
  | null
  | bool (value : Bool)
  | int (value : Int)
  | float (value : Rat)
  | str (value : String)
  | arr (items : List Json)
  | obj (fields : List (String × Json))
  deriving Repr

/-- The number a JSON value is for Python's `==`. -/
def Json.number? : Json → Option Rat
  | .bool b => some (if b then 1 else 0)
  | .int n => some n
  | .float q => some q
  | _ => none

mutual

/-- Python's `==`: `True == 1 == 1.0`, and the order of keys does not count. -/
def Json.pyEq : Json → Json → Bool
  | .null, .null => true
  | .str a, .str b => a = b
  | .arr a, .arr b => pyEqItems a b
  | .obj a, .obj b => a.length = b.length && pyEqFields a b
  | .bool a, b => b.number? = some (if a then 1 else 0)
  | .int a, b => b.number? = some a
  | .float a, b => b.number? = some a
  | _, _ => false

def Json.pyEqItems : List Json → List Json → Bool
  | [], [] => true
  | a :: as, b :: bs => Json.pyEq a b && pyEqItems as bs
  | _, _ => false

def Json.pyEqFields : List (String × Json) → List (String × Json) → Bool
  | [], _ => true
  | (key, a) :: rest, other =>
    (match other.lookup key with
      | some b => Json.pyEq a b
      | none => false) && pyEqFields rest other

end

/-! ## Well-formed values -/

mutual

/-- No object names a field twice, and every float is one of `isFloat`. -/
def Json.WellFormed (isFloat : Rat → Prop) : Json → Prop
  | .float q => isFloat q
  | .arr items => WellFormedItems isFloat items
  | .obj fields => (fields.map Prod.fst).Nodup ∧ WellFormedFields isFloat fields
  | _ => True

def Json.WellFormedItems (isFloat : Rat → Prop) : List Json → Prop
  | [] => True
  | value :: rest => Json.WellFormed isFloat value ∧ WellFormedItems isFloat rest

def Json.WellFormedFields (isFloat : Rat → Prop) : List (String × Json) → Prop
  | [] => True
  | (_, value) :: rest => Json.WellFormed isFloat value ∧ WellFormedFields isFloat rest

end

/-! ## A value equals itself -/

theorem Json.pyEqFields_of_lookup {fields other : List (String × Json)}
    (h : ∀ e ∈ fields, other.lookup e.1 = some e.2 ∧ Json.pyEq e.2 e.2 = true) :
    Json.pyEqFields fields other = true := by
  induction fields with
  | nil => rfl
  | cons e rest ih =>
    obtain ⟨⟨hlookup, heq⟩, hrest⟩ := List.forall_mem_cons.mp h
    obtain ⟨key, value⟩ := e
    simp only [Json.pyEqFields, hlookup, heq, ih hrest, Bool.and_self]

mutual

theorem Json.pyEq_refl {isFloat : Rat → Prop} : ∀ value, Json.WellFormed isFloat value → Json.pyEq value value = true
  | .null, _ => by simp [Json.pyEq]
  | .bool _, _ => by simp [Json.pyEq, Json.number?]
  | .int _, _ => by simp [Json.pyEq, Json.number?]
  | .float _, _ => by simp [Json.pyEq, Json.number?]
  | .str _, _ => by simp [Json.pyEq]
  | .arr items, h => by simpa [Json.pyEq] using Json.pyEqItems_refl items h
  | .obj fields, h => by
    have hfields : Json.pyEqFields fields fields = true := Json.pyEqFields_of_lookup fun e he =>
      ⟨(Dict.lookup_eq_some_iff h.1 e.1 e.2).mpr he, Json.pyEqFields_refl fields h.2 e he⟩
    simp [Json.pyEq, hfields]

theorem Json.pyEqItems_refl {isFloat : Rat → Prop} :
    ∀ items, Json.WellFormedItems isFloat items → Json.pyEqItems items items = true
  | [], _ => by simp [Json.pyEqItems]
  | value :: rest, h => by simp [Json.pyEqItems, Json.pyEq_refl value h.1, Json.pyEqItems_refl rest h.2]

theorem Json.pyEqFields_refl {isFloat : Rat → Prop} :
    ∀ fields, Json.WellFormedFields isFloat fields → ∀ e ∈ fields, Json.pyEq e.2 e.2 = true
  | [], _, _, he => by cases he
  | (_, value) :: rest, h, e, he => by
    rcases List.mem_cons.mp he with rfl | hrest
    · exact Json.pyEq_refl value h.1
    · exact Json.pyEqFields_refl rest h.2 e hrest

end

end SmartTest.Lib
