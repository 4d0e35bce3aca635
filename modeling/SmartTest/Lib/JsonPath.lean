import SmartTest.Lib.Json

/-!
# Paths into a JSON value

A path is a list of steps, each into a field of an object or an item of an array.
-/

namespace SmartTest.Lib

inductive Step where
  | field (name : String)
  | item (i : Nat)
  deriving DecidableEq, Repr

namespace Json

def child? : Json → Step → Option Json
  | .obj fields, .field name => fields.lookup name
  | .arr items, .item i => items[i]?
  | _, _ => none

/-- The value at the end of a path, if every step exists. -/
def at? (value : Json) (steps : List Step) : Option Json := steps.foldlM child? value

@[simp]
theorem at?_nil (value : Json) : value.at? [] = some value := rfl

theorem at?_cons (value : Json) (step : Step) (rest : List Step) :
    value.at? (step :: rest) = (value.child? step).bind (·.at? rest) := rfl

theorem at?_append (value : Json) (steps rest : List Step) :
    value.at? (steps ++ rest) = (value.at? steps).bind (·.at? rest) := by
  unfold at?
  rw [List.foldlM_append]
  rfl

theorem at?_append_eq_some {value found : Json} {steps rest : List Step} :
    value.at? (steps ++ rest) = some found ↔ ∃ mid, value.at? steps = some mid ∧ mid.at? rest = some found := by
  rw [at?_append, Option.bind_eq_some_iff]

/-- A value that has something at the end of the path. -/
def along : List Step → Json
  | [] => .null
  | .field name :: rest => .obj [(name, along rest)]
  | .item i :: rest => .arr (List.replicate i .null ++ [along rest])

theorem at?_along (steps : List Step) : (along steps).at? steps = some .null := by
  induction steps with
  | nil => rfl
  | cons step rest ih =>
    rw [at?_cons]
    cases step with
    | field name =>
      have hchild : (along (.field name :: rest)).child? (.field name) = some (along rest) := by
        simp [along, child?]
      rw [hchild, Option.bind_some, ih]
    | item i =>
      have hchild : (along (.item i :: rest)).child? (.item i) = some (along rest) := by
        simp [along, child?]
      rw [hchild, Option.bind_some, ih]

/-! ## Nesting -/

mutual

/-- How deep arrays and objects nest. -/
def depth : Json → Nat
  | .arr items => depthItems items + 1
  | .obj fields => depthFields fields + 1
  | _ => 0

def depthItems : List Json → Nat
  | [] => 0
  | item :: rest => max (depth item) (depthItems rest)

def depthFields : List (String × Json) → Nat
  | [] => 0
  | (_, item) :: rest => max (depth item) (depthFields rest)

end

end Json

end SmartTest.Lib
