import SmartTest.Lib.Dict
import SmartTest.Lib.Json

/-!
# Frozen values

`FrozenMapping`, `_deep_freeze` and `_deep_thaw` of `packages/protocol/models.py` on the
values that come from JSON. Sets and byte arrays do not, and are left out.
-/

open SmartTest.Lib

namespace SmartTest.Run

/-- A Python value made from JSON, plain or frozen or partly so. -/
inductive PyValue where
  | none
  | bool (value : Bool)
  | int (value : Int)
  | float (value : Rat)
  | str (value : String)
  | list (items : List PyValue)
  | tuple (items : List PyValue)
  | dict (fields : List (String × PyValue))
  | frozen (fields : List (String × PyValue))
  deriving Repr

namespace PyValue

mutual

def deepFreeze : PyValue → PyValue
  | .frozen fields => .frozen fields
  | .dict fields => .frozen (deepFreezeFields fields)
  | .list items | .tuple items => .tuple (deepFreezeItems items)
  | value => value

def deepFreezeItems : List PyValue → List PyValue
  | [] => []
  | item :: rest => deepFreeze item :: deepFreezeItems rest

def deepFreezeFields : List (String × PyValue) → List (String × PyValue)
  | [] => []
  | (key, item) :: rest => (key, deepFreeze item) :: deepFreezeFields rest

end

mutual

/-- A list is left as it is: nothing frozen has one. -/
def deepThaw : PyValue → PyValue
  | .dict fields | .frozen fields => .dict (deepThawFields fields)
  | .tuple items => .list (deepThawItems items)
  | value => value

def deepThawItems : List PyValue → List PyValue
  | [] => []
  | item :: rest => deepThaw item :: deepThawItems rest

def deepThawFields : List (String × PyValue) → List (String × PyValue)
  | [] => []
  | (key, item) :: rest => (key, deepThaw item) :: deepThawFields rest

end

mutual

/-- The JSON that an encoder writes for a value: a `FrozenMapping` is no type it knows. -/
def json? : PyValue → Option Json
  | .none => some .null
  | .bool b => some (.bool b)
  | .int n => some (.int n)
  | .float q => some (.float q)
  | .str s => some (.str s)
  | .list items | .tuple items => (jsonItems? items).map .arr
  | .dict fields => (jsonFields? fields).map .obj
  | .frozen _ => Option.none

def jsonItems? : List PyValue → Option (List Json)
  | [] => some []
  | item :: rest => do return (← json? item) :: (← jsonItems? rest)

def jsonFields? : List (String × PyValue) → Option (List (String × Json))
  | [] => some []
  | (key, item) :: rest => do return (key, ← json? item) :: (← jsonFields? rest)

end

mutual

/-- What `json.loads` makes. -/
def plain : Json → PyValue
  | .null => .none
  | .bool b => .bool b
  | .int n => .int n
  | .float q => .float q
  | .str s => .str s
  | .arr items => .list (plainItems items)
  | .obj fields => .dict (plainFields fields)

def plainItems : List Json → List PyValue
  | [] => []
  | item :: rest => plain item :: plainItems rest

def plainFields : List (String × Json) → List (String × PyValue)
  | [] => []
  | (key, item) :: rest => (key, plain item) :: plainFields rest

end

/-- `_deep_freeze` of a JSON value. -/
def freeze (value : Json) : PyValue := (plain value).deepFreeze

/-! ## Thawing undoes freezing -/

mutual

theorem deepThaw_deepFreeze (value : Json) : (plain value).deepFreeze.deepThaw = plain value := by
  cases value with
  | arr items => simp [plain, deepFreeze, deepThaw, deepThaw_deepFreezeItems items]
  | obj fields => simp [plain, deepFreeze, deepThaw, deepThaw_deepFreezeFields fields]
  | _ => simp [plain, deepFreeze, deepThaw]

theorem deepThaw_deepFreezeItems (items : List Json) :
    deepThawItems (deepFreezeItems (plainItems items)) = plainItems items := by
  cases items with
  | nil => rfl
  | cons item rest =>
    simp [plainItems, deepFreezeItems, deepThawItems, deepThaw_deepFreeze item, deepThaw_deepFreezeItems rest]

theorem deepThaw_deepFreezeFields (fields : List (String × Json)) :
    deepThawFields (deepFreezeFields (plainFields fields)) = plainFields fields := by
  match fields with
  | [] => rfl
  | (key, item) :: rest =>
    simp [plainFields, deepFreezeFields, deepThawFields, deepThaw_deepFreeze item,
      deepThaw_deepFreezeFields rest]

end

mutual

theorem json?_plain (value : Json) : (plain value).json? = some value := by
  cases value with
  | arr items => simp [plain, json?, jsonItems?_plain items]
  | obj fields => simp [plain, json?, jsonFields?_plain fields]
  | _ => simp [plain, json?]

theorem jsonItems?_plain (items : List Json) : jsonItems? (plainItems items) = some items := by
  cases items with
  | nil => rfl
  | cons item rest => simp [plainItems, jsonItems?, json?_plain item, jsonItems?_plain rest]

theorem jsonFields?_plain (fields : List (String × Json)) : jsonFields? (plainFields fields) = some fields := by
  match fields with
  | [] => rfl
  | (key, item) :: rest => simp [plainFields, jsonFields?, json?_plain item, jsonFields?_plain rest]

end

end PyValue

end SmartTest.Run
