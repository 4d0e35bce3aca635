import SmartTest.Lib.JsonRead

/-!
# JSON as JavaScript has it

JavaScript has one type of numbers, the doubles, so `JSON.parse` gives every float back but may
round an integer.
-/

namespace SmartTest.Lib

inductive Js where
  | null
  | bool (value : Bool)
  | number (value : Rat)
  /-- A number without a finite value. -/
  | infinity
  | str (value : String)
  | arr (items : List Js)
  | obj (fields : List (String × Js))

mutual

/-- What `JSON.parse` makes of a value; `double` is the number it makes of an integer, if that is finite. -/
def Json.toJs (double : Int → Option Rat) : Json → Js
  | .null => .null
  | .bool b => .bool b
  | .int n => ((double n).map Js.number).getD .infinity
  | .float q => .number q
  | .str s => .str s
  | .arr items => .arr (toJsItems double items)
  | .obj fields => .obj (toJsFields double fields)

def Json.toJsItems (double : Int → Option Rat) : List Json → List Js
  | [] => []
  | value :: rest => value.toJs double :: toJsItems double rest

def Json.toJsFields (double : Int → Option Rat) : List (String × Json) → List (String × Js)
  | [] => []
  | (key, value) :: rest => (key, value.toJs double) :: toJsFields double rest

end

/-- The same value with nothing rounded. -/
abbrev exactly (n : Int) : Option Rat := some n

mutual

/-- Every integer in the value is a double. -/
def Json.Exact (double : Int → Option Rat) : Json → Prop
  | .int n => double n = exactly n
  | .arr items => ExactItems double items
  | .obj fields => ExactFields double fields
  | _ => True

def Json.ExactItems (double : Int → Option Rat) : List Json → Prop
  | [] => True
  | value :: rest => value.Exact double ∧ ExactItems double rest

def Json.ExactFields (double : Int → Option Rat) : List (String × Json) → Prop
  | [] => True
  | (_, value) :: rest => value.Exact double ∧ ExactFields double rest

end

section

variable {double : Int → Option Rat}

mutual

/-- A value arrives as it is exactly if nothing in it is rounded. -/
theorem toJs_eq_exact_iff (value : Json) : value.toJs double = value.toJs exactly ↔ value.Exact double := by
  match value with
  | .null | .bool _ | .float _ | .str _ => simp [Json.toJs, Json.Exact]
  | .int n =>
    simp only [Json.toJs, Json.Exact]
    cases double n <;> simp
  | .arr items =>
    simp only [Json.toJs, Json.Exact, Js.arr.injEq]
    exact toJsItems_eq_exact_iff items
  | .obj fields =>
    simp only [Json.toJs, Json.Exact, Js.obj.injEq]
    exact toJsFields_eq_exact_iff fields

theorem toJsItems_eq_exact_iff (items : List Json) :
    Json.toJsItems double items = Json.toJsItems exactly items ↔ Json.ExactItems double items := by
  match items with
  | [] => simp [Json.toJsItems, Json.ExactItems]
  | value :: rest =>
    simp only [Json.toJsItems, Json.ExactItems, List.cons.injEq]
    exact and_congr (toJs_eq_exact_iff value) (toJsItems_eq_exact_iff rest)

theorem toJsFields_eq_exact_iff (fields : List (String × Json)) :
    Json.toJsFields double fields = Json.toJsFields exactly fields ↔ Json.ExactFields double fields := by
  match fields with
  | [] => simp [Json.toJsFields, Json.ExactFields]
  | (key, value) :: rest =>
    simp only [Json.toJsFields, Json.ExactFields, List.cons.injEq, Prod.mk.injEq, true_and]
    exact and_congr (toJs_eq_exact_iff value) (toJsFields_eq_exact_iff rest)

end

theorem toJsItems_map {α : Type} (f : α → Json) (l : List α) :
    Json.toJsItems double (l.map f) = l.map fun a => (f a).toJs double := by
  induction l with
  | nil => rfl
  | cons a rest ih => rw [List.map_cons, Json.toJsItems, ih, List.map_cons]

/-- `JSON.parse`. -/
def parseJs (double : Int → Option Rat) (readFloat : List Char → Option Rat) (text : List Char) : Option Js :=
  (readJson readFloat text).map (Json.toJs double)

theorem parseJs_write {spelling : Spelling} {readFloat : List Char → Option Rat} {isFloat : Rat → Prop}
    (hs : spelling.Faithful readFloat isFloat) {value : Json} (hwf : value.WellFormed isFloat) :
    parseJs double readFloat (value.write spelling) = some (value.toJs double) := by
  rw [parseJs, readJson_write hs hwf, Option.map_some]

end

end SmartTest.Lib
