import Mathlib.Algebra.Order.BigOperators.Group.List
import Mathlib.Algebra.Order.Ring.Nat
import SmartTest.Lib.JsonText

/-!
# The size of a JSON text

How many bytes a compact text takes in UTF-8, counted over the value it is written for.
-/

namespace SmartTest.Lib

theorem utf8Length_append (a b : List Char) : utf8Length (a ++ b) = utf8Length a + utf8Length b := by
  simp [utf8Length]

theorem utf8Length_cons (c : Char) (rest : List Char) : utf8Length (c :: rest) = c.utf8Size + utf8Length rest := by
  simp [utf8Length]

/-- The bytes of the text of a value. -/
def Json.bytes (spelling : Spelling) (value : Json) : Nat := utf8Length (value.write spelling)

variable {spelling : Spelling}

/-! ## Texts -/

/-- The characters that are written as they are, one byte each. -/
def PlainChar (spelling : Spelling) (c : Char) : Prop := escapeChar spelling.raw c = [c] ∧ c.utf8Size = 1

theorem plainChar_of_raw {c : Char} (hraw : spelling.raw c = true) (hlow : 0x23 ≤ c.toNat) (hhigh : c.toNat < 0x80)
    (hslash : c.toNat ≠ 0x5c) : PlainChar spelling c := by
  have hne : ∀ d : Char, d.toNat < 0x23 ∨ d.toNat = 0x5c → c ≠ d := by
    rintro d hd rfl
    omega
  have hshort : shortEscape c = none := by
    rw [shortEscape, if_neg (hne _ (by decide)), if_neg (hne _ (by decide)), if_neg (hne _ (by decide)),
      if_neg (hne _ (by decide)), if_neg (hne _ (by decide)), if_neg (hne _ (by decide)), if_neg (hne _ (by decide))]
  constructor
  · rw [escapeChar, hshort]
    simp only [hraw, if_true]
  · have hval : c.val ≤ 127 := by
      rw [UInt32.le_iff_toNat_le]
      show c.toNat ≤ 127
      omega
    simp [Char.utf8Size, hval]

theorem bytes_str_plain {text : String} (h : ∀ c ∈ text.toList, PlainChar spelling c) :
    (Json.str text).bytes spelling = text.length + 2 := by
  have hchars : ∀ l : List Char, (∀ c ∈ l, PlainChar spelling c) →
      utf8Length (l.flatMap (escapeChar spelling.raw)) = l.length := by
    intro l hl
    induction l with
    | nil => rfl
    | cons c rest ih =>
      obtain ⟨⟨hescape, hsize⟩, hrest⟩ := List.forall_mem_cons.mp hl
      rw [List.flatMap_cons, hescape, List.singleton_append, utf8Length_cons, hsize, ih hrest, List.length_cons]
      omega
  have hquote : ('\x22' : Char).utf8Size = 1 := by decide
  rw [Json.bytes, Json.write, writeString, utf8Length_cons, utf8Length_append, hchars _ h, hquote,
    String.length_toList]
  show 1 + (text.length + 1) = text.length + 2
  omega

/-! ## Objects and arrays -/

theorem bytes_writeFields (fields : List (String × Json)) :
    utf8Length (Json.writeFields spelling fields) =
      1 + (fields.map fun e => (Json.str e.1).bytes spelling + e.2.bytes spelling + 2).sum := by
  induction fields with
  | nil => rfl
  | cons e rest ih =>
    obtain ⟨key, value⟩ := e
    have hcomma : (',' : Char).utf8Size = 1 := by decide
    have hcolon : (':' : Char).utf8Size = 1 := by decide
    have hkey : utf8Length (writeString spelling.raw key) = (Json.str key).bytes spelling := rfl
    have hvalue : utf8Length (value.write spelling) = value.bytes spelling := rfl
    simp only [Json.writeFields, utf8Length_cons, utf8Length_append, ih, hcomma, hcolon, hkey, hvalue, List.map_cons,
      List.sum_cons]
    omega

/-- A brace, and for each field its name, a colon, its value and the comma or brace after it. -/
theorem bytes_obj (e : String × Json) (rest : List (String × Json)) :
    (Json.obj (e :: rest)).bytes spelling =
      1 + ((e :: rest).map fun e => (Json.str e.1).bytes spelling + e.2.bytes spelling + 2).sum := by
  obtain ⟨key, value⟩ := e
  have hbrace : ('\x7b' : Char).utf8Size = 1 := by decide
  have hcolon : (':' : Char).utf8Size = 1 := by decide
  have hkey : utf8Length (writeString spelling.raw key) = (Json.str key).bytes spelling := rfl
  have hvalue : utf8Length (value.write spelling) = value.bytes spelling := rfl
  rw [Json.bytes, Json.write]
  simp only [utf8Length_cons, utf8Length_append, bytes_writeFields, hbrace, hcolon, hkey, hvalue, List.map_cons,
    List.sum_cons]
  omega

/-- The names and the values counted apart, where the names need no escape. -/
theorem bytes_obj_plain {fields : List (String × Json)} (hne : fields ≠ [])
    (h : ∀ key ∈ fields.map Prod.fst, ∀ c ∈ key.toList, PlainChar spelling c) :
    (Json.obj fields).bytes spelling =
      1 + ((fields.map Prod.fst).map fun key => key.length + 4).sum + (fields.map fun e => e.2.bytes spelling).sum := by
  have hsum : ∀ l : List (String × Json), (∀ key ∈ l.map Prod.fst, ∀ c ∈ key.toList, PlainChar spelling c) →
      (l.map fun e => (Json.str e.1).bytes spelling + e.2.bytes spelling + 2).sum =
        ((l.map Prod.fst).map fun key => key.length + 4).sum + (l.map fun e => e.2.bytes spelling).sum := by
    intro l hl
    induction l with
    | nil => rfl
    | cons e rest ih =>
      obtain ⟨hkey, hrest⟩ := List.forall_mem_cons.mp hl
      simp only [List.map_cons, List.sum_cons, bytes_str_plain hkey, ih hrest]
      omega
  obtain ⟨e, rest, rfl⟩ := List.exists_cons_of_ne_nil hne
  rw [bytes_obj, hsum _ h]
  omega

/-- An object is at least as long as its values. -/
theorem sum_bytes_le_obj (fields : List (String × Json)) :
    (fields.map fun e => e.2.bytes spelling).sum ≤ (Json.obj fields).bytes spelling := by
  cases fields with
  | nil => simp
  | cons e rest =>
    rw [bytes_obj]
    have hle : ((e :: rest).map fun e => e.2.bytes spelling).sum ≤
        ((e :: rest).map fun e => (Json.str e.1).bytes spelling + e.2.bytes spelling + 2).sum :=
      List.sum_le_sum fun e _ => by omega
    omega

end SmartTest.Lib
