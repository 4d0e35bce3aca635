import SmartTest.Lib.JsonText

/-!
# Reading JSON texts

The reader of whole values, and the round trip: every compact text is read back as the
value it was written from. So no two values have the same text.
-/

namespace SmartTest.Lib

def isBlank (c : Char) : Bool := c = ' ' || c = '\t' || c = '\n' || c = '\r'

def skipBlanks (cs : List Char) : List Char := cs.dropWhile isBlank

/-- The fields of an object as a dictionary holds them: the last value of a name, at its first place. -/
def gatherFields (fields : List (String × Json)) : List (String × Json) :=
  fields.foldl (fun acc field => upsert field.1 field.2 acc) []

/-- A name and its colon, with the blanks after it. -/
def readKey : List Char → Option (String × List Char)
  | '\x22' :: rest =>
    (readString rest).bind fun key =>
      match skipBlanks key.2 with
      | ':' :: rest => some (key.1, skipBlanks rest)
      | _ => none
  | _ => none

/-- One of the words `null`, `true` and `false`. -/
def readWord (word : List Char) (value : Json) (cs : List Char) : Option (Json × List Char) :=
  if word.isPrefixOf cs then some (value, cs.drop word.length) else none

mutual

/-- One value at the front of a text, which has no blanks there. -/
def readValue (readFloat : List Char → Option Rat) : (fuel : Nat) → List Char → Option (Json × List Char)
  | 0, _ => none
  | _ + 1, [] => none
  | fuel + 1, c :: rest =>
    if c = '\x22' then (readString rest).map fun p => (.str p.1, p.2)
    else if c = '[' then
      match skipBlanks rest with
      | ']' :: rest => some (.arr [], rest)
      | rest => (readItems readFloat fuel rest).map fun p => (.arr p.1, p.2)
    else if c = '\x7b' then
      match skipBlanks rest with
      | '\x7d' :: rest => some (.obj [], rest)
      | rest => (readFields readFloat fuel rest).map fun p => (.obj (gatherFields p.1), p.2)
    else if c = 'n' then readWord ['n', 'u', 'l', 'l'] .null (c :: rest)
    else if c = 't' then readWord ['t', 'r', 'u', 'e'] (.bool true) (c :: rest)
    else if c = 'f' then readWord ['f', 'a', 'l', 's', 'e'] (.bool false) (c :: rest)
    else readNumber readFloat (c :: rest)

/-- The items of an array, up to its bracket. -/
def readItems (readFloat : List Char → Option Rat) :
    (fuel : Nat) → List Char → Option (List Json × List Char)
  | 0, _ => none
  | fuel + 1, cs =>
    (readValue readFloat fuel cs).bind fun p =>
      match skipBlanks p.2 with
      | ',' :: rest => (readItems readFloat fuel (skipBlanks rest)).map fun q => (p.1 :: q.1, q.2)
      | ']' :: rest => some ([p.1], rest)
      | _ => none

/-- The fields of an object, up to its brace. -/
def readFields (readFloat : List Char → Option Rat) :
    (fuel : Nat) → List Char → Option (List (String × Json) × List Char)
  | 0, _ => none
  | fuel + 1, cs =>
    (readKey cs).bind fun key =>
      (readValue readFloat fuel key.2).bind fun p =>
        match skipBlanks p.2 with
        | ',' :: rest => (readFields readFloat fuel (skipBlanks rest)).map fun q => ((key.1, p.1) :: q.1, q.2)
        | '\x7d' :: rest => some ([(key.1, p.1)], rest)
        | _ => none

end

/-- `json.loads`: one value with blanks around it. The literals `NaN` and `Infinity`, which it also takes,
are no finite numbers and have no value here. -/
def readJson (readFloat : List Char → Option Rat) (cs : List Char) : Option Json :=
  (readValue readFloat (2 * cs.length) (skipBlanks cs)).bind fun p =>
    if (skipBlanks p.2).isEmpty then some p.1 else none

/-! ## The round trip -/

/-- What a reader relies on: control characters are escaped, and the text of a float is a number with a
fraction or an exponent that `readFloat` takes back. -/
structure Spelling.Faithful (spelling : Spelling) (readFloat : List Char → Option Rat) (isFloat : Rat → Prop) :
    Prop where
  raw : Spelling.Sound spelling.raw
  scans : ∀ q, isFloat q → scanNumber (spelling.float q) = some ((spelling.float q, true), [])
  reads : ∀ q, isFloat q → readFloat (spelling.float q) = some q

theorem asciiSpelling_sound (float : Rat → List Char) : Spelling.Sound (asciiSpelling float).raw := by
  intro c hc
  simp only [asciiSpelling, Bool.and_eq_true, decide_eq_true_eq] at hc
  exact hc.1

/-- Where there are no floats. -/
theorem asciiSpelling_faithful (float : Rat → List Char) (readFloat : List Char → Option Rat) :
    (asciiSpelling float).Faithful readFloat fun _ => False :=
  ⟨asciiSpelling_sound float, fun _ h => h.elim, fun _ h => h.elim⟩

theorem foldl_upsert_of_nodup (fields acc : List (String × Json)) (h : ((acc ++ fields).map Prod.fst).Nodup) :
    fields.foldl (fun acc field => upsert field.1 field.2 acc) acc = acc ++ fields := by
  induction fields generalizing acc with
  | nil => simp
  | cons field rest ih =>
    have hnew : field.1 ∉ acc.map Prod.fst := by
      rw [List.map_append] at h
      intro hmem
      exact (List.nodup_append.mp h).2.2 _ hmem _ (by simp) rfl
    rw [List.foldl_cons, Dict.upsert_of_not_mem _ _ _ hnew, ih _ (by simpa using h)]
    simp

theorem gatherFields_of_nodup {fields : List (String × Json)} (h : (fields.map Prod.fst).Nodup) :
    gatherFields fields = fields :=
  foldl_upsert_of_nodup fields [] h

/-- A text that is one number starts with its sign or a digit. -/
theorem scanNumber_head {text : List Char} {p : (List Char × Bool) × List Char} (h : scanNumber text = some p) :
    ∃ c tail, text = c :: tail ∧ (c = '-' ∨ c.isDigit = true) := by
  cases text with
  | nil => simp [scanNumber, takeSign, takeInt] at h
  | cons c tail =>
    refine ⟨c, tail, rfl, ?_⟩
    by_contra hc
    rw [not_or, Bool.not_eq_true] at hc
    have hzero : c ≠ '0' := by
      rintro rfl
      simp at hc
    simp [scanNumber, takeSign, takeInt, hc.1, hc.2] at h

/-- The reader of numbers takes whatever starts like one. -/
theorem readValue_number (readFloat : List Char → Option Rat) (fuel : Nat) {c : Char} (tail : List Char)
    (hc : c = '-' ∨ c.isDigit = true) :
    readValue readFloat (fuel + 1) (c :: tail) = readNumber readFloat (c :: tail) := by
  have hne : c ≠ '\x22' ∧ c ≠ '[' ∧ c ≠ '\x7b' ∧ c ≠ 'n' ∧ c ≠ 't' ∧ c ≠ 'f' := by
    rcases hc with rfl | hd
    · decide
    · refine ⟨?_, ?_, ?_, ?_, ?_, ?_⟩ <;> (rintro rfl; simp at hd)
  obtain ⟨h1, h2, h3, h4, h5, h6⟩ := hne
  rw [readValue, if_neg h1, if_neg h2, if_neg h3, if_neg h4, if_neg h5, if_neg h6]

theorem readNumber_int (readFloat : List Char → Option Rat) (n : Int) {rest : List Char} (h : NumberEnds rest) :
    readNumber readFloat (writeInt n ++ rest) = some (.int n, rest) := by
  rw [readNumber, scanNumber_append h (scanNumber_writeInt n)]
  simp [readInt_writeInt]

section RoundTrip

variable {spelling : Spelling} {readFloat : List Char → Option Rat} {isFloat : Rat → Prop}

theorem readNumber_float (hs : spelling.Faithful readFloat isFloat) {q : Rat} (hq : isFloat q)
    {rest : List Char} (h : NumberEnds rest) :
    readNumber readFloat (spelling.float q ++ rest) = some (.float q, rest) := by
  rw [readNumber, scanNumber_append h (hs.scans q hq)]
  simp [hs.reads q hq]

/-- The first character of a value is no blank and closes no array. -/
theorem write_head (hs : spelling.Faithful readFloat isFloat) {value : Json} (hwf : value.WellFormed isFloat) :
    ∃ c tail, value.write spelling = c :: tail ∧ isBlank c = false ∧ c ≠ ']' := by
  have hnumber {text : List Char} {p : (List Char × Bool) × List Char} (hscan : scanNumber text = some p) :
      ∃ c tail, text = c :: tail ∧ isBlank c = false ∧ c ≠ ']' := by
    obtain ⟨c, tail, heq, hc⟩ := scanNumber_head hscan
    refine ⟨c, tail, heq, ?_⟩
    rcases hc with rfl | hd
    · decide
    · have hblank : c ≠ ' ' ∧ c ≠ '\t' ∧ c ≠ '\n' ∧ c ≠ '\r' ∧ c ≠ ']' := by
        refine ⟨?_, ?_, ?_, ?_, ?_⟩ <;> (rintro rfl; simp at hd)
      simp [isBlank, hblank]
  cases value with
  | null => exact ⟨_, _, rfl, by decide⟩
  | bool b => cases b <;> exact ⟨_, _, rfl, by decide⟩
  | int n => exact hnumber (by simpa [Json.write] using scanNumber_writeInt n)
  | float q => exact hnumber (by simpa [Json.write] using hs.scans q (by simpa [Json.WellFormed] using hwf))
  | str s => exact ⟨_, _, rfl, by decide⟩
  | arr items => cases items <;> exact ⟨_, _, rfl, by decide⟩
  | obj fields => rcases fields with _ | ⟨⟨key, first⟩, rest⟩ <;> exact ⟨_, _, rfl, by decide⟩

theorem skipBlanks_cons {c : Char} (tail : List Char) (h : isBlank c = false) :
    skipBlanks (c :: tail) = c :: tail := by
  simp [skipBlanks, h]

theorem skipBlanks_write (hs : spelling.Faithful readFloat isFloat) {value : Json}
    (hwf : value.WellFormed isFloat) (rest : List Char) :
    skipBlanks (value.write spelling ++ rest) = value.write spelling ++ rest := by
  obtain ⟨c, tail, heq, hblank, -⟩ := write_head hs hwf
  rw [heq, List.cons_append, skipBlanks_cons _ hblank]

/-- The text of `value` is read back, whatever follows it. -/
def ReadsBack (spelling : Spelling) (readFloat : List Char → Option Rat) (value : Json) : Prop :=
  ∀ fuel rest, 2 * (value.write spelling).length ≤ fuel → NumberEnds rest →
    readValue readFloat fuel (value.write spelling ++ rest) = some (value, rest)

theorem numberEnds_cons {c : Char} (tail : List Char)
    (h : c = ',' ∨ c = ']' ∨ c = '\x7d') : NumberEnds (c :: tail) := by
  rintro c' tail' heq
  obtain ⟨rfl, rfl⟩ := List.cons.inj heq
  rcases h with rfl | rfl | rfl <;> decide

theorem numberEnds_items (items : List Json) (rest : List Char) :
    NumberEnds (Json.writeItems spelling items ++ rest) := by
  cases items with
  | nil => exact numberEnds_cons _ (by simp)
  | cons value items => exact numberEnds_cons _ (by simp)

theorem numberEnds_fields (fields : List (String × Json)) (rest : List Char) :
    NumberEnds (Json.writeFields spelling fields ++ rest) := by
  rcases fields with _ | ⟨⟨key, value⟩, fields⟩
  · exact numberEnds_cons _ (by simp)
  · exact numberEnds_cons _ (by simp)

theorem readKey_writeString (hs : spelling.Faithful readFloat isFloat) (key : String) {first : Json}
    (hwf : first.WellFormed isFloat) (rest : List Char) :
    readKey (writeString spelling.raw key ++ ':' :: (first.write spelling ++ rest)) =
      some (key, first.write spelling ++ rest) := by
  have hread := readString_writeString hs.raw key (':' :: (first.write spelling ++ rest))
  have hquote : writeString spelling.raw key ++ ':' :: (first.write spelling ++ rest) =
      '\x22' :: ((writeString spelling.raw key).tail ++ ':' :: (first.write spelling ++ rest)) := rfl
  rw [hquote, readKey, hread, Option.bind_some, skipBlanks_cons _ (by decide)]
  simp only [skipBlanks_write hs hwf]

mutual

theorem readsBack (hs : spelling.Faithful readFloat isFloat) :
    (value : Json) → value.WellFormed isFloat → ReadsBack spelling readFloat value
  | .null, _ => by
    intro fuel rest hfuel hrest
    obtain ⟨fuel, rfl⟩ : ∃ n, fuel = n + 1 := ⟨fuel - 1, by simp [Json.write] at hfuel; omega⟩
    simp [Json.write, readValue, readWord]
  | .bool b, _ => by
    intro fuel rest hfuel hrest
    obtain ⟨fuel, rfl⟩ : ∃ n, fuel = n + 1 := ⟨fuel - 1, by cases b <;> simp [Json.write] at hfuel <;> omega⟩
    cases b <;> simp [Json.write, readValue, readWord]
  | .int n, _ => by
    intro fuel rest hfuel hrest
    obtain ⟨c, tail, heq, hc⟩ := scanNumber_head (scanNumber_writeInt n)
    obtain ⟨fuel, rfl⟩ : ∃ n, fuel = n + 1 := ⟨fuel - 1, by simp [Json.write, heq] at hfuel; omega⟩
    rw [Json.write, ← readNumber_int readFloat n hrest, heq, List.cons_append, readValue_number _ _ _ hc]
  | .float q, hwf => by
    intro fuel rest hfuel hrest
    have hq : isFloat q := by simpa [Json.WellFormed] using hwf
    obtain ⟨c, tail, heq, hc⟩ := scanNumber_head (hs.scans q hq)
    obtain ⟨fuel, rfl⟩ : ∃ n, fuel = n + 1 := ⟨fuel - 1, by simp [Json.write, heq] at hfuel; omega⟩
    rw [Json.write, ← readNumber_float hs hq hrest, heq, List.cons_append, readValue_number _ _ _ hc]
  | .str s, _ => by
    intro fuel rest hfuel hrest
    obtain ⟨fuel, rfl⟩ : ∃ n, fuel = n + 1 :=
      ⟨fuel - 1, by simp [Json.write, writeString] at hfuel; omega⟩
    have hquote : writeString spelling.raw s ++ rest = '\x22' :: ((writeString spelling.raw s).tail ++ rest) := rfl
    rw [Json.write, hquote, readValue, if_pos rfl, readString_writeString hs.raw]
    rfl
  | .arr [], _ => by
    intro fuel rest hfuel hrest
    obtain ⟨fuel, rfl⟩ : ∃ n, fuel = n + 1 := ⟨fuel - 1, by simp [Json.write] at hfuel; omega⟩
    simp [Json.write, readValue, skipBlanks_cons (c := ']') rest rfl]
  | .arr (first :: items), hwf => by
    intro fuel rest hfuel hrest
    simp only [Json.WellFormed, Json.WellFormedItems] at hwf
    simp only [Json.write, List.length_cons, List.length_append] at hfuel
    obtain ⟨fuel, rfl⟩ : ∃ n, fuel = n + 1 := ⟨fuel - 1, by omega⟩
    have hitems := readsBack_items hs items hwf.2 first hwf.1 (readsBack hs first hwf.1) fuel rest (by omega)
    obtain ⟨c, tail, heq, hblank, hclose⟩ := write_head hs hwf.1
    rw [heq, List.cons_append] at hitems
    simp [Json.write, readValue, heq, skipBlanks_cons _ hblank, hclose, hitems]
  | .obj [], _ => by
    intro fuel rest hfuel hrest
    obtain ⟨fuel, rfl⟩ : ∃ n, fuel = n + 1 := ⟨fuel - 1, by simp [Json.write] at hfuel; omega⟩
    simp [Json.write, readValue, skipBlanks_cons (c := '\x7d') rest rfl]
  | .obj ((key, first) :: fields), hwf => by
    intro fuel rest hfuel hrest
    simp only [Json.WellFormed, Json.WellFormedFields] at hwf
    simp only [Json.write, List.length_cons, List.length_append] at hfuel
    obtain ⟨fuel, rfl⟩ : ∃ n, fuel = n + 1 := ⟨fuel - 1, by omega⟩
    have hfields := readsBack_fields hs fields hwf.2.2 key first hwf.2.1 (readsBack hs first hwf.2.1) fuel rest
      (by omega)
    have hopen (tail : List Char) : writeString spelling.raw key ++ tail =
        '\x22' :: ((writeString spelling.raw key).tail ++ tail) := rfl
    rw [hopen] at hfields
    simp [Json.write, readValue, hopen, skipBlanks_cons (c := '\x22') _ rfl, hfields,
      gatherFields_of_nodup hwf.1]

theorem readsBack_items (hs : spelling.Faithful readFloat isFloat) :
    (items : List Json) → Json.WellFormedItems isFloat items → ∀ first : Json, first.WellFormed isFloat →
      ReadsBack spelling readFloat first → ∀ fuel rest,
      2 * ((first.write spelling).length + (Json.writeItems spelling items).length) ≤ fuel →
      readItems readFloat fuel (first.write spelling ++ (Json.writeItems spelling items ++ rest)) =
        some (first :: items, rest)
  | [], _ => by
    intro first hfirst hread fuel rest hfuel
    simp only [Json.writeItems, List.length_cons, List.length_nil] at hfuel
    obtain ⟨fuel, rfl⟩ : ∃ n, fuel = n + 1 := ⟨fuel - 1, by omega⟩
    rw [readItems, hread fuel _ (by omega) (numberEnds_items [] rest)]
    simp [Json.writeItems, skipBlanks_cons (c := ']') rest rfl]
  | value :: items, hwf => by
    intro first hfirst hread fuel rest hfuel
    simp only [Json.WellFormedItems] at hwf
    simp only [Json.writeItems, List.length_cons, List.length_append] at hfuel
    obtain ⟨fuel, rfl⟩ : ∃ n, fuel = n + 1 := ⟨fuel - 1, by omega⟩
    have hmore := readsBack_items hs items hwf.2 value hwf.1 (readsBack hs value hwf.1) fuel rest (by omega)
    rw [readItems, hread fuel _ (by omega) (numberEnds_items (value :: items) rest), Option.bind_some]
    simp [Json.writeItems, skipBlanks_cons (c := ',') _ rfl, skipBlanks_write hs hwf.1, hmore]

theorem readsBack_fields (hs : spelling.Faithful readFloat isFloat) :
    (fields : List (String × Json)) → Json.WellFormedFields isFloat fields → ∀ (key : String) (first : Json),
      first.WellFormed isFloat → ReadsBack spelling readFloat first → ∀ fuel rest,
      2 * ((first.write spelling).length + (Json.writeFields spelling fields).length) ≤ fuel →
      readFields readFloat fuel (writeString spelling.raw key ++
        ':' :: (first.write spelling ++ (Json.writeFields spelling fields ++ rest))) =
        some ((key, first) :: fields, rest)
  | [], _ => by
    intro key first hfirst hread fuel rest hfuel
    simp only [Json.writeFields, List.length_cons, List.length_nil] at hfuel
    obtain ⟨fuel, rfl⟩ : ∃ n, fuel = n + 1 := ⟨fuel - 1, by omega⟩
    rw [readFields, readKey_writeString hs key hfirst, Option.bind_some,
      hread fuel _ (by omega) (numberEnds_fields [] rest)]
    simp [Json.writeFields, skipBlanks_cons (c := '\x7d') rest rfl]
  | (name, value) :: fields, hwf => by
    intro key first hfirst hread fuel rest hfuel
    simp only [Json.WellFormedFields] at hwf
    simp only [Json.writeFields, List.length_cons, List.length_append] at hfuel
    obtain ⟨fuel, rfl⟩ : ∃ n, fuel = n + 1 := ⟨fuel - 1, by omega⟩
    have hmore := readsBack_fields hs fields hwf.2 name value hwf.1 (readsBack hs value hwf.1) fuel rest (by omega)
    have hquote (tail : List Char) : skipBlanks (writeString spelling.raw name ++ tail) =
        writeString spelling.raw name ++ tail := skipBlanks_cons (c := '\x22') _ rfl
    rw [readFields, readKey_writeString hs key hfirst, Option.bind_some,
      hread fuel _ (by omega) (numberEnds_fields ((name, value) :: fields) rest), Option.bind_some]
    simp [Json.writeFields, skipBlanks_cons (c := ',') _ rfl, hquote, hmore]

end

theorem readJson_write (hs : spelling.Faithful readFloat isFloat) {value : Json}
    (hwf : value.WellFormed isFloat) : readJson readFloat (value.write spelling) = some value := by
  have hend : NumberEnds [] := by simp [NumberEnds]
  have hskip := skipBlanks_write hs hwf []
  have hread := readsBack hs value hwf (2 * (value.write spelling).length) [] le_rfl hend
  rw [List.append_nil] at hskip hread
  rw [readJson, hskip, hread]
  rfl

/-- No two values have the same text. -/
theorem write_injective (hs : spelling.Faithful readFloat isFloat) {a b : Json} (ha : a.WellFormed isFloat)
    (hb : b.WellFormed isFloat) (h : a.write spelling = b.write spelling) : a = b := by
  have hread := readJson_write hs ha
  rw [h, readJson_write hs hb] at hread
  exact (Option.some.inj hread).symm

end RoundTrip

end SmartTest.Lib
