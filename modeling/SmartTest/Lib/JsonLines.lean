import SmartTest.Lib.JsonRead

/-!
# One JSON text a line

A compact text has no control characters, so a stream of texts that each end with a line
break comes apart into the same texts.
-/

namespace SmartTest.Lib

/-! ## Lines -/

/-- How a text stream reads line breaks: `\r\n` and `\r` are `\n`. -/
def universalNewlines : List Char → List Char
  | '\r' :: '\n' :: rest => '\n' :: universalNewlines rest
  | '\r' :: rest => '\n' :: universalNewlines rest
  | c :: rest => c :: universalNewlines rest
  | [] => []

/-- The lines without their breaks; the last one may have none. -/
def splitLines : List Char → List (List Char)
  | [] => []
  | c :: rest =>
    if c = '\n' then [] :: splitLines rest
    else
      match splitLines rest with
      | [] => [[c]]
      | line :: lines => (c :: line) :: lines

def Printable (text : List Char) : Prop := ∀ c ∈ text, 0x20 ≤ c.toNat

theorem printable_append {a b : List Char} : Printable (a ++ b) ↔ Printable a ∧ Printable b := by
  simp only [Printable, List.mem_append]
  exact ⟨fun h => ⟨fun c hc => h c (.inl hc), fun c hc => h c (.inr hc)⟩,
    fun h c hc => hc.elim (h.1 c) (h.2 c)⟩

theorem printable_cons {c : Char} {text : List Char} :
    Printable (c :: text) ↔ 0x20 ≤ c.toNat ∧ Printable text := by
  simp [Printable]

theorem universalNewlines_cons {c : Char} (h : 0x20 ≤ c.toNat ∨ c = '\n') (rest : List Char) :
    universalNewlines (c :: rest) = c :: universalNewlines rest := by
  have hreturn : c ≠ '\r' := by
    rintro rfl
    rcases h with h | h
    · revert h
      decide
    · revert h
      decide
  rw [universalNewlines]
  · rintro _ rfl
    exact absurd rfl hreturn
  · rintro rfl
    exact hreturn rfl

theorem universalNewlines_append {line : List Char} (h : Printable line) (rest : List Char) :
    universalNewlines (line ++ '\n' :: rest) = line ++ '\n' :: universalNewlines rest := by
  induction line with
  | nil => exact universalNewlines_cons (.inr rfl) rest
  | cons c line ih =>
    obtain ⟨hc, hline⟩ := printable_cons.mp h
    rw [List.cons_append, universalNewlines_cons (.inl hc), ih hline, List.cons_append]

theorem splitLines_append {line : List Char} (h : Printable line) (rest : List Char) :
    splitLines (line ++ '\n' :: rest) = line :: splitLines rest := by
  induction line with
  | nil => simp [splitLines]
  | cons c line ih =>
    obtain ⟨hc, hline⟩ := printable_cons.mp h
    have hbreak : c ≠ '\n' := by
      rintro rfl
      revert hc
      decide
    rw [List.cons_append, splitLines, if_neg hbreak, ih hline]

/-- What was written line by line is read line by line. -/
theorem splitLines_written {lines : List (List Char)} (h : ∀ line ∈ lines, Printable line) :
    splitLines (universalNewlines (lines.flatMap (· ++ ['\n']))) = lines := by
  induction lines with
  | nil => rfl
  | cons line rest ih =>
    obtain ⟨hline, hrest⟩ := List.forall_mem_cons.mp h
    rw [List.flatMap_cons, List.append_assoc, List.singleton_append, universalNewlines_append hline,
      splitLines_append hline, ih hrest]

/-! ## Texts are printable -/

theorem printable_digits {l : List Char} (h : ∀ c ∈ l, c.isDigit = true) : Printable l := by
  intro c hc
  have hdigit := h c hc
  simp only [Char.isDigit, Bool.and_eq_true, decide_eq_true_eq] at hdigit
  have hlow : ('0' : Char).val.toNat ≤ c.val.toNat := hdigit.1
  change 32 ≤ c.val.toNat
  have hzero : ('0' : Char).val.toNat = 48 := rfl
  omega

theorem printable_takeWhile (l : List Char) : Printable (l.takeWhile Char.isDigit) :=
  printable_digits fun _ hc => List.mem_takeWhile_imp hc

theorem printable_takeDigits {lead : List Char} (hlead : Printable lead) (cs : List Char) :
    Printable (takeDigits lead cs).1 := by
  unfold takeDigits
  split
  · simp [Printable]
  · exact printable_append.mpr ⟨hlead, printable_takeWhile cs⟩

theorem printable_takeInt {cs : List Char} {p : List Char × List Char} (h : takeInt cs = some p) :
    Printable p.1 := by
  unfold takeInt at h
  split at h
  · cases h
    simp [Printable]
  · next c rest _ =>
    split at h
    · next hdigit =>
      cases h
      rw [← List.singleton_append, printable_append]
      exact ⟨printable_digits (by simpa using hdigit), printable_takeWhile rest⟩
    · cases h
  · cases h

theorem printable_takeFrac (cs : List Char) : Printable (takeFrac cs).1 := by
  unfold takeFrac
  split
  · exact printable_takeDigits (by simp [Printable]) _
  · simp [Printable]

theorem printable_takeExp (cs : List Char) : Printable (takeExp cs).1 := by
  unfold takeExp
  split
  · next c rest =>
    split
    · next he =>
      have hc : Printable [c] := by
        rcases he with rfl | rfl <;> simp [Printable]
      split
      · exact printable_takeDigits (printable_append.mpr ⟨hc, by simp [Printable]⟩) _
      · exact printable_takeDigits (printable_append.mpr ⟨hc, by simp [Printable]⟩) _
      · exact printable_takeDigits hc _
    · simp [Printable]
  · simp [Printable]

theorem printable_scanNumber {cs : List Char} {p : (List Char × Bool) × List Char}
    (h : scanNumber cs = some p) : Printable p.1.1 := by
  unfold scanNumber at h
  obtain ⟨int, hint, rfl⟩ := Option.map_eq_some_iff.mp h
  have hsign : Printable (takeSign cs).1 := by
    unfold takeSign
    split <;> simp [Printable]
  simp only [printable_append]
  exact ⟨⟨⟨hsign, printable_takeInt hint⟩, printable_takeFrac _⟩, printable_takeExp _⟩

theorem printable_digitChar : ∀ n < 16, 0x20 ≤ (Nat.digitChar n).toNat := by decide

theorem printable_unicodeEscape {n : Nat} (h : n < 0x10000) : Printable (unicodeEscape n) := by
  have h1 := printable_digitChar (n / 4096) (by omega)
  have h2 := printable_digitChar (n / 256 % 16) (by omega)
  have h3 := printable_digitChar (n / 16 % 16) (by omega)
  have h4 := printable_digitChar (n % 16) (by omega)
  simp [Printable, unicodeEscape, h1, h2, h3, h4]

theorem printable_escapeChar {raw : Char → Bool} (hraw : Spelling.Sound raw) (c : Char) :
    Printable (escapeChar raw c) := by
  unfold escapeChar
  split
  · next e he =>
    have hletter : 0x20 ≤ e.toNat := by
      simp only [shortEscape] at he
      split_ifs at he <;> obtain rfl := Option.some.inj he <;> decide
    simp [Printable, hletter]
  · split
    · next hr => simpa [Printable] using hraw c hr
    · split
      · next hsmall => exact printable_unicodeEscape hsmall
      · have htop := toNat_lt c
        exact printable_append.mpr ⟨printable_unicodeEscape (by omega), printable_unicodeEscape (by omega)⟩

theorem printable_writeString {raw : Char → Bool} (hraw : Spelling.Sound raw) (s : String) :
    Printable (writeString raw s) := by
  have hquote : Printable ['\x22'] := by simp [Printable]
  have hchars : Printable (s.toList.flatMap (escapeChar raw)) := by
    intro c hc
    obtain ⟨d, -, hd⟩ := List.mem_flatMap.mp hc
    exact printable_escapeChar hraw d c hd
  exact printable_append.mpr ⟨hquote, printable_append.mpr ⟨hchars, hquote⟩⟩

section Texts

variable {spelling : Spelling} {readFloat : List Char → Option Rat} {isFloat : Rat → Prop}

mutual

theorem printable_write (hs : spelling.Faithful readFloat isFloat) (value : Json) (hwf : value.WellFormed isFloat) :
    Printable (value.write spelling) := by
  match value, hwf with
  | .null, _ => simp [Json.write, Printable]
  | .bool true, _ => simp [Json.write, Printable]
  | .bool false, _ => simp [Json.write, Printable]
  | .int n, _ => simpa [Json.write] using printable_scanNumber (scanNumber_writeInt n)
  | .float q, hwf =>
    have hfloat : isFloat q := by simpa [Json.WellFormed] using hwf
    simpa [Json.write] using printable_scanNumber (hs.scans q hfloat)
  | .str s, _ => simpa [Json.write] using printable_writeString hs.raw s
  | .arr [], _ => simp [Json.write, Printable]
  | .arr (first :: rest), hwf =>
    simp only [Json.WellFormed, Json.WellFormedItems] at hwf
    simp only [Json.write, printable_cons, printable_append]
    exact ⟨by decide, printable_write hs first hwf.1, printable_writeItems hs rest hwf.2⟩
  | .obj [], _ => simp [Json.write, Printable]
  | .obj ((key, first) :: rest), hwf =>
    simp only [Json.WellFormed, Json.WellFormedFields] at hwf
    simp only [Json.write, printable_cons, printable_append]
    exact ⟨by decide, printable_writeString hs.raw key, by decide, printable_write hs first hwf.2.1,
      printable_writeFields hs rest hwf.2.2⟩

theorem printable_writeItems (hs : spelling.Faithful readFloat isFloat) (items : List Json)
    (hwf : Json.WellFormedItems isFloat items) : Printable (Json.writeItems spelling items) := by
  match items, hwf with
  | [], _ => simp [Json.writeItems, Printable]
  | value :: rest, hwf =>
    simp only [Json.WellFormedItems] at hwf
    simp only [Json.writeItems, printable_cons, printable_append]
    exact ⟨by decide, printable_write hs value hwf.1, printable_writeItems hs rest hwf.2⟩

theorem printable_writeFields (hs : spelling.Faithful readFloat isFloat) (fields : List (String × Json))
    (hwf : Json.WellFormedFields isFloat fields) : Printable (Json.writeFields spelling fields) := by
  match fields, hwf with
  | [], _ => simp [Json.writeFields, Printable]
  | (key, value) :: rest, hwf =>
    simp only [Json.WellFormedFields] at hwf
    simp only [Json.writeFields, printable_cons, printable_append]
    exact ⟨by decide, printable_writeString hs.raw key, by decide, printable_write hs value hwf.1,
      printable_writeFields hs rest hwf.2⟩

end

end Texts

end SmartTest.Lib
