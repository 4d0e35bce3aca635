import Mathlib.Algebra.GroupWithZero.Nat
import Mathlib.Data.List.TakeWhile
import SmartTest.Lib.Dict
import SmartTest.Lib.Json

/-!
# JSON texts

A writer of compact texts and a reader. The writer is told which characters it may write
as they are and how it spells floats, so it stands for every writer that uses the usual
escapes. The reader takes back what any of them wrote.
-/

namespace SmartTest.Lib

/-! ## Writing -/

/-- The escapes of two characters. -/
def shortEscape (c : Char) : Option Char :=
  if c = '\x22' then some '\x22'
  else if c = '\x5c' then some '\x5c'
  else if c = '\n' then some 'n'
  else if c = '\r' then some 'r'
  else if c = '\t' then some 't'
  else if c = '\x0c' then some 'f'
  else if c = '\x08' then some 'b'
  else none

/-- `\uXXXX`, in lower case. -/
def unicodeEscape (n : Nat) : List Char :=
  ['\x5c', 'u', Nat.digitChar (n / 4096), Nat.digitChar (n / 256 % 16), Nat.digitChar (n / 16 % 16),
    Nat.digitChar (n % 16)]

/-- One character of a string. A character past the sixteen bits is escaped as two surrogates. -/
def escapeChar (raw : Char → Bool) (c : Char) : List Char :=
  match shortEscape c with
  | some e => ['\x5c', e]
  | none =>
    if raw c then [c]
    else if c.toNat < 0x10000 then unicodeEscape c.toNat
    else unicodeEscape (0xd800 + (c.toNat - 0x10000) / 0x400) ++
      unicodeEscape (0xdc00 + (c.toNat - 0x10000) % 0x400)

def writeString (raw : Char → Bool) (s : String) : List Char :=
  '\x22' :: (s.toList.flatMap (escapeChar raw) ++ ['\x22'])

def writeInt (n : Int) : List Char :=
  if n < 0 then '-' :: Nat.toDigits 10 n.natAbs else Nat.toDigits 10 n.natAbs

/-- How a writer spells characters and floats. -/
structure Spelling where
  raw : Char → Bool
  float : Rat → List Char

mutual

/-- A compact text: no blanks around `,` and `:`. -/
def Json.write (spelling : Spelling) : Json → List Char
  | .null => ['n', 'u', 'l', 'l']
  | .bool true => ['t', 'r', 'u', 'e']
  | .bool false => ['f', 'a', 'l', 's', 'e']
  | .int n => writeInt n
  | .float q => spelling.float q
  | .str s => writeString spelling.raw s
  | .arr [] => ['[', ']']
  | .arr (first :: rest) => '[' :: (first.write spelling ++ writeItems spelling rest)
  | .obj [] => ['\x7b', '\x7d']
  | .obj ((key, first) :: rest) =>
    '\x7b' :: (writeString spelling.raw key ++ ':' :: (first.write spelling ++ writeFields spelling rest))

/-- The items after the first, up to the bracket. -/
def Json.writeItems (spelling : Spelling) : List Json → List Char
  | [] => [']']
  | value :: rest => ',' :: (value.write spelling ++ writeItems spelling rest)

def Json.writeFields (spelling : Spelling) : List (String × Json) → List Char
  | [] => ['\x7d']
  | (key, value) :: rest =>
    ',' :: (writeString spelling.raw key ++ ':' :: (value.write spelling ++ writeFields spelling rest))

end

/-- The usual spelling: only what has to be is escaped. -/
def utf8Spelling (float : Rat → List Char) : Spelling := ⟨fun c => 0x20 ≤ c.toNat, float⟩

/-- Python's usual spelling: everything but printable ASCII is escaped. -/
def asciiSpelling (float : Rat → List Char) : Spelling := ⟨fun c => 0x20 ≤ c.toNat && c.toNat < 0x7f, float⟩

/-- The number of bytes of a text in UTF-8. -/
def utf8Length (cs : List Char) : Nat := (cs.map Char.utf8Size).sum

/-! ## Reading strings -/

def hexValue (c : Char) : Option Nat :=
  if c.isDigit then some (c.toNat - '0'.toNat)
  else if 'a' ≤ c ∧ c ≤ 'f' then some (c.toNat - 'a'.toNat + 10)
  else if 'A' ≤ c ∧ c ≤ 'F' then some (c.toNat - 'A'.toNat + 10)
  else none

def readHex4 : List Char → Option (Nat × List Char)
  | a :: b :: c :: d :: rest => do
    return ((← hexValue a) * 4096 + (← hexValue b) * 256 + (← hexValue c) * 16 + (← hexValue d), rest)
  | _ => none

def highSurrogate (n : Nat) : Bool := 0xd800 ≤ n && n < 0xdc00

def lowSurrogate (n : Nat) : Bool := 0xdc00 ≤ n && n < 0xe000

/-- The character two surrogates stand for. -/
def joinSurrogates (high low : Nat) : Char := Char.ofNat (0x10000 + (high - 0xd800) * 0x400 + (low - 0xdc00))

/-- The second half of a pair of surrogates. -/
def readLow (high : Nat) : List Char → Option (Char × List Char)
  | '\x5c' :: 'u' :: rest =>
    (readHex4 rest).bind fun p => if lowSurrogate p.1 then some (joinSurrogates high p.1, p.2) else none
  | _ => none

/-- After `\u`. A surrogate without its partner is no character. -/
def readUnicode (cs : List Char) : Option (Char × List Char) :=
  (readHex4 cs).bind fun p =>
    if highSurrogate p.1 then readLow p.1 p.2
    else if lowSurrogate p.1 then none
    else some (Char.ofNat p.1, p.2)

/-- The character the letter after a backslash stands for. -/
def shortEscaped (e : Char) : Option Char :=
  if e = '\x22' then some '\x22'
  else if e = '\x5c' then some '\x5c'
  else if e = '/' then some '/'
  else if e = 'n' then some '\n'
  else if e = 'r' then some '\r'
  else if e = 't' then some '\t'
  else if e = 'f' then some '\x0c'
  else if e = 'b' then some '\x08'
  else none

/-- One character of a string, escaped or not. -/
def readChar : List Char → Option (Char × List Char)
  | '\x5c' :: 'u' :: rest => readUnicode rest
  | '\x5c' :: e :: rest => (shortEscaped e).map fun c => (c, rest)
  | c :: rest => if c.toNat < 0x20 ∨ c = '\x5c' then none else some (c, rest)
  | [] => none

/-- The characters up to the closing quote. -/
def readChars : (fuel : Nat) → List Char → Option (List Char × List Char)
  | 0, _ => none
  | _ + 1, '\x22' :: rest => some ([], rest)
  | fuel + 1, cs => do
    let (c, rest) ← readChar cs
    let (chars, rest) ← readChars fuel rest
    return (c :: chars, rest)

/-- After the opening quote. -/
def readString (cs : List Char) : Option (String × List Char) :=
  (readChars cs.length cs).map fun p => (String.ofList p.1, p.2)

/-! ## Strings are read back -/

theorem hexValue_digitChar : ∀ d < 16, hexValue (Nat.digitChar d) = some d := by decide

theorem readHex4_unicodeEscape {n : Nat} (h : n < 0x10000) (rest : List Char) :
    readHex4 ((unicodeEscape n).drop 2 ++ rest) = some (n, rest) := by
  have h1 := hexValue_digitChar (n / 4096) (by omega)
  have h2 := hexValue_digitChar (n / 256 % 16) (by omega)
  have h3 := hexValue_digitChar (n / 16 % 16) (by omega)
  have h4 := hexValue_digitChar (n % 16) (by omega)
  have hn : n / 4096 * 4096 + n / 256 % 16 * 256 + n / 16 % 16 * 16 + n % 16 = n := by omega
  simp [unicodeEscape, readHex4, h1, h2, h3, h4, hn]

theorem shortEscaped_of_shortEscape {c e : Char} (h : shortEscape c = some e) :
    shortEscaped e = some c ∧ e ≠ 'u' := by
  simp only [shortEscape] at h
  split_ifs at h <;> obtain rfl := Option.some.inj h <;> subst_vars <;> decide

/-- A writer that leaves no control character as it is. -/
def Spelling.Sound (raw : Char → Bool) : Prop := ∀ c, raw c = true → 0x20 ≤ c.toNat

theorem toNat_not_surrogate (c : Char) : c.toNat < 0xd800 ∨ 0xe000 ≤ c.toNat := by
  have := c.valid
  simp only [UInt32.isValidChar, Nat.isValidChar] at this
  change c.val.toNat < _ ∨ _ ≤ c.val.toNat
  omega

theorem toNat_lt (c : Char) : c.toNat < 0x110000 := by
  have := c.valid
  simp only [UInt32.isValidChar, Nat.isValidChar] at this
  change c.val.toNat < _
  omega

theorem readChar_unicodeEscape {c : Char} (h : c.toNat < 0x10000) (rest : List Char) :
    readChar (unicodeEscape c.toNat ++ rest) = some (c, rest) := by
  have hvalid := toNat_not_surrogate c
  have hnot : highSurrogate c.toNat = false := by simp [highSurrogate]; omega
  have hnot' : lowSurrogate c.toNat = false := by simp [lowSurrogate]; omega
  change readUnicode ((unicodeEscape c.toNat).drop 2 ++ rest) = _
  rw [readUnicode, readHex4_unicodeEscape h, Option.bind_some, hnot, hnot', Char.ofNat_toNat]
  rfl

theorem readLow_unicodeEscape {high low : Nat} (h : lowSurrogate low = true) (rest : List Char) :
    readLow high (unicodeEscape low ++ rest) = some (joinSurrogates high low, rest) := by
  have hlow : low < 0x10000 := by
    simp [lowSurrogate] at h
    omega
  change (readHex4 ((unicodeEscape low).drop 2 ++ rest)).bind _ = _
  rw [readHex4_unicodeEscape hlow, Option.bind_some, if_pos h]

theorem readChar_surrogates {c : Char} (h : 0x10000 ≤ c.toNat) (rest : List Char) :
    readChar (unicodeEscape (0xd800 + (c.toNat - 0x10000) / 0x400) ++
      (unicodeEscape (0xdc00 + (c.toNat - 0x10000) % 0x400) ++ rest)) = some (c, rest) := by
  have htop := toNat_lt c
  generalize hhigh : 0xd800 + (c.toNat - 0x10000) / 0x400 = high
  generalize hlow : 0xdc00 + (c.toNat - 0x10000) % 0x400 = low
  have hhighIn : highSurrogate high = true := by simp [highSurrogate]; omega
  have hlowIn : lowSurrogate low = true := by simp [lowSurrogate]; omega
  have hback : joinSurrogates high low = c := by
    have hsum : 0x10000 + (high - 0xd800) * 0x400 + (low - 0xdc00) = c.toNat := by omega
    rw [joinSurrogates, hsum, Char.ofNat_toNat]
  change readUnicode ((unicodeEscape high).drop 2 ++ (unicodeEscape low ++ rest)) = _
  rw [readUnicode, readHex4_unicodeEscape (by omega), Option.bind_some, if_pos hhighIn,
    readLow_unicodeEscape hlowIn, hback]

theorem readChar_escapeChar {raw : Char → Bool} (hraw : Spelling.Sound raw) (c : Char) (rest : List Char) :
    readChar (escapeChar raw c ++ rest) = some (c, rest) := by
  simp only [escapeChar]
  split
  · next e he =>
    obtain ⟨hc, hu⟩ := shortEscaped_of_shortEscape he
    simp [readChar, hc]
  · next hnone =>
    split
    · next hr =>
      have hback : c ≠ '\x5c' := by
        rintro rfl
        simp [shortEscape] at hnone
      have hlow : ¬ c.toNat < 0x20 := by
        have := hraw c hr
        omega
      simp [readChar, hback, hlow]
    · split
      · next hsmall => exact readChar_unicodeEscape hsmall rest
      · next hlarge =>
        rw [List.append_assoc]
        exact readChar_surrogates (by omega) rest

/-- No spelling of a character starts with the quote that ends a string. -/
theorem escapeChar_head {raw : Char → Bool} (c : Char) (rest tail : List Char) :
    escapeChar raw c ++ rest ≠ '"' :: tail := by
  simp only [escapeChar]
  split
  · simp
  · next hnone =>
    have hquote : c ≠ '"' := by
      rintro rfl
      simp [shortEscape] at hnone
    split
    · simp [hquote]
    · split <;> simp [unicodeEscape]

theorem length_escapeChar_pos (raw : Char → Bool) (c : Char) : 1 ≤ (escapeChar raw c).length := by
  simp only [escapeChar]
  split
  · simp
  · split
    · simp
    · split <;> simp [unicodeEscape]

theorem readChars_escaped {raw : Char → Bool} (hraw : Spelling.Sound raw) (chars rest : List Char) {fuel : Nat}
    (hfuel : chars.length < fuel) :
    readChars fuel (chars.flatMap (escapeChar raw) ++ '"' :: rest) = some (chars, rest) := by
  induction chars generalizing fuel with
  | nil =>
    obtain ⟨fuel, rfl⟩ := Nat.exists_eq_add_of_lt hfuel
    simp [readChars]
  | cons c chars ih =>
    obtain ⟨fuel, rfl⟩ : ∃ n, fuel = n + 1 := ⟨fuel - 1, by omega⟩
    rw [List.flatMap_cons, List.append_assoc, readChars]
    · rw [readChar_escapeChar hraw]
      simp [ih (Nat.lt_of_succ_lt_succ hfuel)]
    · exact escapeChar_head c _

theorem readString_writeString {raw : Char → Bool} (hraw : Spelling.Sound raw) (s : String) (rest : List Char) :
    readString ((writeString raw s).tail ++ rest) = some (s, rest) := by
  have hlen : s.toList.length ≤ (s.toList.flatMap (escapeChar raw)).length := by
    induction s.toList with
    | nil => simp
    | cons c chars ih =>
      have := length_escapeChar_pos raw c
      simp only [List.length_cons, List.flatMap_cons, List.length_append]
      omega
  simp only [writeString, List.tail_cons, List.append_assoc, List.singleton_append, readString]
  rw [readChars_escaped hraw _ _ (by simp only [List.length_append, List.length_cons]; omega)]
  simp

/-! ## Reading numbers -/

def takeSign : List Char → List Char × List Char
  | '-' :: rest => (['-'], rest)
  | cs => ([], cs)

/-- `0`, or digits that do not start with it. -/
def takeInt : List Char → Option (List Char × List Char)
  | '0' :: rest => some (['0'], rest)
  | c :: rest =>
    if c.isDigit then some (c :: rest.takeWhile Char.isDigit, rest.dropWhile Char.isDigit) else none
  | [] => none

/-- A run of digits after `lead`, or nothing. -/
def takeDigits (lead cs : List Char) : List Char × List Char :=
  if (cs.takeWhile Char.isDigit).isEmpty then ([], lead ++ cs)
  else (lead ++ cs.takeWhile Char.isDigit, cs.dropWhile Char.isDigit)

def takeFrac : List Char → List Char × List Char
  | '.' :: rest => takeDigits ['.'] rest
  | cs => ([], cs)

def takeExp : List Char → List Char × List Char
  | c :: rest =>
    if c = 'e' ∨ c = 'E' then
      match rest with
      | '+' :: rest => takeDigits [c, '+'] rest
      | '-' :: rest => takeDigits [c, '-'] rest
      | rest => takeDigits [c] rest
    else ([], c :: rest)
  | [] => ([], [])

/-- The longest number at the front, whether it has a fraction or an exponent, and what follows. -/
def scanNumber (cs : List Char) : Option ((List Char × Bool) × List Char) :=
  (takeInt (takeSign cs).2).map fun int =>
    let frac := takeFrac int.2
    let exp := takeExp frac.2
    (((takeSign cs).1 ++ int.1 ++ frac.1 ++ exp.1, !(frac.1 ++ exp.1).isEmpty), exp.2)

def readInt : List Char → Int
  | '-' :: digits => -(Nat.ofDigitChars 10 digits 0 : Int)
  | digits => Nat.ofDigitChars 10 digits 0

/-- A number with a fraction or an exponent is a float. -/
def readNumber (readFloat : List Char → Option Rat) (cs : List Char) : Option (Json × List Char) :=
  (scanNumber cs).bind fun p =>
    if p.1.2 then (readFloat p.1.1).map fun q => (.float q, p.2)
    else some (.int (readInt p.1.1), p.2)

/-! ## Numbers are read back -/

/-- A number cannot go on into `rest`. -/
def NumberEnds (rest : List Char) : Prop :=
  ∀ c tail, rest = c :: tail → c.isDigit = false ∧ c ≠ '.' ∧ c ≠ 'e' ∧ c ≠ 'E' ∧ c ≠ '+' ∧ c ≠ '-'

variable {rest : List Char}

theorem NumberEnds.takeWhile (h : NumberEnds rest) (l : List Char) :
    (l ++ rest).takeWhile Char.isDigit = l.takeWhile Char.isDigit := by
  induction l with
  | nil =>
    cases rest with
    | nil => rfl
    | cons c tail => simp [(h c tail rfl).1]
  | cons a l ih => cases ha : a.isDigit <;> simp [ha, ih]

theorem NumberEnds.dropWhile (h : NumberEnds rest) (l : List Char) :
    (l ++ rest).dropWhile Char.isDigit = l.dropWhile Char.isDigit ++ rest := by
  induction l with
  | nil =>
    cases rest with
    | nil => rfl
    | cons c tail => simp [(h c tail rfl).1]
  | cons a l ih => cases ha : a.isDigit <;> simp [ha, ih]

theorem NumberEnds.takeDigits (h : NumberEnds rest) (lead l : List Char) :
    takeDigits lead (l ++ rest) = ((takeDigits lead l).1, (takeDigits lead l).2 ++ rest) := by
  simp only [Lib.takeDigits, h.takeWhile, h.dropWhile]
  split <;> simp

theorem NumberEnds.takeFrac (h : NumberEnds rest) (l : List Char) :
    takeFrac (l ++ rest) = ((takeFrac l).1, (takeFrac l).2 ++ rest) := by
  cases l with
  | nil =>
    cases rest with
    | nil => rfl
    | cons c tail => simp [Lib.takeFrac, (h c tail rfl).2.1]
  | cons a l =>
    by_cases ha : a = '.'
    · subst ha
      exact h.takeDigits _ l
    · simp [Lib.takeFrac, ha]

theorem NumberEnds.takeExp (h : NumberEnds rest) (l : List Char) :
    takeExp (l ++ rest) = ((takeExp l).1, (takeExp l).2 ++ rest) := by
  cases l with
  | nil =>
    cases rest with
    | nil => rfl
    | cons c tail =>
      obtain ⟨-, -, he, hE, -, -⟩ := h c tail rfl
      simp [Lib.takeExp, he, hE]
  | cons a l =>
    by_cases ha : a = 'e' ∨ a = 'E'
    · simp only [Lib.takeExp, List.cons_append, if_pos ha]
      cases l with
      | nil =>
        cases rest with
        | nil => rfl
        | cons c tail =>
          obtain ⟨-, -, -, -, hplus, hminus⟩ := h c tail rfl
          have hd := h.takeDigits [a] []
          simpa [hplus, hminus] using hd
      | cons b l =>
        by_cases hplus : b = '+'
        · subst hplus
          exact h.takeDigits _ l
        · by_cases hminus : b = '-'
          · subst hminus
            exact h.takeDigits _ l
          · simpa [hplus, hminus] using h.takeDigits [a] (b :: l)
    · simp [Lib.takeExp, ha]

theorem NumberEnds.takeInt (h : NumberEnds rest) {l : List Char} {int tail : List Char}
    (hl : takeInt l = some (int, tail)) : takeInt (l ++ rest) = some (int, tail ++ rest) := by
  cases l with
  | nil => simp [Lib.takeInt] at hl
  | cons a l =>
    by_cases ha : a = '0'
    · subst ha
      simp only [Lib.takeInt, List.cons_append, Option.some.injEq, Prod.mk.injEq] at hl ⊢
      exact ⟨hl.1, by rw [← hl.2]⟩
    · simp only [Lib.takeInt, List.cons_append, h.takeWhile, h.dropWhile] at hl ⊢
      split at hl
      · next hd =>
        simp only [Option.some.injEq, Prod.mk.injEq] at hl
        obtain ⟨rfl, rfl⟩ := hl
        rw [if_pos hd]
      · simp at hl

/-- What follows a number does not change how it is read. -/
theorem scanNumber_append (h : NumberEnds rest) {text : List Char} {p : List Char × Bool}
    (ht : scanNumber text = some (p, [])) : scanNumber (text ++ rest) = some (p, rest) := by
  simp only [scanNumber, Option.map_eq_some_iff, Prod.mk.injEq] at ht ⊢
  obtain ⟨⟨int, tail⟩, hint, hp, hend⟩ := ht
  have hsign : takeSign (text ++ rest) = ((takeSign text).1, (takeSign text).2 ++ rest) := by
    cases text with
    | nil => simp [takeSign, takeInt] at hint
    | cons a l => by_cases ha : a = '-' <;> simp [takeSign, ha]
  refine ⟨(int, tail ++ rest), ?_, ?_, ?_⟩
  · rw [hsign]
    exact h.takeInt hint
  · simp only [hsign, h.takeFrac, h.takeExp]
    exact hp
  · simp only [h.takeFrac, h.takeExp, hend, List.nil_append]

theorem isDigit_of_mem_toDigits {n : Nat} {c : Char} (h : c ∈ Nat.toDigits 10 n) : c.isDigit = true :=
  Nat.isDigit_of_mem_toDigits (by decide) (by decide) h

theorem digitChar_ne_zero : ∀ d < 10, 0 < d → Nat.digitChar d ≠ '0' := by decide

/-- Only zero is written with a leading zero. -/
theorem toDigits_head {n : Nat} (h : 0 < n) : ∃ c tail, Nat.toDigits 10 n = c :: tail ∧ c ≠ '0' := by
  induction n using Nat.strong_induction_on with
  | _ n ih =>
    by_cases hn : n < 10
    · rw [Nat.toDigits_of_lt_base hn]
      exact ⟨_, [], rfl, digitChar_ne_zero n hn h⟩
    · obtain ⟨c, tail, heq, hc⟩ := ih (n / 10) (by omega) (by omega)
      rw [Nat.toDigits_of_base_le (by decide) (by omega), heq]
      exact ⟨c, tail ++ [(n % 10).digitChar], rfl, hc⟩

theorem takeInt_toDigits (n : Nat) : takeInt (Nat.toDigits 10 n) = some (Nat.toDigits 10 n, []) := by
  rcases Nat.eq_zero_or_pos n with rfl | hpos
  · rfl
  · obtain ⟨c, tail, heq, hc⟩ := toDigits_head hpos
    have hdigits : ∀ d ∈ c :: tail, d.isDigit = true := fun d hd => isDigit_of_mem_toDigits (heq ▸ hd)
    have htail : ∀ d ∈ tail, d.isDigit = true := fun d hd => hdigits d (List.mem_cons_of_mem _ hd)
    rw [heq]
    simp [takeInt, hdigits c List.mem_cons_self, List.takeWhile_eq_self_iff.mpr htail,
      List.dropWhile_eq_nil_iff.mpr htail]

theorem scanNumber_writeInt (n : Int) : scanNumber (writeInt n) = some ((writeInt n, false), []) := by
  have hne : ∀ c tail, Nat.toDigits 10 n.natAbs = c :: tail → c ≠ '-' := by
    rintro c tail heq rfl
    have := isDigit_of_mem_toDigits (heq ▸ List.mem_cons_self : '-' ∈ Nat.toDigits 10 n.natAbs)
    simp at this
  have hsign : takeSign (Nat.toDigits 10 n.natAbs) = ([], Nat.toDigits 10 n.natAbs) := by
    cases hd : Nat.toDigits 10 n.natAbs with
    | nil => rfl
    | cons c tail => simp [takeSign, hne c tail hd]
  simp only [writeInt]
  split
  · simp [scanNumber, takeSign, takeInt_toDigits, takeFrac, takeExp]
  · simp [scanNumber, hsign, takeInt_toDigits, takeFrac, takeExp]

theorem readInt_writeInt (n : Int) : readInt (writeInt n) = n := by
  simp only [writeInt]
  split
  · next hneg =>
    simp only [readInt, Nat.ofDigitChars_ten_toDigits]
    omega
  · next hneg =>
    have hread : readInt (Nat.toDigits 10 n.natAbs) = (Nat.ofDigitChars 10 (Nat.toDigits 10 n.natAbs) 0 : Int) := by
      cases hd : Nat.toDigits 10 n.natAbs with
      | nil => rfl
      | cons c tail =>
        have hc : c ≠ '-' := by
          rintro rfl
          have := isDigit_of_mem_toDigits (hd ▸ List.mem_cons_self : '-' ∈ Nat.toDigits 10 n.natAbs)
          simp at this
        simp [readInt, hc]
    rw [hread, Nat.ofDigitChars_ten_toDigits]
    omega

theorem mem_writeInt {n : Int} {c : Char} (h : c ∈ writeInt n) : c = '-' ∨ c.isDigit = true := by
  unfold writeInt at h
  split at h
  · rcases List.mem_cons.mp h with rfl | h
    · exact .inl rfl
    · exact .inr (isDigit_of_mem_toDigits h)
  · exact .inr (isDigit_of_mem_toDigits h)

/-- A text with a character that no number has. -/
theorem writeInt_ne {n : Int} {text : List Char} {c : Char} (hc : c ∈ text) (hdash : c ≠ '-')
    (hdigit : c.isDigit = false) : writeInt n ≠ text := by
  rintro rfl
  rcases mem_writeInt hc with rfl | hd
  · exact hdash rfl
  · rw [hdigit] at hd
    cases hd

end SmartTest.Lib
