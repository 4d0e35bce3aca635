import Mathlib.Algebra.GroupWithZero.Nat
import Mathlib.Tactic.Common

/-!
# The text of a UUID

`str(id)` spells the 128 bits of an id in five groups of hexadecimal digits, and `UUID(text)`
puts the digits together again.
-/

namespace SmartTest.Lib

def hexPad : (width : Nat) → Nat → List Char
  | 0, _ => []
  | width + 1, n => hexPad width (n / 16) ++ [(n % 16).digitChar]

/-- `str(UUID(int=value))`. -/
def uuidText (value : Nat) : List Char :=
  hexPad 8 (value / 16 ^ 24) ++ '-' :: (hexPad 4 (value / 16 ^ 20 % 16 ^ 4) ++
    '-' :: (hexPad 4 (value / 16 ^ 16 % 16 ^ 4) ++ '-' :: (hexPad 4 (value / 16 ^ 12 % 16 ^ 4) ++
      '-' :: hexPad 12 (value % 16 ^ 12))))

def hexDigit (c : Char) : Option Nat :=
  if c.isDigit then some (c.toNat - '0'.toNat)
  else if 'a' ≤ c ∧ c ≤ 'f' then some (c.toNat - 'a'.toNat + 10)
  else none

def readHex (acc : Nat) : List Char → Option Nat
  | [] => some acc
  | c :: rest => do readHex (acc * 16 + (← hexDigit c)) rest

/-! ## The digits -/

theorem hexDigit_digitChar : ∀ n < 16, hexDigit n.digitChar = some n := by decide

theorem digitChar_ne_dash : ∀ n < 16, n.digitChar ≠ '-' := by decide

theorem mem_hexPad {width n : Nat} {c : Char} (h : c ∈ hexPad width n) : ∃ d < 16, c = d.digitChar := by
  induction width generalizing n with
  | zero => cases h
  | succ width ih =>
    rcases List.mem_append.mp h with hfront | hlast
    · exact ih hfront
    · exact ⟨n % 16, Nat.mod_lt _ (by decide), List.mem_singleton.mp hlast⟩

theorem length_hexPad (width n : Nat) : (hexPad width n).length = width := by
  induction width generalizing n with
  | zero => rfl
  | succ width ih => simp [hexPad, ih]

theorem readHex_hexPad {width acc n : Nat} (h : n < 16 ^ width) (rest : List Char) :
    readHex acc (hexPad width n ++ rest) = readHex (acc * 16 ^ width + n) rest := by
  induction width generalizing acc n rest with
  | zero =>
    have hzero : n = 0 := by omega
    simp [hexPad, hzero]
  | succ width ih =>
    have hfront : n / 16 < 16 ^ width := by
      rw [Nat.pow_succ] at h
      omega
    rw [hexPad, List.append_assoc, ih hfront, List.singleton_append, readHex, hexDigit_digitChar _ (Nat.mod_lt _ (by decide))]
    simp only [Option.bind_eq_bind, Option.bind_some]
    congr 1
    rw [Nat.pow_succ, Nat.add_mul, ← Nat.mul_assoc, Nat.add_assoc]
    congr 1
    omega

theorem filter_hexPad (width n : Nat) : (hexPad width n).filter (· ≠ '-') = hexPad width n := by
  refine List.filter_eq_self.mpr fun c hc => ?_
  obtain ⟨d, hd, rfl⟩ := mem_hexPad hc
  simp [digitChar_ne_dash d hd]

/-- The digits of a group after the digits before it. -/
theorem shift_group (n a b : Nat) : n / 16 ^ (a + b) * 16 ^ b + n / 16 ^ a % 16 ^ b = n / 16 ^ a := by
  rw [Nat.pow_add, ← Nat.div_div_eq_div_mul, Nat.div_add_mod']

/-! ## The whole text -/

/-- Without its dashes. -/
theorem filter_uuidText (value : Nat) : (uuidText value).filter (· ≠ '-') = hexPad 8 (value / 16 ^ 24) ++
    (hexPad 4 (value / 16 ^ 20 % 16 ^ 4) ++ (hexPad 4 (value / 16 ^ 16 % 16 ^ 4) ++
      (hexPad 4 (value / 16 ^ 12 % 16 ^ 4) ++ hexPad 12 (value % 16 ^ 12)))) := by
  simp only [uuidText, List.filter_append, filter_hexPad, List.filter_cons]
  simp

theorem length_filter_uuidText (value : Nat) : ((uuidText value).filter (· ≠ '-')).length = 32 := by
  rw [filter_uuidText]
  simp [length_hexPad]

theorem length_uuidText (value : Nat) : (uuidText value).length = 36 := by
  simp [uuidText, length_hexPad]

theorem readHex_uuidText {value : Nat} (h : value < 16 ^ 32) :
    readHex 0 ((uuidText value).filter (· ≠ '-')) = some value := by
  have htop : value / 16 ^ 24 < 16 ^ 8 := by
    rw [Nat.div_lt_iff_lt_mul (Nat.pow_pos (by decide)), ← Nat.pow_add]
    exact h
  have hmod : ∀ n width, n % 16 ^ width < 16 ^ width := fun n width => Nat.mod_lt _ (Nat.pow_pos (by decide))
  have hlast := @readHex_hexPad 12 (value / 16 ^ 12) _ (hmod value 12) []
  rw [List.append_nil] at hlast
  rw [filter_uuidText, readHex_hexPad htop, readHex_hexPad (hmod _ _), readHex_hexPad (hmod _ _), readHex_hexPad (hmod _ _),
    Nat.zero_mul, Nat.zero_add, shift_group value 20 4, shift_group value 16 4, shift_group value 12 4, hlast, readHex,
    Nat.div_add_mod']

/-- What the text of an id is made of. -/
theorem mem_uuidText {value : Nat} {c : Char} (h : c ∈ uuidText value) : c = '-' ∨ ∃ d < 16, c = d.digitChar := by
  simp only [uuidText, List.mem_append, List.mem_cons] at h
  rcases h with h | rfl | h | rfl | h | rfl | h | rfl | h
  · exact .inr (mem_hexPad h)
  · exact .inl rfl
  · exact .inr (mem_hexPad h)
  · exact .inl rfl
  · exact .inr (mem_hexPad h)
  · exact .inl rfl
  · exact .inr (mem_hexPad h)
  · exact .inl rfl
  · exact .inr (mem_hexPad h)

end SmartTest.Lib
