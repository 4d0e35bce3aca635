import Mathlib.Algebra.Group.Nat.Defs
import Mathlib.Data.List.Basic
import Mathlib.Tactic.Common

/-!
# UTF-8

Bytes are read unit by unit. A unit is a character, or the longest beginning of one that the
next byte does not go on with; a reader that replaces errors puts one U+FFFD for it.
-/

namespace SmartTest.Lib.Utf8

def encode (text : List Char) : List UInt8 := text.flatMap String.utf8EncodeChar

/-! ## Reading -/

/-- The bits of a first byte, and the ranges of the bytes that may follow it. -/
def lead (b : Nat) : Option (Nat × List (Nat × Nat)) :=
  if b < 0x80 then some (b, [])
  else if b < 0xc2 then none
  else if b < 0xe0 then some (b - 0xc0, [(0x80, 0xbf)])
  else if b = 0xe0 then some (0, [(0xa0, 0xbf), (0x80, 0xbf)])
  else if b = 0xed then some (0xd, [(0x80, 0x9f), (0x80, 0xbf)])
  else if b < 0xf0 then some (b - 0xe0, [(0x80, 0xbf), (0x80, 0xbf)])
  else if b = 0xf0 then some (0, [(0x90, 0xbf), (0x80, 0xbf), (0x80, 0xbf)])
  else if b < 0xf4 then some (b - 0xf0, [(0x80, 0xbf), (0x80, 0xbf), (0x80, 0xbf)])
  else if b = 0xf4 then some (4, [(0x80, 0x8f), (0x80, 0xbf), (0x80, 0xbf)])
  else none

/-- The bytes after the first one, as far as they fit. -/
def follow (bits : Nat) : List (Nat × Nat) → List UInt8 → Option Nat × List UInt8
  | [], rest => (some bits, rest)
  | _ :: _, [] => (none, [])
  | (low, high) :: ranges, b :: rest =>
    if low ≤ b.toNat ∧ b.toNat ≤ high then follow (bits * 64 + (b.toNat - 0x80)) ranges rest
    else (none, b :: rest)

/-- The unit that begins with a byte, and the bytes after it. -/
def next (b : UInt8) (rest : List UInt8) : Option Char × List UInt8 :=
  match lead b.toNat with
  | none => (none, rest)
  | some (bits, ranges) => ((follow bits ranges rest).1.map Char.ofNat, (follow bits ranges rest).2)

def unitsUpTo : Nat → List UInt8 → List (Option Char)
  | 0, _ => []
  | _, [] => []
  | fuel + 1, b :: rest => (next b rest).1 :: unitsUpTo fuel (next b rest).2

def units (bytes : List UInt8) : List (Option Char) := unitsUpTo bytes.length bytes

/-- `bytes.decode("utf-8", errors="replace")`. -/
def decodeReplace (bytes : List UInt8) : List Char := (units bytes).map (·.getD '\ufffd')

/-- `bytes.decode("utf-8")`. -/
def decode (bytes : List UInt8) : Option (List Char) := (units bytes).mapM id

/-! ## The bytes that are left -/

theorem follow_length (bits : Nat) (ranges : List (Nat × Nat)) (bytes : List UInt8) :
    (follow bits ranges bytes).2.length ≤ bytes.length := by
  induction ranges generalizing bits bytes with
  | nil => simp [follow]
  | cons range ranges ih =>
    obtain ⟨low, high⟩ := range
    cases bytes with
    | nil => simp [follow]
    | cons b rest =>
      unfold follow
      split
      · have := ih (bits * 64 + (b.toNat - 0x80)) rest
        simp only [List.length_cons]
        omega
      · exact Nat.le_refl _

theorem next_length (b : UInt8) (rest : List UInt8) : (next b rest).2.length ≤ rest.length := by
  unfold next
  split
  · exact Nat.le_refl _
  · exact follow_length _ _ _

theorem unitsUpTo_of_le {fuel fuel' : Nat} {bytes : List UInt8} (h : bytes.length ≤ fuel) (h' : bytes.length ≤ fuel') :
    unitsUpTo fuel bytes = unitsUpTo fuel' bytes := by
  induction fuel generalizing fuel' bytes with
  | zero =>
    obtain rfl := List.length_eq_zero_iff.mp (Nat.le_zero.mp h)
    cases fuel' <;> rfl
  | succ fuel ih =>
    cases bytes with
    | nil => cases fuel' <;> rfl
    | cons b rest =>
      cases fuel' with
      | zero => simp at h'
      | succ fuel' =>
        have hnext := next_length b rest
        simp only [List.length_cons] at h h'
        simp only [unitsUpTo]
        rw [@ih fuel' _ (by omega) (by omega)]

@[simp] theorem units_nil : units [] = [] := rfl

theorem units_cons (b : UInt8) (rest : List UInt8) : units (b :: rest) = (next b rest).1 :: units (next b rest).2 := by
  change (next b rest).1 :: unitsUpTo rest.length (next b rest).2 = _
  rw [units, unitsUpTo_of_le (next_length b rest) (Nat.le_refl _)]

theorem units_eq_nil {bytes : List UInt8} : units bytes = [] ↔ bytes = [] := by
  cases bytes with
  | nil => simp
  | cons b rest => simp [units_cons]

/-! ## ASCII -/

theorem next_ascii {b : UInt8} (h : b.toNat < 0x80) (rest : List UInt8) :
    next b rest = (some (Char.ofNat b.toNat), rest) := by
  simp [next, lead, h, follow]

/-- A byte that begins a character below 0x80 ends every unit before it. -/
theorem follow_append_ascii {s : UInt8} (hs : s.toNat < 0x80) {ranges : List (Nat × Nat)}
    (hranges : ∀ range ∈ ranges, 0x80 ≤ range.1) (bits : Nat) (before after : List UInt8) :
    follow bits ranges (before ++ s :: after) =
      ((follow bits ranges before).1, (follow bits ranges before).2 ++ s :: after) := by
  induction ranges generalizing bits before with
  | nil => simp [follow]
  | cons range ranges ih =>
    obtain ⟨low, high⟩ := range
    obtain ⟨hlow, hrest⟩ := List.forall_mem_cons.mp hranges
    cases before with
    | nil =>
      have hout : ¬ (low ≤ s.toNat ∧ s.toNat ≤ high) := by
        simp only at hlow
        omega
      simp [follow, hout]
    | cons b before =>
      simp only [List.cons_append, follow]
      split
      · exact ih hrest _ _
      · simp

theorem lead_ranges {b bits : Nat} {ranges : List (Nat × Nat)} (h : lead b = some (bits, ranges)) :
    ∀ range ∈ ranges, 0x80 ≤ range.1 := by
  unfold lead at h
  split_ifs at h <;> simp only [Option.some.injEq, Prod.mk.injEq] at h <;> obtain ⟨-, rfl⟩ := h <;> simp

theorem next_append_ascii {s : UInt8} (hs : s.toNat < 0x80) (b : UInt8) (before after : List UInt8) :
    next b (before ++ s :: after) = ((next b before).1, (next b before).2 ++ s :: after) := by
  unfold next
  cases hlead : lead b.toNat with
  | none => rfl
  | some found =>
    obtain ⟨bits, ranges⟩ := found
    simp only [follow_append_ascii hs (lead_ranges hlead)]

theorem units_append_ascii {s : UInt8} (hs : s.toNat < 0x80) (before after : List UInt8) :
    units (before ++ s :: after) = units before ++ some (Char.ofNat s.toNat) :: units after := by
  -- Induction on the length: a unit takes any number of bytes.
  induction hlength : before.length using Nat.strongRecOn generalizing before with
  | ind n ih =>
    cases before with
    | nil => simp [units_cons, next_ascii hs]
    | cons b before =>
      have hnext := next_length b before
      simp only [List.length_cons] at hlength
      rw [List.cons_append, units_cons, units_cons, next_append_ascii hs,
        ih (next b before).2.length (by omega) (next b before).2 rfl, List.cons_append]

/-! ## Characters -/

theorem toNat_charOfNat {n : Nat} (h : n.isValidChar) : (Char.ofNat n).toNat = n := by
  rw [Char.ofNat, dif_pos h]
  rfl

/-- A byte that follows another gives six bits. -/
theorem follow_bounds {bits n : Nat} {ranges : List (Nat × Nat)} (hranges : ∀ range ∈ ranges, range.2 ≤ 0xbf)
    {bytes : List UInt8} (h : (follow bits ranges bytes).1 = some n) :
    bits * 64 ^ ranges.length ≤ n ∧ n < (bits + 1) * 64 ^ ranges.length := by
  induction ranges generalizing bits bytes with
  | nil =>
    obtain rfl := Option.some.inj h
    simp
  | cons range ranges ih =>
    obtain ⟨low, high⟩ := range
    obtain ⟨hhigh, hrest⟩ := List.forall_mem_cons.mp hranges
    cases bytes with
    | nil => simp [follow] at h
    | cons b rest =>
      unfold follow at h
      split at h
      · next hb =>
        obtain ⟨hle, hlt⟩ := ih hrest h
        simp only at hhigh
        have hlower : bits * 64 * 64 ^ ranges.length ≤ (bits * 64 + (b.toNat - 0x80)) * 64 ^ ranges.length :=
          Nat.mul_le_mul_right _ (by omega)
        have hupper : (bits * 64 + (b.toNat - 0x80) + 1) * 64 ^ ranges.length ≤ (bits + 1) * 64 * 64 ^ ranges.length :=
          Nat.mul_le_mul_right _ (by omega)
        have hpow : 64 ^ (ranges.length + 1) = 64 * 64 ^ ranges.length := by rw [Nat.pow_succ, Nat.mul_comm]
        rw [List.length_cons, hpow, ← Nat.mul_assoc, ← Nat.mul_assoc]
        omega
      · cases h

theorem follow_cons {low high bits n : Nat} {ranges : List (Nat × Nat)} {bytes : List UInt8} (hlow : 0x80 ≤ low)
    (h : (follow bits ((low, high) :: ranges) bytes).1 = some n) :
    ∃ more rest, low ≤ more + 0x80 ∧ more + 0x80 ≤ high ∧ (follow (bits * 64 + more) ranges rest).1 = some n := by
  cases bytes with
  | nil => simp [follow] at h
  | cons b rest =>
    unfold follow at h
    split at h
    · next hb =>
      exact ⟨b.toNat - 0x80, rest, by omega, by omega, h⟩
    · cases h

/-- A character of more than one byte is past ASCII. -/
theorem follow_valid {b bits n : Nat} {ranges : List (Nat × Nat)} {bytes : List UInt8}
    (hlead : lead b = some (bits, ranges)) (hb : 0x80 ≤ b) (h : (follow bits ranges bytes).1 = some n) :
    0x80 ≤ n ∧ n.isValidChar := by
  unfold lead at hlead
  split_ifs at hlead <;> first | omega | skip
  all_goals
    simp only [Option.some.injEq, Prod.mk.injEq] at hlead
    obtain ⟨rfl, rfl⟩ := hlead
    obtain ⟨more, rest, hlow, hhigh, hrest⟩ := follow_cons (by omega) h
    have hbounds := follow_bounds (by simp) hrest
    simp only [List.length_cons, List.length_nil] at hbounds
    unfold Nat.isValidChar
    omega

/-- A unit below 0x80 is the byte it was read from. -/
theorem next_eq_some {b : UInt8} {rest : List UInt8} {c : Char} (h : (next b rest).1 = some c) (hc : c.toNat < 0x80) :
    b.toNat = c.toNat := by
  by_cases hb : b.toNat < 0x80
  · rw [next_ascii hb] at h
    obtain rfl := Option.some.inj h
    rw [toNat_charOfNat (Or.inl (by omega))]
  · unfold next at h
    cases hlead : lead b.toNat with
    | none => simp [hlead] at h
    | some found =>
      obtain ⟨bits, ranges⟩ := found
      simp only [hlead, Option.map_eq_some_iff] at h
      obtain ⟨n, hn, rfl⟩ := h
      obtain ⟨hge, hvalid⟩ := follow_valid hlead (by omega) hn
      rw [toNat_charOfNat hvalid] at hc
      omega

theorem next_subset (b : UInt8) (rest : List UInt8) : (next b rest).2 ⊆ rest := by
  have hfollow : ∀ (ranges : List (Nat × Nat)) (bits : Nat) (bytes : List UInt8),
      (follow bits ranges bytes).2 ⊆ bytes := by
    intro ranges
    induction ranges with
    | nil => simp [follow]
    | cons range ranges ih =>
      intro bits bytes
      obtain ⟨low, high⟩ := range
      cases bytes with
      | nil => simp [follow]
      | cons c more =>
        unfold follow
        split
        · exact List.subset_cons_of_subset _ (ih _ _)
        · simp
  unfold next
  split
  · simp
  · exact hfollow _ _ _

theorem mem_units {bytes : List UInt8} {c : Char} (h : some c ∈ units bytes) (hc : c.toNat < 0x80) :
    UInt8.ofNat c.toNat ∈ bytes := by
  induction hlength : bytes.length using Nat.strongRecOn generalizing bytes with
  | ind n ih =>
    cases bytes with
    | nil => simp at h
    | cons b rest =>
      have hnext := next_length b rest
      simp only [List.length_cons] at hlength
      rw [units_cons, List.mem_cons] at h
      rcases h with h | h
      · rw [← next_eq_some h.symm hc, UInt8.ofNat_toNat]
        exact List.mem_cons_self
      · exact List.mem_cons_of_mem _ (next_subset b rest (ih _ (by omega) h rfl))

/-! ## What was written is read -/

theorem toNat_ofNat {n : Nat} (h : n < 256) : (UInt8.ofNat n).toNat = n := UInt8.toNat_ofNat_of_lt' h

theorem follow_digit {bits low high digit : Nat} (hdigit : digit < 64) (hlow : low ≤ digit + 0x80)
    (hhigh : digit + 0x80 ≤ high) (ranges : List (Nat × Nat)) (rest : List UInt8) :
    follow bits ((low, high) :: ranges) (UInt8.ofNat (digit + 0x80) :: rest) =
      follow (bits * 64 + digit) ranges rest := by
  rw [follow, toNat_ofNat (by omega), if_pos ⟨hlow, hhigh⟩, Nat.add_sub_cancel]

theorem next_lead {b bits n : Nat} {ranges : List (Nat × Nat)} {more rest : List UInt8} (hb : b < 256)
    (hlead : lead b = some (bits, ranges)) (hfollow : follow bits ranges more = (some n, rest)) :
    next (UInt8.ofNat b) more = (some (Char.ofNat n), rest) := by
  simp [next, toNat_ofNat hb, hlead, hfollow]

theorem next_two {v : Nat} (hlow : 0x80 ≤ v) (hhigh : v < 0x800) (rest : List UInt8) :
    next (UInt8.ofNat (v / 64 % 32 + 0xc0)) (UInt8.ofNat (v % 64 + 0x80) :: rest) = (some (Char.ofNat v), rest) := by
  have hlead : lead (v / 64 % 32 + 0xc0) = some (v / 64 % 32, [(0x80, 0xbf)]) := by
    unfold lead
    rw [if_neg (by omega), if_neg (by omega), if_pos (by omega), Nat.add_sub_cancel]
  apply next_lead (by omega) hlead
  rw [follow_digit (by omega) (by omega) (by omega), follow, show v / 64 % 32 * 64 + v % 64 = v by omega]

theorem next_three {v : Nat} (hlow : 0x800 ≤ v) (hhigh : v < 0x10000) (hvalid : v < 0xd800 ∨ 0xdfff < v)
    (rest : List UInt8) :
    next (UInt8.ofNat (v / 4096 % 16 + 0xe0)) (UInt8.ofNat (v / 64 % 64 + 0x80) :: UInt8.ofNat (v % 64 + 0x80) :: rest) =
      (some (Char.ofNat v), rest) := by
  -- The ranges after 0xe0 and 0xed keep out what a shorter form can write, and the surrogates.
  have hlead : ∃ low high, lead (v / 4096 % 16 + 0xe0) = some (v / 4096 % 16, [(low, high), (0x80, 0xbf)]) ∧
      low ≤ v / 64 % 64 + 0x80 ∧ v / 64 % 64 + 0x80 ≤ high := by
    unfold lead
    rw [if_neg (by omega), if_neg (by omega), if_neg (by omega)]
    split_ifs with h0 hd
    · exact ⟨0xa0, 0xbf, by rw [show v / 4096 % 16 = 0 by omega], by omega, by omega⟩
    · exact ⟨0x80, 0x9f, by rw [show v / 4096 % 16 = 0xd by omega], by omega, by omega⟩
    · exact ⟨0x80, 0xbf, by rw [Nat.add_sub_cancel], by omega, by omega⟩
    all_goals omega
  obtain ⟨low, high, hlead, hle, hge⟩ := hlead
  apply next_lead (by omega) hlead
  rw [follow_digit (by omega) hle hge, follow_digit (by omega) (by omega) (by omega), follow,
    show (v / 4096 % 16 * 64 + v / 64 % 64) * 64 + v % 64 = v by omega]

theorem next_four {v : Nat} (hlow : 0x10000 ≤ v) (hhigh : v < 0x110000) (rest : List UInt8) :
    next (UInt8.ofNat (v / 262144 % 8 + 0xf0)) (UInt8.ofNat (v / 4096 % 64 + 0x80) :: UInt8.ofNat (v / 64 % 64 + 0x80) ::
      UInt8.ofNat (v % 64 + 0x80) :: rest) = (some (Char.ofNat v), rest) := by
  have hlead : ∃ low high, lead (v / 262144 % 8 + 0xf0) =
        some (v / 262144 % 8, [(low, high), (0x80, 0xbf), (0x80, 0xbf)]) ∧
      low ≤ v / 4096 % 64 + 0x80 ∧ v / 4096 % 64 + 0x80 ≤ high := by
    unfold lead
    rw [if_neg (by omega), if_neg (by omega), if_neg (by omega), if_neg (by omega), if_neg (by omega),
      if_neg (by omega)]
    split_ifs with h0 hmiddle hfour
    · exact ⟨0x90, 0xbf, by rw [show v / 262144 % 8 = 0 by omega], by omega, by omega⟩
    · exact ⟨0x80, 0xbf, by rw [Nat.add_sub_cancel], by omega, by omega⟩
    · exact ⟨0x80, 0x8f, by rw [show v / 262144 % 8 = 4 by omega], by omega, by omega⟩
    · omega
  obtain ⟨low, high, hlead, hle, hge⟩ := hlead
  apply next_lead (by omega) hlead
  rw [follow_digit (by omega) hle hge, follow_digit (by omega) (by omega) (by omega),
    follow_digit (by omega) (by omega) (by omega), follow,
    show ((v / 262144 % 8 * 64 + v / 4096 % 64) * 64 + v / 64 % 64) * 64 + v % 64 = v by omega]

theorem next_encodeChar (c : Char) (rest : List UInt8) :
    ∃ b more, String.utf8EncodeChar c = b :: more ∧ next b (more ++ rest) = (some c, rest) := by
  have hvalid : c.val.toNat.isValidChar := c.valid
  have hofNat : Char.ofNat c.val.toNat = c := Char.ofNat_toNat c
  unfold Nat.isValidChar at hvalid
  unfold String.utf8EncodeChar
  generalize c.val.toNat = v at hvalid hofNat
  simp only
  split
  · have hv : (UInt8.ofNat v).toNat = v := toNat_ofNat (by omega)
    refine ⟨_, _, rfl, ?_⟩
    rw [List.nil_append, next_ascii (by omega), hv, hofNat]
  · split
    · refine ⟨_, _, rfl, ?_⟩
      rw [← hofNat]
      exact next_two (v := v) (by omega) (by omega) rest
    · split
      · refine ⟨_, _, rfl, ?_⟩
        rw [← hofNat]
        exact next_three (v := v) (by omega) (by omega) (by omega) rest
      · refine ⟨_, _, rfl, ?_⟩
        rw [← hofNat]
        exact next_four (v := v) (by omega) (by omega) rest

theorem units_encode_append (text : List Char) (rest : List UInt8) :
    units (encode text ++ rest) = text.map some ++ units rest := by
  induction text with
  | nil => rfl
  | cons c text ih =>
    obtain ⟨b, more, hchar, hnext⟩ := next_encodeChar c (encode text ++ rest)
    have hencode : encode (c :: text) ++ rest = b :: (more ++ (encode text ++ rest)) := by
      simp [encode, hchar]
    rw [hencode, units_cons, hnext, ih]
    rfl

theorem decodeReplace_encode (text : List Char) : decodeReplace (encode text) = text := by
  have h := units_encode_append text []
  rw [List.append_nil, units_nil, List.append_nil] at h
  simp [decodeReplace, h, Function.comp_def]

theorem mapM_some (text : List Char) : (text.map some).mapM id = some text := by
  induction text with
  | nil => rfl
  | cons c rest ih =>
    rw [List.map_cons, List.mapM_cons, ih]
    rfl

theorem decode_encode (text : List Char) : decode (encode text) = some text := by
  have h := units_encode_append text []
  rw [List.append_nil, units_nil, List.append_nil] at h
  unfold decode
  rw [h, mapM_some]

end SmartTest.Lib.Utf8
