import Mathlib.Algebra.GroupWithZero.Nat
import Mathlib.Data.Nat.Digits.Defs
import Mathlib.Tactic.Common

/-!
# Dates and times

The proleptic Gregorian calendar as the `datetime` module of Python counts it, from the years
1 to 9999, and the text of a time in UTC.
-/

namespace SmartTest.Lib

/-! ## The calendar -/

namespace Calendar

def DAYS_IN_MONTH (month : Nat) : Nat := [0, 31, 28, 31, 30, 31, 30, 31, 31, 30, 31, 30, 31].getD month 0

def DAYS_BEFORE_MONTH (month : Nat) : Nat := [0, 0, 31, 59, 90, 120, 151, 181, 212, 243, 273, 304, 334].getD month 0

def isLeap (year : Nat) : Bool := year % 4 = 0 && (year % 100 ≠ 0 || year % 400 = 0)

def daysBeforeYear (year : Nat) : Nat := (year - 1) * 365 + (year - 1) / 4 - (year - 1) / 100 + (year - 1) / 400

def daysInMonth (leap : Bool) (month : Nat) : Nat := if month = 2 && leap then 29 else DAYS_IN_MONTH month

def daysBeforeMonth (leap : Bool) (month : Nat) : Nat := DAYS_BEFORE_MONTH month + if 2 < month && leap then 1 else 0

/-- The number of a day, from 1 for the first day of the year 1. -/
def ymd2ord (year month day : Nat) : Nat := daysBeforeYear year + daysBeforeMonth (isLeap year) month + day

/-- The month and the day of the `n`-th day of a year, counted from 0: an estimate that may be one too large. -/
def monthOf (leap : Bool) (n : Nat) : Nat × Nat :=
  let month := (n + 50) / 32
  if daysBeforeMonth leap month > n then (month - 1, n - daysBeforeMonth leap (month - 1) + 1)
  else (month, n - daysBeforeMonth leap month + 1)

def ord2ymd (ordinal : Nat) : Nat × Nat × Nat :=
  let n := ordinal - 1
  let n400 := n / 146097
  let n := n % 146097
  let n100 := n / 36524
  let n := n % 36524
  let n4 := n / 1461
  let n := n % 1461
  let n1 := n / 365
  let n := n % 365
  let year := n400 * 400 + 1 + n100 * 100 + n4 * 4 + n1
  if n1 = 4 ∨ n100 = 4 then (year - 1, 12, 31)
  else
    let leap := n1 = 3 && (n4 ≠ 24 || n100 = 3)
    (year, monthOf leap n)

/-- The fields of a day that the calendar has. -/
structure IsDate (year month day : Nat) : Prop where
  year_pos : 1 ≤ year
  month_pos : 1 ≤ month
  month_le : month ≤ 12
  day_pos : 1 ≤ day
  day_le : day ≤ daysInMonth (isLeap year) month

instance (year month day : Nat) : Decidable (IsDate year month day) :=
  decidable_of_iff (1 ≤ year ∧ 1 ≤ month ∧ month ≤ 12 ∧ 1 ≤ day ∧ day ≤ daysInMonth (isLeap year) month)
    ⟨fun ⟨hy, hm, hm', hd, hd'⟩ => ⟨hy, hm, hm', hd, hd'⟩,
      fun h => ⟨h.year_pos, h.month_pos, h.month_le, h.day_pos, h.day_le⟩⟩

theorem monthOf_spec (leap : Bool) : ∀ n < 365, daysBeforeMonth leap (monthOf leap n).1 + (monthOf leap n).2 = n + 1 ∧
    1 ≤ (monthOf leap n).1 ∧ (monthOf leap n).1 ≤ 12 ∧ 1 ≤ (monthOf leap n).2 ∧
    (monthOf leap n).2 ≤ daysInMonth leap (monthOf leap n).1 := by
  cases leap <;> decide +kernel

/-- A year that is no last day of a cycle, by the cycles it is in. -/
theorem year_facts {a b c d : Nat} (hb : b ≤ 3) (hc : c ≤ 24) (hd : d ≤ 3) :
    daysBeforeYear (a * 400 + 1 + b * 100 + c * 4 + d) = 146097 * a + 36524 * b + 1461 * c + 365 * d ∧
      isLeap (a * 400 + 1 + b * 100 + c * 4 + d) = (decide (d = 3) && (decide (c ≠ 24) || decide (b = 3))) := by
  constructor
  · unfold daysBeforeYear
    omega
  · unfold isLeap
    rw [Bool.eq_iff_iff]
    simp only [Bool.and_eq_true, Bool.or_eq_true, decide_eq_true_eq]
    omega

theorem ord2ymd_spec {ordinal : Nat} (h : 1 ≤ ordinal) :
    ymd2ord (ord2ymd ordinal).1 (ord2ymd ordinal).2.1 (ord2ymd ordinal).2.2 = ordinal ∧
      IsDate (ord2ymd ordinal).1 (ord2ymd ordinal).2.1 (ord2ymd ordinal).2.2 := by
  unfold ord2ymd
  extract_lets n n400 r400 n100 r100 n4 r4 n1 r1 year leap
  have hn : ordinal = n + 1 := by omega
  have h400 : n = 146097 * n400 + r400 := (Nat.div_add_mod _ _).symm
  have h100 : r400 = 36524 * n100 + r100 := (Nat.div_add_mod _ _).symm
  have h4 : r100 = 1461 * n4 + r4 := (Nat.div_add_mod _ _).symm
  have h1 : r4 = 365 * n1 + r1 := (Nat.div_add_mod _ _).symm
  have hr400 : r400 < 146097 := Nat.mod_lt _ (by decide)
  have hr100 : r100 < 36524 := Nat.mod_lt _ (by decide)
  have hr4 : r4 < 1461 := Nat.mod_lt _ (by decide)
  have hr1 : r1 < 365 := Nat.mod_lt _ (by decide)
  clear_value n n400 r400 n100 r100 n4 r4 n1 r1
  split
  · next hlast =>
    -- the last day of four or of four hundred years, in a leap year
    have hyear : ∃ a b c, year - 1 = a * 400 + 1 + b * 100 + c * 4 + 3 ∧ b ≤ 3 ∧ c ≤ 24 ∧ (c ≠ 24 ∨ b = 3) ∧
        n + 1 = 146097 * a + 36524 * b + 1461 * c + 365 * 3 + 366 := by
      rcases hlast with hlast | hlast
      · exact ⟨n400, n100, n4, by omega, by omega, by omega, by omega, by omega⟩
      · exact ⟨n400, 3, 24, by omega, by omega, by omega, by omega, by omega⟩
    obtain ⟨a, b, c, hyear, hb, hc, hleap, htotal⟩ := hyear
    obtain ⟨hdays, hisLeap⟩ := year_facts (a := a) hb hc (le_refl 3)
    have hyes : isLeap (year - 1) = true := by
      rw [hyear, hisLeap]
      simpa using hleap
    have hfifth : daysBeforeMonth true 12 = 335 ∧ daysInMonth true 12 = 31 := by decide
    dsimp only
    refine ⟨?_, ⟨by omega, by decide, by decide, by decide, ?_⟩⟩
    · rw [ymd2ord, hyes, hfifth.1, hyear, hdays]
      omega
    · rw [hyes, hfifth.2]
  · next hmiddle =>
    obtain ⟨hdays, hisLeap⟩ := year_facts (a := n400) (b := n100) (c := n4) (d := n1) (by omega) (by omega) (by omega)
    obtain ⟨htotal, hmonth, hmonth', hday, hday'⟩ := monthOf_spec leap r1 hr1
    have hleap : isLeap year = leap := hisLeap
    dsimp only
    refine ⟨?_, ⟨by omega, hmonth, hmonth', hday, by rwa [hleap]⟩⟩
    rw [ymd2ord, hleap, hdays]
    omega

end Calendar

/-! ## Times -/

/-- A `datetime` without its zone: the microseconds since the beginning of the year 1. -/
structure DateTime where
  micros : Nat
  inRange : micros < 3652059 * 86400000000
  deriving DecidableEq

namespace DateTime

open Calendar

/-- `self + timedelta(microseconds=delta)`; `none` is an `OverflowError`. -/
def add (time : DateTime) (delta : Int) : Option DateTime :=
  let sum := (time.micros : Int) + delta
  if h : 0 ≤ sum ∧ sum < 3652059 * 86400000000 then some ⟨sum.toNat, by omega⟩ else none

theorem add_eq_some {time time' : DateTime} {delta : Int} :
    time.add delta = some time' ↔ (time'.micros : Int) = time.micros + delta := by
  obtain ⟨micros', hrange'⟩ := time'
  unfold add
  dsimp only
  split
  · simp only [Option.some.injEq, mk.injEq]
    omega
  · simp only [reduceCtorEq, false_iff]
    omega

/-- The time of fields that a `datetime` can have. -/
def ofFields (year month day hour minute second micro : Nat) : Option DateTime :=
  let micros := (ymd2ord year month day - 1) * 86400000000 + hour * 3600000000 + minute * 60000000 + second * 1000000 + micro
  if IsDate year month day ∧ year ≤ 9999 ∧ hour < 24 ∧ minute < 60 ∧ second < 60 ∧ micro < 1000000 then
    if h : micros < 3652059 * 86400000000 then some ⟨micros, h⟩ else none
  else none

/-! ## Texts in UTC -/

/-- A number with leading zeros. -/
def pad : (width : Nat) → Nat → List Char
  | 0, _ => []
  | width + 1, n => pad width (n / 10) ++ [(n % 10).digitChar]

/-- `isoformat()` of the time in UTC. -/
def isoformat (time : DateTime) : List Char :=
  let (year, month, day) := ord2ymd (time.micros / 86400000000 + 1)
  let rest := time.micros % 86400000000
  let micro := rest % 1000000
  pad 4 year ++ '-' :: (pad 2 month ++ '-' :: (pad 2 day ++ 'T' :: (pad 2 (rest / 3600000000) ++
    ':' :: (pad 2 (rest / 60000000 % 60) ++ ':' :: (pad 2 (rest / 1000000 % 60) ++
      ((if micro = 0 then [] else '.' :: pad 6 micro) ++ ['+', '0', '0', ':', '0', '0']))))))

def digitValue (c : Char) : Option Nat := if c.isDigit then some (c.toNat - '0'.toNat) else none

/-- A number of so many digits, and the text after it. -/
def readPad : (width : Nat) → (acc : Nat) → List Char → Option (Nat × List Char)
  | 0, acc, rest => some (acc, rest)
  | _ + 1, _, [] => none
  | width + 1, acc, c :: rest => do readPad width (acc * 10 + (← digitValue c)) rest

def expect (c : Char) : List Char → Option (List Char)
  | d :: rest => if d = c then some rest else none
  | [] => none

/-- The fraction of a second, if one is written. -/
def readFraction : List Char → Option (Nat × List Char)
  | '.' :: rest => readPad 6 0 rest
  | rest => some (0, rest)

/-- What `fromisoformat` makes of the texts that `isoformat` writes. -/
def readIso (text : List Char) : Option DateTime := do
  let (year, text) ← readPad 4 0 text
  let (month, text) ← readPad 2 0 (← expect '-' text)
  let (day, text) ← readPad 2 0 (← expect '-' text)
  let (hour, text) ← readPad 2 0 (← expect 'T' text)
  let (minute, text) ← readPad 2 0 (← expect ':' text)
  let (second, text) ← readPad 2 0 (← expect ':' text)
  let (micro, text) ← readFraction text
  guard (text = ['+', '0', '0', ':', '0', '0'])
  ofFields year month day hour minute second micro

theorem digitValue_digitChar : ∀ n < 10, digitValue n.digitChar = some n := by decide

theorem readPad_pad {width acc n : Nat} (h : n < 10 ^ width) (rest : List Char) :
    readPad width acc (pad width n ++ rest) = some (acc * 10 ^ width + n, rest) := by
  have hmore : ∀ {width acc n : Nat} {rest : List Char} (more : Nat), n < 10 ^ width →
      readPad (width + more) acc (pad width n ++ rest) = readPad more (acc * 10 ^ width + n) rest := by
    intro width
    induction width with
    | zero =>
      intro acc n rest more hn
      have hzero : n = 0 := by omega
      simp [pad, hzero]
    | succ width ih =>
      intro acc n rest more hn
      have hfront : n / 10 < 10 ^ width := by
        rw [Nat.pow_succ] at hn
        omega
      rw [pad, List.append_assoc, Nat.add_assoc, ih (1 + more) hfront, Nat.add_comm 1 more, List.singleton_append, readPad,
        digitValue_digitChar _ (Nat.mod_lt _ (by decide))]
      simp only [Option.bind_eq_bind, Option.bind_some]
      congr 1
      rw [Nat.pow_succ, Nat.add_mul, ← Nat.mul_assoc, Nat.add_assoc]
      congr 1
      omega
  exact @hmore _ _ _ rest 0 h

theorem daysInMonth_le (leap : Bool) : ∀ month ≤ 12, daysInMonth leap month ≤ 31 := by
  cases leap <;> decide

theorem year_le {ordinal : Nat} (h : 1 ≤ ordinal) (hlt : ordinal < 3652060) : (ord2ymd ordinal).1 ≤ 9999 := by
  obtain ⟨htotal, hdate⟩ := ord2ymd_spec h
  by_contra hover
  have hpos := hdate.day_pos
  unfold ymd2ord daysBeforeYear at htotal
  omega

/-- What was written is read. -/
theorem readIso_isoformat (time : DateTime) : readIso time.isoformat = some time := by
  obtain ⟨micros, hrange⟩ := time
  have hordinal : 1 ≤ micros / 86400000000 + 1 := by omega
  obtain ⟨htotal, hdate⟩ := ord2ymd_spec hordinal
  have hyear := year_le hordinal (by omega)
  unfold isoformat
  generalize hfields : ord2ymd (micros / 86400000000 + 1) = fields at htotal hdate hyear
  obtain ⟨year, month, day⟩ := fields
  dsimp only at htotal hdate hyear ⊢
  have hmonth := hdate.month_le
  have hday : day ≤ 31 := hdate.day_le.trans (daysInMonth_le _ month hmonth)
  generalize hrest : micros % 86400000000 = rest
  have hfraction : readFraction ((if rest % 1000000 = 0 then [] else '.' :: pad 6 (rest % 1000000)) ++
      ['+', '0', '0', ':', '0', '0']) = some (rest % 1000000, ['+', '0', '0', ':', '0', '0']) := by
    split
    · next hzero => simp [readFraction, hzero]
    · rw [List.cons_append, readFraction, readPad_pad (by omega)]
      simp
  have hwhole : ofFields year month day (rest / 3600000000) (rest / 60000000 % 60) (rest / 1000000 % 60) (rest % 1000000) =
      some ⟨micros, hrange⟩ := by
    have hmicros : (ymd2ord year month day - 1) * 86400000000 + rest / 3600000000 * 3600000000 +
        rest / 60000000 % 60 * 60000000 + rest / 1000000 % 60 * 1000000 + rest % 1000000 = micros := by
      omega
    simp only [ofFields, hmicros]
    rw [if_pos ⟨hdate, hyear, by omega, by omega, by omega, by omega⟩, dif_pos hrange]
  have hdigits : ∀ {width n : Nat} (tail : List Char), n < 10 ^ width → readPad width 0 (pad width n ++ tail) = some (n, tail) := by
    intro width n tail h
    rw [readPad_pad h, Nat.zero_mul, Nat.zero_add]
  unfold readIso
  rw [hdigits _ (by omega)]
  simp only [Option.bind_eq_bind, Option.bind_some, expect, if_true]
  rw [hdigits _ (by omega)]
  simp only [Option.bind_some, if_true]
  rw [hdigits _ (by omega)]
  simp only [Option.bind_some, if_true]
  rw [hdigits _ (by omega)]
  simp only [Option.bind_some, if_true]
  rw [hdigits _ (by omega)]
  simp only [Option.bind_some, if_true]
  rw [hdigits _ (by omega)]
  simp only [Option.bind_some, hfraction, guard_true, Option.pure_def, hwhole]

/-! ## What the text is made of -/

theorem mem_pad {width n : Nat} {c : Char} (h : c ∈ pad width n) : ∃ d < 10, c = d.digitChar := by
  induction width generalizing n with
  | zero => cases h
  | succ width ih =>
    rcases List.mem_append.mp h with hfront | hlast
    · exact ih hfront
    · exact ⟨n % 10, Nat.mod_lt _ (by decide), List.mem_singleton.mp hlast⟩

theorem length_pad (width n : Nat) : (pad width n).length = width := by
  induction width generalizing n with
  | zero => rfl
  | succ width ih => simp [pad, ih]

theorem mem_isoformat {time : DateTime} {c : Char} (h : c ∈ time.isoformat) :
    (∃ d < 10, c = d.digitChar) ∨ c ∈ ['-', 'T', ':', '.', '+', '0'] := by
  have hdigits : ∀ {width n : Nat}, c ∈ pad width n → (∃ d < 10, c = d.digitChar) ∨ c ∈ ['-', 'T', ':', '.', '+', '0'] :=
    fun hin => .inl (mem_pad hin)
  unfold isoformat at h
  generalize ord2ymd (time.micros / 86400000000 + 1) = fields at h
  obtain ⟨year, month, day⟩ := fields
  simp only [List.mem_append, List.mem_cons] at h
  rcases h with h | rfl | h | rfl | h | rfl | h | rfl | h | rfl | h | h | h
  · exact hdigits h
  · exact .inr (by decide)
  · exact hdigits h
  · exact .inr (by decide)
  · exact hdigits h
  · exact .inr (by decide)
  · exact hdigits h
  · exact .inr (by decide)
  · exact hdigits h
  · exact .inr (by decide)
  · exact hdigits h
  · split at h
    · cases h
    · rcases List.mem_cons.mp h with rfl | h
      · exact .inr (by decide)
      · exact hdigits h
  · right
    rcases h with rfl | rfl | rfl | rfl | rfl | rfl | h
    · decide
    · decide
    · decide
    · decide
    · decide
    · decide
    · cases h

theorem length_isoformat (time : DateTime) : time.isoformat.length ≤ 32 := by
  unfold isoformat
  generalize ord2ymd (time.micros / 86400000000 + 1) = fields
  obtain ⟨year, month, day⟩ := fields
  simp only [List.length_append, List.length_cons, length_pad, List.length_nil]
  split
  · exact Nat.le_of_ble_eq_true rfl
  · rw [List.length_cons, length_pad]

end DateTime

end SmartTest.Lib
