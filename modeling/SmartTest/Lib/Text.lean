import Mathlib.Data.List.DropRight
import Mathlib.Data.List.TakeWhile
import Mathlib.Tactic.Common

/-! # Python text operations -/

namespace SmartTest.Lib

/-- A run of characters up to the first that is none of them. -/
theorem takeWhile_append_stop {p : Char → Bool} {l : List Char} (rest : List Char) {c : Char}
    (hl : ∀ d ∈ l, p d = true) (hc : p c = false) :
    (l ++ c :: rest).takeWhile p = l ∧ (l ++ c :: rest).dropWhile p = c :: rest := by
  rw [List.takeWhile_append_of_pos hl, List.dropWhile_append_of_pos hl]
  simp [hc]

/-- A run of characters ends where the text does or where another character comes. -/
theorem takeWhile_append_ends {p : Char → Bool} {l rest : List Char} (hl : ∀ d ∈ l, p d = true)
    (hrest : ∀ c tail, rest = c :: tail → p c = false) :
    (l ++ rest).takeWhile p = l ∧ (l ++ rest).dropWhile p = rest := by
  cases rest with
  | nil =>
    rw [List.append_nil]
    exact ⟨List.takeWhile_eq_self_iff.mpr hl, List.dropWhile_eq_nil_iff.mpr hl⟩
  | cons c rest => exact takeWhile_append_stop rest hl (hrest c rest rfl)

/-! ## Pieces between separators -/

/-- A text without the separator goes to the first piece. -/
theorem splitOn_prepend {α : Type} [BEq α] [LawfulBEq α] {a : α} {l : List α} (h : a ∉ l) (text : List α) :
    (l ++ text).splitOn a = (text.splitOn a).modifyHead (l ++ ·) := by
  induction l with
  | nil =>
    rw [List.nil_append]
    cases text.splitOn a <;> rfl
  | cons x l ih =>
    rw [List.mem_cons, not_or] at h
    have hx : (x == a) = false := by simpa using fun heq => h.1 heq.symm
    rw [List.cons_append, List.splitOn_cons_eq_if_modifyHead, hx, if_neg Bool.false_ne_true, ih h.2]
    cases text.splitOn a <;> rfl

theorem splitOn_terminated {α : Type} [BEq α] [LawfulBEq α] {a : α} {field : List α} (h : a ∉ field) (rest : List α) :
    (field ++ a :: rest).splitOn a = field :: rest.splitOn a := by
  rw [splitOn_prepend h, List.splitOn_cons_eq_if_modifyHead, if_pos (beq_self_eq_true a)]
  simp

/-- `str.isspace` on one character. -/
def isSpace (c : Char) : Bool :=
  let n := c.toNat
  (9 ≤ n && n ≤ 13) || (28 ≤ n && n ≤ 32) || n = 0x85 || n = 0xa0 || n = 0x1680 ||
    (0x2000 ≤ n && n ≤ 0x200a) || n = 0x2028 || n = 0x2029 || n = 0x202f || n = 0x205f || n = 0x3000

/-- `str.strip()`. -/
def strip (s : String) : String :=
  .ofList ((s.toList.dropWhile isSpace).reverse.dropWhile isSpace).reverse

theorem strip_eq_self {text : String} (h : ∀ c ∈ text.toList, isSpace c = false) : strip text = text := by
  have hdrop : ∀ l : List Char, (∀ c ∈ l, isSpace c = false) → l.dropWhile isSpace = l := by
    intro l hl
    cases l with
    | nil => rfl
    | cons c rest => rw [List.dropWhile_cons_of_neg (by simp [hl c List.mem_cons_self])]
  rw [strip, hdrop _ h, hdrop _ (fun c hc => h c (by simpa using hc)), List.reverse_reverse, String.ofList_toList]

theorem strip_strip (text : String) : strip (strip text) = strip text := by
  simp only [strip, String.toList_ofList]
  generalize hl : text.toList.dropWhile isSpace = l
  -- What is left begins with the character that ended the first `dropWhile`.
  have hhead : (l.reverse.dropWhile isSpace).reverse.dropWhile isSpace = (l.reverse.dropWhile isSpace).reverse := by
    cases l with
    | nil => rfl
    | cons c rest =>
      have hc : isSpace c = false := by
        have hidem := List.dropWhile_idempotent isSpace text.toList
        rw [hl] at hidem
        cases hc : isSpace c with
        | false => rfl
        | true =>
          rw [List.dropWhile_cons_of_pos hc] at hidem
          have := congrArg List.length hidem
          have := (List.dropWhile_sublist isSpace : (rest.dropWhile isSpace).Sublist rest).length_le
          simp only [List.length_cons] at *
          omega
      rw [List.reverse_cons, List.dropWhile_append]
      split
      · simp [hc]
      · simp [hc]
  rw [hhead, List.reverse_reverse, List.dropWhile_idempotent]

/-- A check of every character of a text, evaluated. -/
theorem forall_mem_of_all {α : Type} {p : α → Prop} [DecidablePred p] {l : List α}
    (h : l.all (fun a => decide (p a)) = true) : ∀ a ∈ l, p a := by
  intro a ha
  exact of_decide_eq_true (List.all_eq_true.mp h a ha)

end SmartTest.Lib
