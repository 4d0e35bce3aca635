import Mathlib.Algebra.BigOperators.Group.List.Basic
import Mathlib.Algebra.Order.BigOperators.Group.List
import Mathlib.Algebra.Order.Field.Rat
import Mathlib.Algebra.Order.Floor.Ring
import Mathlib.Data.List.GetD
import Mathlib.Data.List.Sort
import Mathlib.Data.Rat.Floor
import Mathlib.Tactic.Linarith

/-!
# Samples and their order

A sample of bounded size with drawn places, what stands at a place of a list once it is
sorted, and the rounding of Python's `round`.
-/

namespace SmartTest.Lib

/-! ## A sample of bounded size -/

section Sample

variable {α : Type} {limit : Nat}

/-- One more item: it is appended while there is room, and then takes the drawn place, if the sample has it. -/
def keepSample (limit draw : Nat) (kept : List α) (item : α) : List α :=
  if kept.length < limit then kept ++ [item] else if draw < limit then kept.set draw item else kept

theorem length_keepSample {draw n : Nat} {kept : List α} {item : α} (h : kept.length = min n limit) :
    (keepSample limit draw kept item).length = min (n + 1) limit := by
  unfold keepSample
  split
  · rw [List.length_append, List.length_singleton]
    omega
  · split
    · rw [List.length_set]
      omega
    · omega

theorem mem_keepSample {draw : Nat} {kept : List α} {item x : α} (h : x ∈ keepSample limit draw kept item) :
    x ∈ kept ∨ x = item := by
  unfold keepSample at h
  split at h
  · simpa using h
  · split at h
    · exact List.mem_or_eq_of_mem_set h
    · exact .inl h

end Sample

/-! ## Places in a sorted list -/

/-- What stands at a place of the sorted list; the last place stands for those beyond the end. -/
def ranked (l : List Rat) (i : Nat) : Rat := (l.insertionSort (· ≤ ·)).getD (min (l.length - 1) i) 0

theorem ranked_mem {l : List Rat} (h : l ≠ []) (i : Nat) : ranked l i ∈ l := by
  have hlength := List.length_pos_iff.mpr h
  have hlt : min (l.length - 1) i < (l.insertionSort (· ≤ ·)).length := by
    rw [List.length_insertionSort]
    omega
  unfold ranked
  rw [List.getD_eq_getElem _ _ hlt, ← List.mem_insertionSort (· ≤ ·)]
  exact List.getElem_mem hlt

theorem ranked_mono {l : List Rat} {i j : Nat} (hij : i ≤ j) : ranked l i ≤ ranked l j := by
  by_cases h : l = []
  · subst h
    rfl
  · have hlength := List.length_pos_iff.mpr h
    have hsorted := List.pairwise_insertionSort (· ≤ ·) l
    have hi : min (l.length - 1) i < (l.insertionSort (· ≤ ·)).length := by
      rw [List.length_insertionSort]
      omega
    have hj : min (l.length - 1) j < (l.insertionSort (· ≤ ·)).length := by
      rw [List.length_insertionSort]
      omega
    unfold ranked
    rw [List.getD_eq_getElem _ _ hi, List.getD_eq_getElem _ _ hj]
    rcases Nat.lt_or_ge (min (l.length - 1) i) (min (l.length - 1) j) with hlt | hge
    · exact List.pairwise_iff_getElem.mp hsorted _ _ hi hj hlt
    · have heq : min (l.length - 1) i = min (l.length - 1) j := by omega
      simp only [heq, le_refl]

/-! ## The mean -/

theorem length_mul_le_sum {l : List Rat} {m : Rat} (h : ∀ x ∈ l, m ≤ x) : l.length * m ≤ l.sum := by
  have hle := List.card_nsmul_le_sum l m h
  rwa [nsmul_eq_mul] at hle

theorem sum_le_length_mul {l : List Rat} {m : Rat} (h : ∀ x ∈ l, x ≤ m) : l.sum ≤ l.length * m := by
  have hle := List.sum_le_card_nsmul l m h
  rwa [nsmul_eq_mul] at hle

/-! ## Rounding -/

/-- `round(q)`: to the nearest integer, and to the even one between two. -/
def roundEven (q : Rat) : Int :=
  let fraction := q - ⌊q⌋
  if fraction * 2 < 1 then ⌊q⌋
  else if 1 < fraction * 2 then ⌊q⌋ + 1
  else if ⌊q⌋ % 2 = 0 then ⌊q⌋ else ⌊q⌋ + 1

theorem floor_le_roundEven (q : Rat) : ⌊q⌋ ≤ roundEven q := by
  unfold roundEven
  dsimp only
  split_ifs <;> omega

theorem roundEven_le_floor_add_one (q : Rat) : roundEven q ≤ ⌊q⌋ + 1 := by
  unfold roundEven
  dsimp only
  split_ifs <;> omega

theorem roundEven_mono {p q : Rat} (h : p ≤ q) : roundEven p ≤ roundEven q := by
  rcases lt_or_eq_of_le (Int.floor_le_floor h) with hlt | heq
  · have hp := roundEven_le_floor_add_one p
    have hq := floor_le_roundEven q
    omega
  · unfold roundEven
    dsimp only
    rw [heq]
    have hfraction : (p - ⌊q⌋) * 2 ≤ (q - ⌊q⌋) * 2 := by linarith
    split_ifs
    all_goals first | omega | (exfalso; linarith)

end SmartTest.Lib
