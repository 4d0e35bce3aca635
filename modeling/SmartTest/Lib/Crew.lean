import Mathlib.Algebra.GroupWithZero.Nat
import Mathlib.Tactic.Common

/-!
# A crew of workers

Workers in a list, one of which moves at a time. What they have in hand together changes by
what the one that moved had and has.
-/

namespace SmartTest.Lib

variable {α : Type}

/-- What all workers have together. -/
def crewSum (f : α → Nat) (crew : List α) : Nat := (crew.map f).sum

theorem crewSum_set {crew : List α} {i : Nat} {a : α} (h : crew[i]? = some a) (f : α → Nat) (b : α) :
    crewSum f (crew.set i b) + f a = crewSum f crew + f b := by
  induction crew generalizing i with
  | nil => simp at h
  | cons c rest ih =>
    cases i with
    | zero =>
      obtain rfl : c = a := by simpa using h
      simp only [crewSum, List.set_cons_zero, List.map_cons, List.sum_cons]
      omega
    | succ i =>
      have hrest := ih (by simpa using h)
      simp only [crewSum, List.set_cons_succ, List.map_cons, List.sum_cons] at hrest ⊢
      omega

theorem crewSum_eq_zero {crew : List α} {f : α → Nat} (h : ∀ a ∈ crew, f a = 0) : crewSum f crew = 0 := by
  induction crew with
  | nil => rfl
  | cons c rest ih =>
    obtain ⟨hc, hrest⟩ := List.forall_mem_cons.mp h
    simp only [crewSum, List.map_cons, List.sum_cons, hc, Nat.zero_add]
    exact ih hrest

theorem crewSum_replicate (f : α → Nat) (n : Nat) (a : α) : crewSum f (List.replicate n a) = n * f a := by
  induction n with
  | zero => simp [crewSum]
  | succ n ih =>
    rw [crewSum] at ih ⊢
    rw [List.replicate_succ, List.map_cons, List.sum_cons, ih, Nat.succ_mul]
    omega

theorem le_crewSum {crew : List α} {f : α → Nat} {a : α} (h : a ∈ crew) : f a ≤ crewSum f crew := by
  induction crew with
  | nil => simp at h
  | cons c rest ih =>
    simp only [crewSum, List.map_cons, List.sum_cons] at ih ⊢
    rcases List.mem_cons.mp h with rfl | h
    · omega
    · have := ih h
      omega

theorem crewSum_mono {crew : List α} {f g : α → Nat} (h : ∀ a, f a ≤ g a) : crewSum f crew ≤ crewSum g crew := by
  induction crew with
  | nil => exact Nat.le_refl _
  | cons c rest ih =>
    have := h c
    simp only [crewSum, List.map_cons, List.sum_cons] at ih ⊢
    omega

theorem crewSum_append (f : α → Nat) (crew more : List α) : crewSum f (crew ++ more) = crewSum f crew + crewSum f more := by
  simp [crewSum]

/-- What one worker has alone, the others do not have. -/
theorem eq_zero_of_crewSum {crew : List α} {f : α → Nat} {i j : Nat} {a b : α} (h : crewSum f crew ≤ f a)
    (ha : crew[i]? = some a) (hb : crew[j]? = some b) (hne : i ≠ j) : f b = 0 := by
  induction crew generalizing i j with
  | nil => simp at ha
  | cons c rest ih =>
    simp only [crewSum, List.map_cons, List.sum_cons] at h ih
    cases i with
    | zero =>
      obtain rfl : c = a := by simpa using ha
      cases j with
      | zero => exact absurd rfl hne
      | succ j =>
        have hle : f b ≤ crewSum f rest := le_crewSum (List.mem_of_getElem? (by simpa using hb))
        rw [crewSum] at hle
        omega
    | succ i =>
      have hle : f a ≤ crewSum f rest := le_crewSum (List.mem_of_getElem? (by simpa using ha))
      rw [crewSum] at hle
      cases j with
      | zero =>
        obtain rfl : c = b := by simpa using hb
        omega
      | succ j => exact ih (by omega) (by simpa using ha) (by simpa using hb) (by omega)

/-- A condition on each worker is kept when the one that moves meets it. -/
theorem forall_mem_set {crew : List α} {i : Nat} {b : α} {I : α → Prop} (h : ∀ a ∈ crew, I a) (hb : I b) :
    ∀ a ∈ crew.set i b, I a := by
  intro a ha
  rcases List.mem_or_eq_of_mem_set ha with hold | rfl
  · exact h a hold
  · exact hb

end SmartTest.Lib
