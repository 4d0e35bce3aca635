import Mathlib.Algebra.Order.Group.Defs
import Mathlib.Algebra.Order.Sub.Basic
import Mathlib.Data.List.Induction
import Mathlib.Tactic.Common

/-!
# Sliding windows

A limiter keeps the times of what it counts, in order, and drops those that are a whole window
old. Some marks reset it. What it has counted in any window is what it still keeps.
-/

namespace SmartTest.Lib

/-! ## Marks -/

section Marks

variable {T : Type}

structure Mark (T : Type) where
  time : T
  resets : Bool

/-- The times since the last reset. -/
def sinceReset (marks : List (Mark T)) : List T :=
  marks.foldl (fun times mark => if mark.resets then [] else times ++ [mark.time]) []

/-- The marks inside a window that count. -/
def countedIn (inside : T → Bool) (marks : List (Mark T)) : Nat :=
  marks.countP fun mark => !mark.resets && inside mark.time

theorem sinceReset_append (marks : List (Mark T)) (mark : Mark T) :
    sinceReset (marks ++ [mark]) = if mark.resets then [] else sinceReset marks ++ [mark.time] := by
  simp [sinceReset]

theorem countedIn_append (inside : T → Bool) (marks : List (Mark T)) (mark : Mark T) :
    countedIn inside (marks ++ [mark]) =
      countedIn inside marks + if mark.resets = false ∧ inside mark.time = true then 1 else 0 := by
  simp [countedIn, List.countP_append, List.countP_singleton]

theorem mem_sinceReset {marks : List (Mark T)} {t : T} (h : t ∈ sinceReset marks) :
    ∃ mark ∈ marks, mark.time = t := by
  induction marks using List.reverseRecOn with
  | nil => cases h
  | append_singleton marks mark ih =>
    rw [sinceReset_append] at h
    split at h
    · cases h
    · rcases List.mem_append.mp h with h | h
      · obtain ⟨m, hm, rfl⟩ := ih h
        exact ⟨m, List.mem_append_left _ hm, rfl⟩
      · exact ⟨mark, by simp, (List.mem_singleton.mp h).symm⟩

end Marks

/-! ## Dropping old times -/

section Dropping

variable {T : Type} [LinearOrder T]

/-- The times that are kept when those up to a cutoff are dropped from the front. -/
def dropOld (cutoff : T) (times : List T) : List T := times.dropWhile fun t => t ≤ cutoff

theorem dropOld_eq {times : List T} (h : times.Pairwise (· ≤ ·)) (cutoff : T) :
    dropOld cutoff times = times.filter fun t => cutoff < t := by
  induction times with
  | nil => rfl
  | cons t rest ih =>
    obtain ⟨hle, hrest⟩ := List.pairwise_cons.mp h
    unfold dropOld
    by_cases ht : t ≤ cutoff
    · rw [List.dropWhile_cons_of_pos (by simpa using ht), List.filter_cons_of_neg (by simpa using ht)]
      exact ih hrest
    · rw [List.dropWhile_cons_of_neg (by simpa using ht), List.filter_eq_self.mpr]
      intro a ha
      have hta : t ≤ a := by
        rcases List.mem_cons.mp ha with rfl | ha
        · exact le_rfl
        · exact hle a ha
      simpa using (not_le.mp ht).trans_le hta

/-- Times that were dropped before are still old. -/
theorem dropOld_kept {dropped kept : List T} {cutoff now : T} (hcutoff : cutoff ≤ now)
    (hdropped : ∀ t ∈ dropped, t ≤ cutoff) (hsorted : (dropped ++ kept).Pairwise (· ≤ ·)) :
    dropOld now kept = (dropped ++ kept).filter fun t => now < t := by
  have hnone : dropped.filter (fun t => now < t) = [] := by
    rw [List.filter_eq_nil_iff]
    intro t ht
    simpa using (hdropped t ht).trans hcutoff
  rw [dropOld_eq (List.pairwise_append.mp hsorted).2.1, List.filter_append, hnone, List.nil_append]

theorem sinceReset_sorted {marks : List (Mark T)} (h : marks.Pairwise (·.time ≤ ·.time)) :
    (sinceReset marks).Pairwise (· ≤ ·) := by
  induction marks using List.reverseRecOn with
  | nil => exact .nil
  | append_singleton marks mark ih =>
    obtain ⟨hmarks, -, hlast⟩ := List.pairwise_append.mp h
    rw [sinceReset_append]
    split
    · exact .nil
    · refine List.pairwise_append.mpr ⟨ih hmarks, List.pairwise_singleton _ _, ?_⟩
      intro t ht last hlast'
      obtain ⟨m, hm, rfl⟩ := mem_sinceReset ht
      rw [List.mem_singleton.mp hlast']
      exact hlast m hm mark (by simp)

end Dropping

/-! ## Windows -/

section Windows

variable {T : Type} [LinearOrder T] [AddCommGroup T] [IsOrderedAddMonoid T]

/-- An interval of times of which any two are less than the width apart. -/
structure Window (width : T) (inside : T → Bool) : Prop where
  convex : ∀ {a b c}, inside a = true → inside c = true → a ≤ b → b ≤ c → inside b = true
  short : ∀ {a b}, inside a = true → inside b = true → b - width < a

theorem window_ico (width start : T) : Window width fun t => start ≤ t ∧ t < start + width where
  convex ha hc hab hbc := by
    simp only [decide_eq_true_eq] at *
    exact ⟨ha.1.trans hab, hbc.trans_lt hc.2⟩
  short ha hb := by
    simp only [decide_eq_true_eq] at *
    exact (sub_lt_iff_lt_add.mpr hb.2).trans_le ha.1

theorem window_ioc (width start : T) : Window width fun t => start < t ∧ t ≤ start + width where
  convex ha hc hab hbc := by
    simp only [decide_eq_true_eq] at *
    exact ⟨ha.1.trans_le hab, hbc.trans hc.2⟩
  short ha hb := by
    simp only [decide_eq_true_eq] at *
    exact (sub_le_iff_le_add.mpr hb.2).trans_lt ha.1

omit [IsOrderedAddMonoid T] in
/-- In a window that goes on, what was counted was counted since the last reset, unless the window has one. -/
theorem countedIn_le_sinceReset {width u : T} {inside : T → Bool} (hwindow : Window width inside) (hu : inside u = true)
    {marks : List (Mark T)} (hordered : marks.Pairwise (·.time ≤ ·.time)) (hpast : ∀ mark ∈ marks, mark.time ≤ u)
    (hreset : ∀ mark ∈ marks, mark.resets = true → inside mark.time = false) :
    countedIn inside marks ≤ (sinceReset marks).countP inside := by
  induction marks using List.reverseRecOn with
  | nil => simp [countedIn]
  | append_singleton marks mark ih =>
    obtain ⟨hmarks, -, hlast⟩ := List.pairwise_append.mp hordered
    have hle := ih hmarks (fun m hm => hpast m (List.mem_append_left _ hm))
      (fun m hm => hreset m (List.mem_append_left _ hm))
    rw [countedIn_append, sinceReset_append]
    cases hresets : mark.resets with
    | false =>
      simp only [true_and, Bool.false_eq_true, if_false, List.countP_append, List.countP_singleton]
      omega
    | true =>
      -- Everything before the reset is outside: the window would hold the reset too.
      have hnone : countedIn inside marks = 0 := by
        refine List.countP_eq_zero.mpr ?_
        intro m hm hcounted
        simp only [Bool.and_eq_true] at hcounted
        have hinside := hwindow.convex hcounted.2 hu (hlast m hm mark (by simp)) (hpast mark (by simp))
        rw [hreset mark (by simp) hresets] at hinside
        cases hinside
      simp [hnone]

/-- What is kept of the times since the last reset is no less than what was counted in the window. -/
theorem countedIn_le_kept {width now u : T} {inside : T → Bool} (hwindow : Window width inside) (hu : inside u = true)
    (hnow : now ≤ u) {marks : List (Mark T)} (hordered : marks.Pairwise (·.time ≤ ·.time))
    (hpast : ∀ mark ∈ marks, mark.time ≤ u) (hreset : ∀ mark ∈ marks, mark.resets = true → inside mark.time = false) :
    countedIn inside marks ≤ (sinceReset marks).countP fun t => now - width < t := by
  refine (countedIn_le_sinceReset hwindow hu hordered hpast hreset).trans (List.countP_mono_left ?_)
  intro t _ ht
  exact decide_eq_true ((sub_le_sub_right hnow width).trans_lt (hwindow.short ht hu))

end Windows

end SmartTest.Lib
