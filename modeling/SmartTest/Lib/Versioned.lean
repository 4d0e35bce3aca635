import SmartTest.Lib.Dict

/-!
# Records with their revisions

A table of current records and, for each, the list of all its revisions. A record's first
revision is number one, and every change appends the next.
-/

namespace SmartTest.Lib

variable {κ α : Type} [DecidableEq κ]

/-- The last revision is the current record, and each stands at its number. -/
structure Versioned (idOf : α → κ) (revisionOf : α → Nat) (current : Dict κ α)
    (revisions : Dict κ (List α)) : Prop where
  latest : ∀ id record, current.get? id = some record →
    ∃ history, revisions.get? id = some history ∧ history.getLast? = some record
  known : ∀ id history, revisions.get? id = some history → (current.get? id).isSome
  numbered : ∀ id history, revisions.get? id = some history → ∀ k record,
    history[k]? = some record → idOf record = id ∧ revisionOf record = k + 1

/-- Revision `k + 1` of a record. -/
def Stored (revisions : Dict κ (List α)) (id : κ) (k : Nat) (record : α) : Prop :=
  ∃ history, revisions.get? id = some history ∧ history[k]? = some record

namespace Versioned

variable {idOf : α → κ} {revisionOf : α → Nat} {current : Dict κ α} {revisions : Dict κ (List α)}

theorem empty : Versioned idOf revisionOf (.empty : Dict κ α) .empty := ⟨by simp, by simp, by simp⟩

/-- The current record has the number of its revisions. -/
theorem current_eq (h : Versioned idOf revisionOf current revisions) {id : κ} {record : α} {history : List α}
    (hhistory : revisions.get? id = some history) (hlast : history.getLast? = some record) :
    idOf record = id ∧ revisionOf record = history.length := by
  have hget : history[history.length - 1]? = some record := by rw [← List.getLast?_eq_getElem?, hlast]
  have hpos : 0 < history.length := by
    rw [List.length_pos_iff]
    rintro rfl
    simp at hlast
  obtain ⟨hid, hrevision⟩ := h.numbered id history hhistory _ _ hget
  exact ⟨hid, by omega⟩

theorem create (h : Versioned idOf revisionOf current revisions) {id : κ} {record : α} (hid : idOf record = id)
    (hrevision : revisionOf record = 1) :
    Versioned idOf revisionOf (current.set id record) (revisions.set id [record]) := by
  refine ⟨?_, ?_, ?_⟩
  · intro other found hfound
    by_cases hcase : other = id
    · subst hcase
      obtain rfl : record = found := by simpa using hfound
      exact ⟨[record], by simp, rfl⟩
    · obtain ⟨history, hhistory, hlast⟩ := h.latest other found (by simpa [hcase] using hfound)
      exact ⟨history, by simpa [hcase] using hhistory, hlast⟩
  · intro other history hhistory
    by_cases hcase : other = id
    · simp [hcase]
    · simpa [hcase] using h.known other history (by simpa [hcase] using hhistory)
  · intro other history hhistory k found hfound
    by_cases hcase : other = id
    · subst hcase
      obtain rfl : [record] = history := by simpa using hhistory
      cases k with
      | zero =>
        obtain rfl : record = found := by simpa using hfound
        exact ⟨hid, hrevision⟩
      | succ k => simp at hfound
    · exact h.numbered other history (by simpa [hcase] using hhistory) k found hfound

theorem update (h : Versioned idOf revisionOf current revisions) {id : κ} {record updated : α} {history : List α}
    (hhistory : revisions.get? id = some history) (hlast : history.getLast? = some record)
    (hid : idOf updated = idOf record) (hrevision : revisionOf updated = revisionOf record + 1) :
    Versioned idOf revisionOf (current.set id updated) (revisions.set id (history ++ [updated])) := by
  obtain ⟨hrecordId, hcount⟩ := h.current_eq hhistory hlast
  refine ⟨?_, ?_, ?_⟩
  · intro other found hfound
    by_cases hcase : other = id
    · subst hcase
      obtain rfl : updated = found := by simpa using hfound
      exact ⟨history ++ [updated], by simp, by simp⟩
    · obtain ⟨others, hothers, hlast'⟩ := h.latest other found (by simpa [hcase] using hfound)
      exact ⟨others, by simpa [hcase] using hothers, hlast'⟩
  · intro other others hothers
    by_cases hcase : other = id
    · simp [hcase]
    · simpa [hcase] using h.known other others (by simpa [hcase] using hothers)
  · intro other others hothers k found hfound
    by_cases hcase : other = id
    · subst hcase
      obtain rfl : history ++ [updated] = others := by simpa using hothers
      rcases Nat.lt_trichotomy k history.length with hlt | rfl | hgt
      · rw [List.getElem?_append_left hlt] at hfound
        exact h.numbered other history hhistory k found hfound
      · obtain rfl : updated = found := by simpa using hfound
        exact ⟨hid.trans hrecordId, by rw [hrevision, hcount]⟩
      · rw [List.getElem?_eq_none (by simp; omega)] at hfound
        cases hfound
    · exact h.numbered other others (by simpa [hcase] using hothers) k found hfound

end Versioned

/-! ## Revisions stay -/

namespace Stored

variable {revisions : Dict κ (List α)} {id other : κ} {k : Nat} {record found : α} {history : List α}

/-- A new record leaves the revisions of the others. -/
theorem create (hnew : revisions.get? id = none) (h : Stored revisions other k found) :
    Stored (revisions.set id [record]) other k found := by
  obtain ⟨history, hhistory, hfound⟩ := h
  have hne : other ≠ id := by
    rintro rfl
    rw [hnew] at hhistory
    cases hhistory
  exact ⟨history, by simpa [hne] using hhistory, hfound⟩

theorem update (hhistory : revisions.get? id = some history) (h : Stored revisions other k found) :
    Stored (revisions.set id (history ++ [record])) other k found := by
  obtain ⟨others, hothers, hfound⟩ := h
  by_cases hcase : other = id
  · subst hcase
    obtain rfl : history = others := Option.some.inj (hhistory.symm.trans hothers)
    have hlt := (List.getElem?_eq_some_iff.mp hfound).1
    exact ⟨_, Dict.get?_set_self _ _ _, by rw [List.getElem?_append_left hlt, hfound]⟩
  · exact ⟨others, by simpa [hcase] using hothers, hfound⟩

/-- A stored revision after a creation is the new record or an old one. -/
theorem of_create (h : Stored (revisions.set id [record]) other k found) :
    found = record ∨ Stored revisions other k found := by
  obtain ⟨history, hhistory, hfound⟩ := h
  by_cases hcase : other = id
  · subst hcase
    obtain rfl : [record] = history := by simpa using hhistory
    cases k with
    | zero => exact .inl (by simpa using hfound.symm)
    | succ k => simp at hfound
  · exact .inr ⟨history, by simpa [hcase] using hhistory, hfound⟩

theorem of_update (hhistory : revisions.get? id = some history)
    (h : Stored (revisions.set id (history ++ [record])) other k found) :
    found = record ∨ Stored revisions other k found := by
  obtain ⟨others, hothers, hfound⟩ := h
  by_cases hcase : other = id
  · subst hcase
    obtain rfl : history ++ [record] = others := by simpa using hothers
    rcases Nat.lt_trichotomy k history.length with hlt | rfl | hgt
    · rw [List.getElem?_append_left hlt] at hfound
      exact .inr ⟨history, hhistory, hfound⟩
    · exact .inl (by simpa using hfound.symm)
    · rw [List.getElem?_eq_none (by simp; omega)] at hfound
      cases hfound
  · exact .inr ⟨others, by simpa [hcase] using hothers, hfound⟩

end Stored

end SmartTest.Lib
