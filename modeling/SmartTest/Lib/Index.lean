import SmartTest.Lib.Dict

/-!
# A table with an index

A table of records under their ids, and an index from a key of the record to its id.
-/

namespace SmartTest.Lib

variable {ι κ α : Type} [DecidableEq ι] [DecidableEq κ]

/-- The index has the key of every record, with its id, and nothing else. -/
def Indexed (keyOf : α → κ) (records : Dict ι α) (index : Dict κ ι) : Prop :=
  ∀ key id, index.get? key = some id ↔ ∃ record, records.get? id = some record ∧ keyOf record = key

namespace Indexed

variable {keyOf : α → κ} {records : Dict ι α} {index : Dict κ ι} {id : ι} {record current : α}

theorem empty (keyOf : α → κ) : Indexed keyOf (.empty : Dict ι α) .empty := by
  intro key id
  simp

theorem get (h : Indexed keyOf records index) (hrecord : records.get? id = some record) :
    index.get? (keyOf record) = some id :=
  (h _ _).mpr ⟨record, hrecord, rfl⟩

/-- No two records have one key. -/
theorem unique (h : Indexed keyOf records index) {other : ι} {found : α} (hrecord : records.get? id = some record)
    (hfound : records.get? other = some found) (hkey : keyOf record = keyOf found) : id = other := by
  have hid := h.get hrecord
  have hother := h.get hfound
  rw [hkey, hother] at hid
  exact (Option.some.inj hid).symm

theorem insert (h : Indexed keyOf records index) (hfresh : records.get? id = none)
    (hfree : index.get? (keyOf record) = none) :
    Indexed keyOf (records.set id record) (index.set (keyOf record) id) := by
  intro key other
  rw [Dict.get?_set, Dict.get?_set]
  by_cases hkey : key = keyOf record
  · subst hkey
    rw [if_pos rfl]
    constructor
    · intro hid
      obtain rfl := Option.some.inj hid
      exact ⟨record, if_pos rfl, rfl⟩
    · rintro ⟨found, hfound, hsame⟩
      split at hfound
      · next heq => rw [heq]
      · rw [← hsame, h.get hfound] at hfree
        cases hfree
  · rw [if_neg hkey, h key other]
    constructor
    · rintro ⟨found, hfound, hsame⟩
      refine ⟨found, ?_, hsame⟩
      rw [if_neg]
      · exact hfound
      · rintro rfl
        cases hfresh.symm.trans hfound
    · rintro ⟨found, hfound, rfl⟩
      split at hfound
      · obtain rfl := Option.some.inj hfound
        exact absurd rfl hkey
      · exact ⟨found, hfound, rfl⟩

theorem remove (h : Indexed keyOf records index) (hcurrent : records.get? id = some current) :
    Indexed keyOf (records.erase id) (index.erase (keyOf current)) := by
  intro key other
  rw [Dict.get?_erase, Dict.get?_erase]
  by_cases hkey : key = keyOf current
  · subst hkey
    rw [if_pos rfl]
    refine ⟨by rintro ⟨⟩, ?_⟩
    rintro ⟨found, hfound, hsame⟩
    split at hfound
    · cases hfound
    · next hne => exact absurd (h.unique hfound hcurrent hsame) hne
  · rw [if_neg hkey, h key other]
    constructor
    · rintro ⟨found, hfound, rfl⟩
      refine ⟨found, ?_, rfl⟩
      rw [if_neg]
      · exact hfound
      · rintro rfl
        obtain rfl := Option.some.inj (hcurrent.symm.trans hfound)
        exact hkey rfl
    · rintro ⟨found, hfound, rfl⟩
      split at hfound
      · cases hfound
      · exact ⟨found, hfound, rfl⟩

/-- A record is changed, and its key with it: the new key is free, or its own. -/
theorem replace (h : Indexed keyOf records index) (hcurrent : records.get? id = some current)
    (howner : ∀ other, index.get? (keyOf record) = some other → other = id) :
    Indexed keyOf (records.set id record) ((index.erase (keyOf current)).set (keyOf record) id) := by
  have hset : ∀ other, (records.set id record).get? other = ((records.erase id).set id record).get? other := by
    intro other
    simp only [Dict.get?_set, Dict.get?_erase]
    split <;> simp_all
  have hinsert : Indexed keyOf ((records.erase id).set id record) ((index.erase (keyOf current)).set (keyOf record) id) := by
    apply (h.remove hcurrent).insert
    · simp
    · rw [Dict.get?_erase]
      split
      · rfl
      · next hne =>
        cases hget : index.get? (keyOf record) with
        | none => rfl
        | some other =>
          obtain rfl := howner other hget
          obtain ⟨found, hfound, hsame⟩ := (h _ _).mp hget
          obtain rfl := Option.some.inj (hcurrent.symm.trans hfound)
          exact absurd hsame.symm hne
  intro key other
  rw [hinsert key other, hset]

/-- A record is changed, and its key is not. -/
theorem keep (h : Indexed keyOf records index) (hcurrent : records.get? id = some current)
    (hkey : keyOf record = keyOf current) : Indexed keyOf (records.set id record) index := by
  intro key other
  rw [h key other, Dict.get?_set]
  constructor
  · rintro ⟨found, hfound, rfl⟩
    by_cases heq : other = id
    · subst heq
      obtain rfl := Option.some.inj (hcurrent.symm.trans hfound)
      exact ⟨record, if_pos rfl, hkey⟩
    · exact ⟨found, by rw [if_neg heq]; exact hfound, rfl⟩
  · rintro ⟨found, hfound, rfl⟩
    split at hfound
    · next heq =>
      obtain rfl := Option.some.inj hfound
      exact ⟨current, by rw [heq]; exact hcurrent, hkey.symm⟩
    · exact ⟨found, hfound, rfl⟩

end Indexed

end SmartTest.Lib
