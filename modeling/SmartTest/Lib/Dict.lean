import Mathlib.Data.List.Nodup
import Mathlib.Tactic.Common

/-!
# Dictionaries in insertion order

A key is stored once, a new key goes to the end, and writing an old key keeps its
place. This is how a Python `dict` behaves.
-/

namespace SmartTest.Lib

variable {κ υ : Type}

/-- Writes `k` where it stands, or at the end. -/
def upsert [DecidableEq κ] (k : κ) (v : υ) : List (κ × υ) → List (κ × υ)
  | [] => [(k, v)]
  | (k', v') :: rest => if k' = k then (k, v) :: rest else (k', v') :: upsert k v rest

theorem keys_upsert [DecidableEq κ] (k : κ) (v : υ) (l : List (κ × υ)) :
    (upsert k v l).map Prod.fst = if k ∈ l.map Prod.fst then l.map Prod.fst else l.map Prod.fst ++ [k] := by
  induction l with
  | nil => simp [upsert]
  | cons p rest ih =>
    obtain ⟨k', v'⟩ := p
    by_cases h : k' = k
    · simp [upsert, h]
    · simp only [upsert, if_neg h, List.map_cons, ih, List.mem_cons, Ne.symm h, false_or]
      split <;> simp

structure Dict (κ υ : Type) where
  entries : List (κ × υ)
  nodup : (entries.map Prod.fst).Nodup

deriving instance DecidableEq for Dict

namespace Dict

def empty : Dict κ υ := ⟨[], List.nodup_nil⟩

def keys (d : Dict κ υ) : List κ := d.entries.map Prod.fst

def values (d : Dict κ υ) : List υ := d.entries.map Prod.snd

variable [DecidableEq κ]

def get? (d : Dict κ υ) (k : κ) : Option υ := d.entries.lookup k

def set (d : Dict κ υ) (k : κ) (v : υ) : Dict κ υ where
  entries := upsert k v d.entries
  nodup := by
    rw [keys_upsert]
    split
    · exact d.nodup
    · rename_i h
      exact List.Nodup.append d.nodup (List.nodup_singleton k) (by simpa using h)

/-- The writes of `other`, in its order. -/
def update (d other : Dict κ υ) : Dict κ υ := other.entries.foldl (fun acc e => acc.set e.1 e.2) d

def erase (d : Dict κ υ) (k : κ) : Dict κ υ where
  entries := d.entries.filter (·.1 ≠ k)
  nodup := d.nodup.sublist (List.filter_sublist.map _)

/-- Every value in its place. -/
def mapValues {ω : Type} (d : Dict κ υ) (f : υ → ω) : Dict κ ω where
  entries := d.entries.map fun e => (e.1, f e.2)
  nodup := by
    rw [List.map_map]
    exact d.nodup

/-! ## Reading back -/

omit [DecidableEq κ] in
@[simp] theorem values_empty : (empty : Dict κ υ).values = [] := rfl

omit [DecidableEq κ] in
@[simp] theorem keys_empty : (empty : Dict κ υ).keys = [] := rfl

@[simp] theorem get?_empty (k : κ) : (empty : Dict κ υ).get? k = none := rfl

theorem lookup_cons_ite (k a : κ) (b : υ) (l : List (κ × υ)) :
    ((a, b) :: l).lookup k = if k = a then some b else l.lookup k := by
  by_cases h : k = a
  · simp [h]
  · have hb : (k == a) = false := by simpa using h
    simp [List.lookup_cons, hb, h]

theorem lookup_upsert (k k' : κ) (v : υ) (l : List (κ × υ)) :
    (upsert k v l).lookup k' = if k' = k then some v else l.lookup k' := by
  induction l with
  | nil => simp [upsert, lookup_cons_ite]
  | cons p rest ih =>
    obtain ⟨a, b⟩ := p
    by_cases ha : a = k
    · simp only [upsert, ha, if_true, lookup_cons_ite]
      split <;> simp_all
    · simp only [upsert, if_neg ha, lookup_cons_ite, ih]
      split <;> simp_all

@[simp, grind =] theorem get?_set (d : Dict κ υ) (k k' : κ) (v : υ) :
    (d.set k v).get? k' = if k' = k then some v else d.get? k' := lookup_upsert k k' v d.entries

theorem upsert_upsert (k : κ) (v w : υ) (l : List (κ × υ)) : upsert k w (upsert k v l) = upsert k w l := by
  induction l with
  | nil => simp [upsert]
  | cons p rest ih =>
    by_cases h : p.1 = k
    · simp [upsert, h]
    · simp [upsert, h, ih]

/-- Of two writes of one key the second counts. -/
theorem set_set (d : Dict κ υ) (k : κ) (v w : υ) : (d.set k v).set k w = d.set k w := by
  simp only [set, upsert_upsert]

theorem get?_set_self (d : Dict κ υ) (k : κ) (v : υ) : (d.set k v).get? k = some v := by simp

theorem get?_set_ne (d : Dict κ υ) {k k' : κ} (v : υ) (h : k' ≠ k) :
    (d.set k v).get? k' = d.get? k' := by simp [h]

@[simp] theorem get?_erase (d : Dict κ υ) (k k' : κ) :
    (d.erase k).get? k' = if k' = k then none else d.get? k' := by
  simp only [get?, erase]
  generalize d.entries = l
  induction l with
  | nil => simp
  | cons p rest ih =>
    obtain ⟨a, b⟩ := p
    by_cases ha : a = k
    · subst ha
      rw [List.filter_cons_of_neg (by simp), ih, lookup_cons_ite]
      split <;> rfl
    · rw [List.filter_cons_of_pos (by simpa using ha), lookup_cons_ite, lookup_cons_ite, ih]
      by_cases hk : k' = a
      · simp [hk, ha]
      · simp [hk]

theorem get?_mapValues {ω : Type} (d : Dict κ υ) (f : υ → ω) (k : κ) :
    (d.mapValues f).get? k = (d.get? k).map f := by
  simp only [get?, mapValues]
  generalize d.entries = l
  induction l with
  | nil => rfl
  | cons p rest ih =>
    obtain ⟨a, b⟩ := p
    rw [List.map_cons, lookup_cons_ite, lookup_cons_ite, ih]
    split <;> rfl

theorem get?_foldl_erase (d : Dict κ υ) (l : List κ) (k : κ) :
    (l.foldl erase d).get? k = if k ∈ l then none else d.get? k := by
  induction l generalizing d with
  | nil => simp
  | cons a rest ih =>
    rw [List.foldl_cons, ih, get?_erase]
    by_cases hmem : k ∈ rest
    · simp [hmem]
    · by_cases hk : k = a
      · simp [hk]
      · simp [hmem, hk]

/-- Writing many entries: the last write of a key counts, and the others stay. -/
theorem get?_foldl_set (d : Dict κ υ) (l : List (κ × υ)) (hl : (l.map Prod.fst).Nodup) (k : κ) :
    (l.foldl (fun acc e => acc.set e.1 e.2) d).get? k = (l.lookup k).or (d.get? k) := by
  induction l generalizing d with
  | nil => rfl
  | cons e rest ih =>
    obtain ⟨a, b⟩ := e
    simp only [List.map_cons, List.nodup_cons] at hl
    rw [List.foldl_cons, ih (d.set a b) hl.2, lookup_cons_ite, get?_set]
    by_cases h : k = a
    · subst h
      have hnone : rest.lookup k = none := by
        rw [List.lookup_eq_none_iff]
        intro e he
        have hne : k ≠ e.1 := by
          rintro rfl
          exact hl.1 (List.mem_map_of_mem he)
        simpa using hne
      simp [hnone]
    · simp [h]

@[simp] theorem get?_update (d other : Dict κ υ) (k : κ) :
    (d.update other).get? k = (other.get? k).or (d.get? k) := get?_foldl_set d other.entries other.nodup k

theorem lookup_eq_some_iff {l : List (κ × υ)} (hl : (l.map Prod.fst).Nodup) (k : κ) (v : υ) :
    l.lookup k = some v ↔ (k, v) ∈ l := by
  induction l with
  | nil => simp
  | cons p rest ih =>
    obtain ⟨a, b⟩ := p
    simp only [List.map_cons, List.nodup_cons] at hl
    rw [lookup_cons_ite, List.mem_cons, Prod.mk.injEq]
    by_cases h : k = a
    · subst h
      have hnot : (k, v) ∉ rest := fun hm => hl.1 (List.mem_map_of_mem (f := Prod.fst) hm)
      simp [hnot, eq_comm]
    · simp [h, ih hl.2]

theorem get?_eq_some_iff (d : Dict κ υ) (k : κ) (v : υ) :
    d.get? k = some v ↔ (k, v) ∈ d.entries := lookup_eq_some_iff d.nodup k v

theorem mem_values_iff (d : Dict κ υ) (v : υ) : v ∈ d.values ↔ ∃ k, d.get? k = some v := by
  simp only [values, List.mem_map, get?_eq_some_iff]
  constructor
  · rintro ⟨⟨k, w⟩, h, rfl⟩; exact ⟨k, h⟩
  · rintro ⟨k, h⟩; exact ⟨(k, v), h, rfl⟩

theorem mem_keys_iff (d : Dict κ υ) (k : κ) : k ∈ d.keys ↔ (d.get? k).isSome := by
  simp only [keys, List.mem_map, Option.isSome_iff_exists, get?_eq_some_iff]
  constructor
  · rintro ⟨⟨a, w⟩, h, rfl⟩; exact ⟨w, h⟩
  · rintro ⟨w, h⟩; exact ⟨(k, w), h, rfl⟩

theorem get?_eq_none_iff (d : Dict κ υ) (k : κ) : d.get? k = none ↔ k ∉ d.keys := by
  rw [mem_keys_iff, Option.not_isSome_iff_eq_none]

/-! ## Where a write lands -/

theorem upsert_of_not_mem (k : κ) (v : υ) (l : List (κ × υ)) (h : k ∉ l.map Prod.fst) :
    upsert k v l = l ++ [(k, v)] := by
  induction l with
  | nil => rfl
  | cons p rest ih =>
    obtain ⟨a, b⟩ := p
    simp only [List.map_cons, List.mem_cons, not_or] at h
    simp [upsert, Ne.symm h.1, ih h.2]

theorem entries_set_new (d : Dict κ υ) (k : κ) (v : υ) (h : d.get? k = none) :
    (d.set k v).entries = d.entries ++ [(k, v)] :=
  upsert_of_not_mem k v d.entries ((get?_eq_none_iff d k).mp h)

theorem values_set_new (d : Dict κ υ) (k : κ) (v : υ) (h : d.get? k = none) :
    (d.set k v).values = d.values ++ [v] := by
  simp [values, entries_set_new d k v h]

theorem keys_set_new (d : Dict κ υ) (k : κ) (v : υ) (h : d.get? k = none) :
    (d.set k v).keys = d.keys ++ [k] := by
  simp [keys, entries_set_new d k v h]

theorem upsert_of_mem (k : κ) (v w : υ) (l : List (κ × υ)) (hl : (l.map Prod.fst).Nodup)
    (h : (k, w) ∈ l) : upsert k v l = l.map fun e => if e.1 = k then (k, v) else e := by
  induction l with
  | nil => simp at h
  | cons p rest ih =>
    obtain ⟨a, b⟩ := p
    simp only [List.map_cons, List.nodup_cons] at hl
    by_cases ha : a = k
    · subst ha
      have hrest : rest.map (fun e => if e.1 = a then (a, v) else e) = rest := by
        conv_rhs => rw [← List.map_id rest]
        apply List.map_congr_left
        intro e he
        have : e.1 ≠ a := fun hea => hl.1 (hea ▸ List.mem_map_of_mem (f := Prod.fst) he)
        simp [this]
      simp [upsert, hrest]
    · have hmem : (k, w) ∈ rest := by simpa [Ne.symm ha] using h
      simp [upsert, ha, ih hl.2 hmem]

theorem entries_set_old (d : Dict κ υ) (k : κ) (v w : υ) (h : d.get? k = some w) :
    (d.set k v).entries = d.entries.map fun e => if e.1 = k then (k, v) else e :=
  upsert_of_mem k v w d.entries d.nodup ((get?_eq_some_iff d k w).mp h)

theorem keys_set_old (d : Dict κ υ) (k : κ) (v w : υ) (h : d.get? k = some w) :
    (d.set k v).keys = d.keys := by
  rw [keys, set, keys_upsert, if_pos]
  · rfl
  · exact (mem_keys_iff d k).mpr (by simp [h])

/-- Writing new keys one after the other appends them. -/
theorem entries_foldl_set {α : Type} (key : α → κ) (value : α → υ) (l : List α) (d : Dict κ υ)
    (hnodup : (l.map key).Nodup) (hnew : ∀ x ∈ l, d.get? (key x) = none) :
    (l.foldl (fun d x => d.set (key x) (value x)) d).entries = d.entries ++ l.map fun x => (key x, value x) := by
  induction l generalizing d with
  | nil => simp
  | cons x rest ih =>
    simp only [List.map_cons, List.nodup_cons] at hnodup
    obtain ⟨hx, hrest⟩ := List.forall_mem_cons.mp hnew
    rw [List.foldl_cons, ih (d.set (key x) (value x)) hnodup.2 ?_, entries_set_new d _ _ hx]
    · simp
    · intro y hy
      have hne : key y ≠ key x := fun h => hnodup.1 (h ▸ List.mem_map_of_mem hy)
      rw [get?_set_ne _ _ hne]
      exact hrest y hy

theorem values_eq_filterMap (d : Dict κ υ) : d.values = d.keys.filterMap d.get? := by
  rw [keys, List.filterMap_map, values, ← List.filterMap_eq_map]
  apply List.filterMap_congr
  intro e he
  exact ((get?_eq_some_iff d e.1 e.2).mpr he).symm

/-- Values replaced in place keep their order. -/
theorem values_of_kept {d d' : Dict κ υ} {f : υ → υ} (hkeys : d'.keys = d.keys)
    (h : ∀ k v, d.get? k = some v → d'.get? k = some (f v)) : d'.values = d.values.map f := by
  rw [values_eq_filterMap d', values_eq_filterMap d, hkeys, List.map_filterMap]
  apply List.filterMap_congr
  intro k hk
  obtain ⟨v, hv⟩ := Option.isSome_iff_exists.mp ((mem_keys_iff d k).mp hk)
  rw [h k v hv, hv]
  rfl

/-! ## Values mapped in place -/

omit [DecidableEq κ] in
@[simp] theorem keys_mapValues {ω : Type} (d : Dict κ υ) (f : υ → ω) : (d.mapValues f).keys = d.keys := by
  simp [keys, mapValues]

omit [DecidableEq κ] in
@[simp] theorem values_mapValues {ω : Type} (d : Dict κ υ) (f : υ → ω) : (d.mapValues f).values = d.values.map f := by
  simp [values, mapValues]

theorem map_upsert {ω : Type} (f : υ → ω) (k : κ) (v : υ) (l : List (κ × υ)) :
    (upsert k v l).map (fun e => (e.1, f e.2)) = upsert k (f v) (l.map fun e => (e.1, f e.2)) := by
  induction l with
  | nil => rfl
  | cons e rest ih =>
    by_cases h : e.1 = k
    · simp [upsert, h]
    · simp [upsert, h, ih]

theorem mapValues_set {ω : Type} (d : Dict κ υ) (f : υ → ω) (k : κ) (v : υ) :
    (d.set k v).mapValues f = (d.mapValues f).set k (f v) := by
  simp only [mapValues, set, map_upsert]

end Dict

end SmartTest.Lib
