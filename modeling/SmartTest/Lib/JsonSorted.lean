import Mathlib.Data.List.Sort
import Mathlib.Data.String.Basic
import SmartTest.Lib.Json

/-!
# JSON values with their fields in order

A value with the fields of every object sorted by name. Two values have the same sorted
form exactly when they are equal up to the order of fields.
-/

namespace SmartTest.Lib

mutual

/-- The fields of every object sorted by name, at every depth. -/
def Json.sorted : Json → Json
  | .arr items => .arr (sortedItems items)
  | .obj fields => .obj ((sortedFields fields).insertionSort fun a b => a.1 ≤ b.1)
  | value => value

def Json.sortedItems : List Json → List Json
  | [] => []
  | value :: rest => value.sorted :: sortedItems rest

def Json.sortedFields : List (String × Json) → List (String × Json)
  | [] => []
  | (key, value) :: rest => (key, value.sorted) :: sortedFields rest

end

mutual

/-- Equality up to the order of fields. A boolean, an integer and a float are never the same. -/
def Json.same : Json → Json → Bool
  | .null, .null => true
  | .bool a, .bool b => a = b
  | .int a, .int b => a = b
  | .float a, .float b => a = b
  | .str a, .str b => a = b
  | .arr a, .arr b => sameItems a b
  | .obj a, .obj b => a.length = b.length && sameFields a b
  | _, _ => false

def Json.sameItems : List Json → List Json → Bool
  | [], [] => true
  | a :: as, b :: bs => a.same b && sameItems as bs
  | _, _ => false

def Json.sameFields : List (String × Json) → List (String × Json) → Bool
  | [], _ => true
  | (key, a) :: rest, other =>
    (match other.lookup key with
      | some b => a.same b
      | none => false) && sameFields rest other

end

variable {isFloat : Rat → Prop}

theorem Json.wellFormedFields_iff {fields : List (String × Json)} :
    WellFormedFields isFloat fields ↔ ∀ field ∈ fields, field.2.WellFormed isFloat := by
  induction fields with
  | nil => simp [WellFormedFields]
  | cons field rest ih => simp [WellFormedFields, ih]

/-! ## Sorting fields -/

theorem Json.sortedFields_eq (fields : List (String × Json)) :
    sortedFields fields = fields.map fun field => (field.1, field.2.sorted) := by
  induction fields with
  | nil => rfl
  | cons field rest ih => rw [sortedFields, List.map_cons, ih]

theorem Json.keys_sortedFields (fields : List (String × Json)) :
    (sortedFields fields).map Prod.fst = fields.map Prod.fst := by
  rw [sortedFields_eq, List.map_map]
  rfl

/-- Fields without a repeated name have one sorted order. -/
theorem Json.insertionSort_eq_iff {fields other : List (String × Json)} (h : (fields.map Prod.fst).Nodup) :
    fields.insertionSort (fun a b => a.1 ≤ b.1) = other.insertionSort (fun a b => a.1 ≤ b.1) ↔
      fields.Perm other := by
  have hsorted (l : List (String × Json)) : l.insertionSort (fun a b => a.1 ≤ b.1) |>.Perm l :=
    List.perm_insertionSort _ l
  constructor
  · intro heq
    exact (hsorted fields).symm.trans (heq ▸ hsorted other)
  · intro hperm
    have htotal : Std.Total fun a b : String × Json => a.1 ≤ b.1 := ⟨fun a b => le_total a.1 b.1⟩
    have htrans : IsTrans (String × Json) fun a b => a.1 ≤ b.1 := ⟨fun _ _ _ => le_trans⟩
    apply List.Perm.eq_of_pairwise ?_ (List.pairwise_insertionSort _ fields) (List.pairwise_insertionSort _ other)
    · exact (hsorted fields).trans (hperm.trans (hsorted other).symm)
    · -- two fields of one name are one field
      intro a b ha hb hab hba
      have ha' : a ∈ fields := (hsorted fields).subset ha
      have hb' : b ∈ fields := hperm.symm.subset ((hsorted other).subset hb)
      exact List.inj_on_of_nodup_map h ha' hb' (le_antisymm hab hba)

/-! ## Equal up to the order of fields -/

/-- Every field of `fields` is in `other`, up to the order of the fields in its value. -/
theorem Json.sortedFields_subset_iff {fields other : List (String × Json)} (h : (other.map Prod.fst).Nodup) :
    sortedFields fields ⊆ sortedFields other ↔
      ∀ field ∈ fields, ∃ value, other.lookup field.1 = some value ∧ field.2.sorted = value.sorted := by
  rw [sortedFields_eq, sortedFields_eq, List.subset_def]
  refine List.forall_mem_map.trans (forall_congr' fun field => forall_congr' fun hfield => ?_)
  simp only [List.mem_map, Prod.mk.injEq, Dict.lookup_eq_some_iff h]
  constructor
  · rintro ⟨found, hfound, hkey, hvalue⟩
    exact ⟨found.2, hkey ▸ hfound, hvalue.symm⟩
  · rintro ⟨value, hfound, hvalue⟩
    exact ⟨_, hfound, rfl, hvalue.symm⟩

theorem Json.obj_sorted_iff {fields other : List (String × Json)} (hfields : (fields.map Prod.fst).Nodup)
    (hother : (other.map Prod.fst).Nodup) :
    (Json.obj fields).sorted = (Json.obj other).sorted ↔ fields.length = other.length ∧
      ∀ field ∈ fields, ∃ value, other.lookup field.1 = some value ∧ field.2.sorted = value.sorted := by
  have hkeys : ((sortedFields fields).map Prod.fst).Nodup := by rwa [keys_sortedFields]
  have hlength (l : List (String × Json)) : (sortedFields l).length = l.length := by
    rw [sortedFields_eq, List.length_map]
  rw [sorted, sorted, Json.obj.injEq, insertionSort_eq_iff hkeys, ← sortedFields_subset_iff hother]
  constructor
  · intro hperm
    refine ⟨?_, hperm.subset⟩
    rw [← hlength fields, hperm.length_eq, hlength]
  · rintro ⟨hlen, hsub⟩
    apply (List.subperm_of_subset (List.Nodup.of_map _ hkeys) hsub).perm_of_length_le
    rw [hlength, hlength, hlen]

mutual

/-- Two values are equal up to the order of fields when they are equal once sorted. -/
theorem Json.same_iff : ∀ a b : Json, a.WellFormed isFloat → b.WellFormed isFloat →
    (a.same b = true ↔ a.sorted = b.sorted)
  | .null, b, _, _ => by cases b <;> simp [Json.same, Json.sorted]
  | .bool _, b, _, _ => by cases b <;> simp [Json.same, Json.sorted]
  | .int _, b, _, _ => by cases b <;> simp [Json.same, Json.sorted]
  | .float _, b, _, _ => by cases b <;> simp [Json.same, Json.sorted]
  | .str _, b, _, _ => by cases b <;> simp [Json.same, Json.sorted]
  | .arr items, b, ha, hb => by
    cases b with
    | arr other => simpa [Json.same, Json.sorted] using Json.sameItems_iff items other ha hb
    | _ => simp [Json.same, Json.sorted]
  | .obj fields, b, ha, hb => by
    cases b with
    | obj other =>
      rw [Json.obj_sorted_iff ha.1 hb.1, Json.same, Bool.and_eq_true, decide_eq_true_iff,
        Json.sameFields_iff fields other ha.2 hb.1 hb.2]
    | _ => simp [Json.same, Json.sorted]

theorem Json.sameItems_iff : ∀ as bs : List Json, WellFormedItems isFloat as → WellFormedItems isFloat bs →
    (sameItems as bs = true ↔ sortedItems as = sortedItems bs)
  | [], bs, _, _ => by cases bs <;> simp [Json.sameItems, Json.sortedItems]
  | a :: as, bs, ha, hb => by
    cases bs with
    | nil => simp [Json.sameItems, Json.sortedItems]
    | cons b bs =>
      rw [Json.sameItems, Json.sortedItems, Json.sortedItems, Bool.and_eq_true, List.cons.injEq,
        Json.same_iff a b ha.1 hb.1, Json.sameItems_iff as bs ha.2 hb.2]

theorem Json.sameFields_iff : ∀ fields other : List (String × Json), WellFormedFields isFloat fields →
    (other.map Prod.fst).Nodup → WellFormedFields isFloat other →
    (sameFields fields other = true ↔
      ∀ field ∈ fields, ∃ value, other.lookup field.1 = some value ∧ field.2.sorted = value.sorted)
  | [], _, _, _, _ => by simp [Json.sameFields]
  | (key, a) :: rest, other, ha, hkeys, hb => by
    have hrest := Json.sameFields_iff rest other ha.2 hkeys hb
    rw [Json.sameFields, Bool.and_eq_true, hrest, List.forall_mem_cons]
    refine and_congr_left fun _ => ?_
    cases hfound : other.lookup key with
    | none => simp
    | some b =>
      have hwf := Json.wellFormedFields_iff.mp hb _ ((Dict.lookup_eq_some_iff hkeys key b).mp hfound)
      simpa using Json.same_iff a b ha.1 hwf

end

/-! ## A sorted value is well formed -/

mutual

theorem Json.WellFormed.sorted : ∀ value : Json, value.WellFormed isFloat → value.sorted.WellFormed isFloat
  | .null, _ => trivial
  | .bool _, _ => trivial
  | .int _, _ => trivial
  | .float _, h => h
  | .str _, _ => trivial
  | .arr items, h => Json.WellFormedItems.sorted items h
  | .obj fields, h => by
    have hperm := List.perm_insertionSort (fun a b : String × Json => a.1 ≤ b.1) (sortedFields fields)
    refine ⟨?_, Json.wellFormedFields_iff.mpr fun field hfield => ?_⟩
    · rw [(hperm.map Prod.fst).nodup_iff, Json.keys_sortedFields]
      exact h.1
    · exact Json.wellFormedFields_iff.mp (Json.WellFormedFields.sorted fields h.2) field (hperm.subset hfield)

theorem Json.WellFormedItems.sorted : ∀ items : List Json, WellFormedItems isFloat items →
    WellFormedItems isFloat (sortedItems items)
  | [], _ => trivial
  | value :: rest, h => ⟨Json.WellFormed.sorted value h.1, Json.WellFormedItems.sorted rest h.2⟩

theorem Json.WellFormedFields.sorted : ∀ fields : List (String × Json), WellFormedFields isFloat fields →
    WellFormedFields isFloat (sortedFields fields)
  | [], _ => trivial
  | (_, value) :: rest, h => ⟨Json.WellFormed.sorted value h.1, Json.WellFormedFields.sorted rest h.2⟩

end

end SmartTest.Lib
