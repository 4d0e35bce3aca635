import Mathlib.Data.List.Perm.Subperm
import Mathlib.Data.Set.Finite.List
import Mathlib.Logic.Relation
import Mathlib.Order.WellFoundedSet
import Mathlib.Tactic.Common

/-!
# Topological orders

An order of a finite graph in which every edge goes forwards, and the rank function
that such an order gives. Proofs about acyclic graphs go by induction on the rank.
-/

namespace SmartTest.Lib

variable {α : Type}

/-- Every edge into an element of `order` starts before it. -/
def TopoOrder (edge : α → α → Prop) (order : List α) : Prop :=
  ∀ l₁ a l₂, order = l₁ ++ a :: l₂ → ∀ b, edge b a → b ∈ l₁

theorem topoOrder_nil (edge : α → α → Prop) : TopoOrder edge [] := by
  intro l₁ a l₂ h
  simp at h

theorem TopoOrder.snoc {edge : α → α → Prop} {order : List α} (h : TopoOrder edge order) (c : α)
    (hc : ∀ b, edge b c → b ∈ order) : TopoOrder edge (order ++ [c]) := by
  intro l₁ a l₂ heq b hb
  rcases List.eq_nil_or_concat l₂ with rfl | ⟨l₂', z, rfl⟩
  · obtain ⟨rfl, hlast⟩ := List.append_inj' heq rfl
    obtain rfl : c = a := by simpa using hlast
    exact hc b hb
  · have heq' : order ++ [c] = (l₁ ++ a :: l₂') ++ [z] := by simpa using heq
    exact h l₁ a l₂' (List.append_inj' heq' rfl).1 b hb

theorem TopoOrder.idxOf_lt [DecidableEq α] {edge : α → α → Prop} {order : List α}
    (h : TopoOrder edge order) {a b : α} (ha : a ∈ order) (hb : edge b a) :
    order.idxOf b < order.idxOf a := by
  obtain ⟨l₁, l₂, heq, hnot⟩ := List.eq_append_cons_of_mem ha
  have hmem : b ∈ l₁ := h l₁ a l₂ heq b hb
  rw [heq, List.idxOf_append_of_mem hmem, List.idxOf_append_of_notMem hnot, List.idxOf_cons_self]
  exact List.idxOf_lt_length_of_mem hmem

/-- A list without repetition inside `l` that is as long as `l` leaves nothing of `l` out. -/
theorem mem_of_nodup_subset_length {l m : List α} (hm : m.Nodup) (hsub : m ⊆ l)
    (hlen : l.length ≤ m.length) : ∀ a ∈ l, a ∈ m := by
  intro a ha
  exact ((List.subperm_of_subset hm hsub).perm_of_length_le hlen).mem_iff.mpr ha

/-! ## Cycles -/

def Acyclic (edge : α → α → Prop) : Prop := ∀ a, ¬ Relation.TransGen edge a a

theorem acyclic_of_rank {edge : α → α → Prop} (rank : α → Nat) (h : ∀ a b, edge a b → rank a < rank b) :
    Acyclic edge := by
  have hpath : ∀ a b, Relation.TransGen edge a b → rank a < rank b := by
    intro a b hab
    induction hab with
    | single hedge => exact h _ _ hedge
    | tail _ hedge ih => exact Nat.lt_trans ih (h _ _ hedge)
  exact fun a ha => Nat.lt_irrefl _ (hpath a a ha)

/-- Some element of a finite part of an acyclic graph has no edge from within that part. -/
theorem Acyclic.exists_source {edge : α → α → Prop} (hacyclic : Acyclic edge) {l : List α} (hl : l ≠ []) :
    ∃ b ∈ l, ∀ c ∈ l, ¬ edge c b := by
  have hfinite : Finite {x // x ∈ l} := l.finite_toSet
  let path : {x // x ∈ l} → {x // x ∈ l} → Prop := fun a b => Relation.TransGen edge a b
  have htrans : IsTrans {x // x ∈ l} path := ⟨fun _ _ _ => Relation.TransGen.trans⟩
  have hirrefl : Std.Irrefl path := ⟨fun a => hacyclic a⟩
  obtain ⟨a, ha⟩ := List.exists_mem_of_ne_nil l hl
  obtain ⟨b, -, hmin⟩ := (Finite.wellFounded_of_trans_of_irrefl path).has_min Set.univ ⟨⟨a, ha⟩, trivial⟩
  exact ⟨b, b.2, fun c hc hedge => hmin ⟨c, hc⟩ trivial (.single hedge)⟩

end SmartTest.Lib
