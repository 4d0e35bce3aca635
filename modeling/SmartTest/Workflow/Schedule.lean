import SmartTest.Workflow.Acyclic
import SmartTest.Workflow.Executor

/-!
# When the wave scheduler reaches every node

The outcome of each node is fixed in advance by `o`. The graph then decides which nodes
run and in which wave each node is settled, and the scheduler follows it wave by wave.
It stops with an error exactly when nodes are left to skip after the last wave.
-/

open SmartTest.Lib

namespace SmartTest.Workflow

variable {ν : Type}

/-! ## Which nodes run, and when -/

/-- `edge` is active once its source has run with outcome `o`. -/
def fires (edge : WorkflowEdge) (o : NodeOutcome ν) : Bool := edgeActive edge o.execution

/-- Whether a node runs, followed back through at most `fuel` edges. -/
def runsWithin (w : WorkflowDefinition) (o : String → NodeOutcome ν) : (fuel : Nat) → String → Bool
  | 0, _ => false
  | fuel + 1, n => incoming w n = [] ||
      (incoming w n).any fun e => fires e (o e.source) && runsWithin w o fuel e.source

/-- The largest number of running nodes on a path into a node, the node itself not counted. -/
def depthWithin (w : WorkflowDefinition) (o : String → NodeOutcome ν) : (fuel : Nat) → String → Nat
  | 0, _ => 0
  | fuel + 1, n => (incoming w n).foldr (fun e m =>
      max (depthWithin w o fuel e.source + if runsWithin w o fuel e.source then 1 else 0) m) 0

def runs (w : WorkflowDefinition) (o : String → NodeOutcome ν) (n : String) : Bool :=
  runsWithin w o w.nodes.length n

def depth (w : WorkflowDefinition) (o : String → NodeOutcome ν) (n : String) : Nat :=
  depthWithin w o w.nodes.length n

/-- Every skipped node is settled no later than some node that runs. -/
def NoTrailingSkip (w : WorkflowDefinition) (o : String → NodeOutcome ν) : Prop :=
  ∀ n ∈ w.nodes.map (·.id), runs w o n = false →
    ∃ m ∈ w.nodes.map (·.id), runs w o m = true ∧ depth w o n ≤ depth w o m

instance (w : WorkflowDefinition) (o : String → NodeOutcome ν) : Decidable (NoTrailingSkip w o) :=
  inferInstanceAs (Decidable (∀ n ∈ w.nodes.map (·.id), runs w o n = false →
    ∃ m ∈ w.nodes.map (·.id), runs w o m = true ∧ depth w o n ≤ depth w o m))

theorem foldr_max_le_iff {α : Type} (f : α → Nat) (l : List α) (k : Nat) :
    l.foldr (fun e m => max (f e) m) 0 ≤ k ↔ ∀ e ∈ l, f e ≤ k := by
  induction l with
  | nil => simp
  | cons x xs ih => simp only [List.foldr_cons, List.forall_mem_cons, Nat.max_le, ih]

theorem exists_eq_foldr_max {α : Type} (f : α → Nat) (l : List α) (h : 0 < l.foldr (fun e m => max (f e) m) 0) :
    ∃ e ∈ l, f e = l.foldr (fun e m => max (f e) m) 0 := by
  induction l with
  | nil => simp at h
  | cons x xs ih =>
    simp only [List.foldr_cons] at h ⊢
    rcases Nat.le_total (xs.foldr (fun e m => max (f e) m) 0) (f x) with hle | hle
    · exact ⟨x, by simp, by rw [Nat.max_eq_left hle]⟩
    · rw [Nat.max_eq_right hle] at h ⊢
      obtain ⟨e, he, heq⟩ := ih h
      exact ⟨e, List.mem_cons_of_mem _ he, heq⟩

theorem mem_incoming {w : WorkflowDefinition} {n : String} {e : WorkflowEdge} :
    e ∈ incoming w n ↔ e ∈ w.edges ∧ e.target = n := by
  simp [incoming]

section Semantics

variable {w : WorkflowDefinition} (hw : WellFormed w) (o : String → NodeOutcome ν)

/-- More fuel than the rank of a node changes nothing. -/
theorem within_stable {rank : String → Nat} (hrank : ∀ e ∈ w.edges, rank e.source < rank e.target) :
    ∀ r n, rank n = r → ∀ j k, r < j → r < k →
      runsWithin w o j n = runsWithin w o k n ∧ depthWithin w o j n = depthWithin w o k n := by
  intro r
  induction r using Nat.strongRecOn with
  | ind r ih =>
    rintro n rfl (_ | j) (_ | k) hj hk
    iterate 3 omega
    have hsrc : ∀ e ∈ incoming w n, runsWithin w o j e.source = runsWithin w o k e.source ∧
        depthWithin w o j e.source = depthWithin w o k e.source := by
      intro e he
      obtain ⟨hmem, htgt⟩ := mem_incoming.mp he
      have hlt := hrank e hmem
      rw [htgt] at hlt
      exact ih (rank e.source) hlt e.source rfl j k (by omega) (by omega)
    constructor
    · simp only [runsWithin]
      congr 1
      rw [Bool.eq_iff_iff]
      simp only [List.any_eq_true]
      constructor
      · rintro ⟨e, he, h⟩
        exact ⟨e, he, by rwa [← (hsrc e he).1]⟩
      · rintro ⟨e, he, h⟩
        exact ⟨e, he, by rwa [(hsrc e he).1]⟩
    · simp only [depthWithin]
      apply List.foldr_ext
      intro e he m
      rw [(hsrc e he).1, (hsrc e he).2]

include hw in
theorem within_source {n : String} (hn : n ∈ w.nodes.map (·.id)) :
    ∃ k, w.nodes.length = k + 1 ∧ ∀ e ∈ incoming w n,
      runsWithin w o k e.source = runs w o e.source ∧ depthWithin w o k e.source = depth w o e.source := by
  obtain ⟨rank, hbound, hrank⟩ := hw.acyclic
  have hn' := hbound n hn
  refine ⟨w.nodes.length - 1, by omega, fun e he => ?_⟩
  obtain ⟨hmem, htgt⟩ := mem_incoming.mp he
  have hlt := hrank e hmem
  rw [htgt] at hlt
  exact within_stable o hrank _ e.source rfl _ _ (by omega) (by omega)

include hw in
theorem runs_iff {n : String} (hn : n ∈ w.nodes.map (·.id)) :
    runs w o n = true ↔ incoming w n = [] ∨
      ∃ e ∈ incoming w n, fires e (o e.source) = true ∧ runs w o e.source = true := by
  obtain ⟨k, hk, hsrc⟩ := within_source hw o hn
  rw [runs, hk]
  simp only [runsWithin, Bool.or_eq_true, decide_eq_true_eq, List.any_eq_true, Bool.and_eq_true]
  refine or_congr_right ⟨?_, ?_⟩
  · rintro ⟨e, he, hf, hr⟩
    exact ⟨e, he, hf, by rwa [← (hsrc e he).1]⟩
  · rintro ⟨e, he, hf, hr⟩
    exact ⟨e, he, hf, by rwa [(hsrc e he).1]⟩

/-- The wave after the one that settles `n`. -/
def settledBy (w : WorkflowDefinition) (o : String → NodeOutcome ν) (n : String) : Nat :=
  depth w o n + if runs w o n then 1 else 0

include hw in
theorem depth_eq {n : String} (hn : n ∈ w.nodes.map (·.id)) :
    depth w o n = (incoming w n).foldr (fun e m => max (settledBy w o e.source) m) 0 := by
  obtain ⟨k, hk, hsrc⟩ := within_source hw o hn
  rw [depth, hk, depthWithin]
  apply List.foldr_ext
  intro e he m
  rw [(hsrc e he).1, (hsrc e he).2, settledBy]

include hw in
theorem depth_le_iff {n : String} (hn : n ∈ w.nodes.map (·.id)) (k : Nat) :
    depth w o n ≤ k ↔ ∀ e ∈ incoming w n, settledBy w o e.source ≤ k := by
  rw [depth_eq hw o hn, foldr_max_le_iff]

include hw in
/-- No wave is empty before the last one. -/
theorem running_at_depth {n : String} (hn : n ∈ w.nodes.map (·.id)) {j : Nat} (hj : j < depth w o n) :
    ∃ m ∈ w.nodes.map (·.id), runs w o m = true ∧ depth w o m = j := by
  obtain ⟨rank, hbound, hrank⟩ := hw.acyclic
  -- Follow a source that gives `n` its depth, back along the rank.
  induction hr : rank n using Nat.strongRecOn generalizing n with
  | ind r ih =>
    subst hr
    have heq := depth_eq hw o hn
    obtain ⟨e, he, hdepth⟩ := exists_eq_foldr_max (fun e => settledBy w o e.source) (incoming w n)
      (by rw [← heq]; omega)
    rw [← heq] at hdepth
    obtain ⟨hmem, htgt⟩ := mem_incoming.mp he
    have hsrc := hw.source_mem e hmem
    have hlt := hrank e hmem
    rw [htgt] at hlt
    by_cases hd : j < depth w o e.source
    · exact ih _ hlt hsrc hd rfl
    · simp only [settledBy] at hdepth
      by_cases hruns : runs w o e.source = true
      · rw [if_pos hruns] at hdepth
        exact ⟨e.source, hsrc, hruns, by omega⟩
      · rw [if_neg hruns] at hdepth
        omega

end Semantics

end SmartTest.Workflow
