import SmartTest.Workflow.Schedule

/-!
# The waves follow the schedule

Before wave `k` the nodes of depth below `k` are settled. The skip loop adds the skipped
nodes of depth `k`, and the wave itself runs the others.
-/

open SmartTest.Lib

namespace SmartTest.Workflow

variable {ν : Type}

/-- What `executions` holds for a settled node. -/
def executionOf (w : WorkflowDefinition) (o : String → NodeOutcome ν) (n : String) : NodeExecution ν :=
  if runs w o n then (o n).execution else ⟨.skipped, .empty, .empty, none⟩

def Settled (p : Progress ν) (n : String) : Prop := (p.executions.get? n).isSome

structure Consistent (w : WorkflowDefinition) (o : String → NodeOutcome ν) (p : Progress ν) : Prop where
  pending : ∀ n, n ∈ p.pending ↔ n ∈ w.nodes.map (·.id) ∧ ¬ Settled p n
  nodup : p.pending.Nodup
  execution : ∀ n x, p.executions.get? n = some x → x = executionOf w o n
  result : ∀ n, (p.rawResults.get? n).isSome ↔ Settled p n

/-- Between two waves. -/
def SettledBelow (w : WorkflowDefinition) (o : String → NodeOutcome ν) (k : Nat) (p : Progress ν) : Prop :=
  ∀ n ∈ w.nodes.map (·.id), Settled p n ↔ depth w o n < k

/-- Inside the skip loop of wave `k`. -/
def Skipping (w : WorkflowDefinition) (o : String → NodeOutcome ν) (k : Nat) (p : Progress ν) : Prop :=
  ∀ n ∈ w.nodes.map (·.id), (depth w o n < k → Settled p n) ∧
    (Settled p n → depth w o n < k ∨ depth w o n = k ∧ runs w o n = false)

/-- The write that `skip` and `record` share. -/
def settle (p : Progress ν) (n : String) (execution : NodeExecution ν) (result : NodeResult ν) :
    Progress ν :=
  { p with
    executions := p.executions.set n execution
    rawResults := p.rawResults.set n result
    pending := p.pending.erase n }

theorem settled_settle (p : Progress ν) (n m : String) (x : NodeExecution ν) (r : NodeResult ν) :
    Settled (settle p n x r) m ↔ m = n ∨ Settled p m := by
  simp only [Settled, settle, Dict.get?_set]
  by_cases h : m = n <;> simp [h]

section Invariant

variable {w : WorkflowDefinition} {o : String → NodeOutcome ν} {p : Progress ν} {k : Nat}

theorem Consistent.settle (h : Consistent w o p) (n : String) (r : NodeResult ν) :
    Consistent w o (settle p n (executionOf w o n) r) where
  pending m := by
    show m ∈ p.pending.erase n ↔ _
    rw [h.nodup.mem_erase_iff, h.pending, settled_settle]
    grind
  nodup := h.nodup.erase n
  execution m x hx := by
    simp only [Workflow.settle, Dict.get?_set] at hx
    split at hx
    · next heq => rw [heq]; exact (Option.some.inj hx).symm
    · exact h.execution m x hx
  result m := by
    rw [settled_settle, ← h.result m]
    simp only [Workflow.settle, Dict.get?_set]
    by_cases hm : m = n <;> simp [hm]

/-! ## Reading the executions -/

theorem sourcesDone_iff {edges : List WorkflowEdge} :
    sourcesDone p.executions edges = true ↔ ∀ e ∈ edges, Settled p e.source := by
  simp [sourcesDone, Settled]

theorem edgeActive_executionOf (e : WorkflowEdge) :
    edgeActive e (executionOf w o e.source) = (fires e (o e.source) && runs w o e.source) := by
  by_cases h : runs w o e.source = true
  · simp [executionOf, fires, h]
  · simp [executionOf, edgeActive, h]

theorem someActive_iff (h : Consistent w o p) {edges : List WorkflowEdge}
    (hdone : ∀ e ∈ edges, Settled p e.source) :
    someActive p.executions edges = true ↔
      ∃ e ∈ edges, fires e (o e.source) = true ∧ runs w o e.source = true := by
  have hget : ∀ e ∈ edges, p.executions.get? e.source = some (executionOf w o e.source) := by
    intro e he
    obtain ⟨x, hx⟩ := Option.isSome_iff_exists.mp (hdone e he)
    rw [hx, h.execution _ _ hx]
  simp only [someActive, List.any_eq_true]
  constructor
  · rintro ⟨e, he, hactive⟩
    rw [hget e he, Option.any_some, edgeActive_executionOf, Bool.and_eq_true] at hactive
    exact ⟨e, he, hactive⟩
  · rintro ⟨e, he, hactive⟩
    refine ⟨e, he, ?_⟩
    rw [hget e he, Option.any_some, edgeActive_executionOf, Bool.and_eq_true]
    exact hactive

theorem SettledBelow.skipping (h : SettledBelow w o k p) : Skipping w o k p :=
  fun n hn => ⟨(h n hn).mpr, fun hs => .inl ((h n hn).mp hs)⟩

/-- Settled sources bound the depth. -/
theorem Skipping.depth_le (hw : WellFormed w) (h : Skipping w o k p) {n : String}
    (hn : n ∈ w.nodes.map (·.id)) (hdone : ∀ e ∈ incoming w n, Settled p e.source) : depth w o n ≤ k := by
  rw [depth_le_iff hw o hn]
  intro e he
  have hsrc := hw.source_mem e (mem_incoming.mp he).1
  rcases (h e.source hsrc).2 (hdone e he) with hlt | ⟨heq, hskip⟩
  · simp only [settledBy]
    split <;> omega
  · simp [settledBy, heq, hskip]

theorem Skipping.le_depth (h : Skipping w o k p) (hc : Consistent w o p) {n : String}
    (hn : n ∈ p.pending) : k ≤ depth w o n := by
  obtain ⟨hid, hopen⟩ := (hc.pending n).mp hn
  by_contra hlt
  exact hopen ((h n hid).1 (by omega))

/-! ## The skip loop -/

theorem skip_eq_settle (p : Progress ν) (node : WorkflowNode) (h : runs w o node.id = false) :
    skip p node = settle p node.id (executionOf w o node.id)
      ⟨node.id, node.name, node.type, .skipped, .empty⟩ := by
  simp [skip, settle, executionOf, h]

theorem skippable_iff {node : WorkflowNode} :
    skippable w p node = true ↔ node.id ∈ p.pending ∧ incoming w node.id ≠ [] ∧
      (∀ e ∈ incoming w node.id, Settled p e.source) ∧
      someActive p.executions (incoming w node.id) = false := by
  simp [skippable, sourcesDone_iff, and_assoc]

theorem skippable_spec (hw : WellFormed w) (hc : Consistent w o p) (hs : Skipping w o k p)
    {node : WorkflowNode} (h : skippable w p node = true) :
    runs w o node.id = false ∧ depth w o node.id = k := by
  obtain ⟨hpend, hne, hdone, hactive⟩ := skippable_iff.mp h
  have hid := ((hc.pending _).mp hpend).1
  refine ⟨?_, Nat.le_antisymm (hs.depth_le hw hid hdone) (hs.le_depth hc hpend)⟩
  rw [← Bool.not_eq_true, runs_iff hw o hid, ← someActive_iff hc hdone]
  simp [hne, hactive]

theorem skip_spec (hw : WellFormed w) (hc : Consistent w o p) (hs : Skipping w o k p)
    {node : WorkflowNode} (h : skippable w p node = true) :
    Consistent w o (skip p node) ∧ Skipping w o k (skip p node) ∧
      (skip p node).pending.length < p.pending.length := by
  obtain ⟨hrun, hdepth⟩ := skippable_spec hw hc hs h
  have hpend := (skippable_iff.mp h).1
  rw [skip_eq_settle p node hrun]
  refine ⟨hc.settle _ _, fun n hn => ?_, ?_⟩
  · rw [settled_settle]
    refine ⟨fun hlt => .inr ((hs n hn).1 hlt), ?_⟩
    rintro (rfl | hset)
    · exact .inr ⟨hdepth, hrun⟩
    · exact (hs n hn).2 hset
  · have := List.length_pos_of_mem hpend
    simp only [settle, List.length_erase_of_mem hpend]
    omega

theorem skipPass_spec (hw : WellFormed w) (nodes : List WorkflowNode) (changed : Bool)
    (hc : Consistent w o p) (hs : Skipping w o k p) :
    Consistent w o (skipPass w nodes (p, changed)).1 ∧ Skipping w o k (skipPass w nodes (p, changed)).1 ∧
      ((skipPass w nodes (p, changed) = (p, changed) ∧ ∀ node ∈ nodes, skippable w p node = false) ∨
        (skipPass w nodes (p, changed)).2 = true ∧
          (skipPass w nodes (p, changed)).1.pending.length < p.pending.length) := by
  induction nodes generalizing p changed with
  | nil => exact ⟨hc, hs, .inl ⟨rfl, by simp⟩⟩
  | cons node rest ih =>
    by_cases h : skippable w p node = true
    · obtain ⟨hc', hs', hlt⟩ := skip_spec hw hc hs h
      simp only [skipPass, h, if_true]
      obtain ⟨hc'', hs'', hrest⟩ := ih true hc' hs'
      refine ⟨hc'', hs'', .inr ?_⟩
      rcases hrest with ⟨heq, -⟩ | ⟨htrue, hlt'⟩
      · rw [heq]
        exact ⟨rfl, hlt⟩
      · exact ⟨htrue, by omega⟩
    · simp only [skipPass, h, Bool.false_eq_true, if_false]
      obtain ⟨hc'', hs'', hrest⟩ := ih changed hc hs
      refine ⟨hc'', hs'', hrest.imp_left ?_⟩
      rintro ⟨heq, hall⟩
      refine ⟨heq, List.forall_mem_cons.mpr ⟨by simpa using h, hall⟩⟩

theorem skipLoop_spec (hw : WellFormed w) (fuel : Nat) (hfuel : p.pending.length < fuel)
    (hc : Consistent w o p) (hs : Skipping w o k p) :
    Consistent w o (skipLoop w fuel p) ∧ Skipping w o k (skipLoop w fuel p) ∧
      (∀ node ∈ w.nodes, skippable w (skipLoop w fuel p) node = false) ∧
      (skipLoop w fuel p).pending.length ≤ p.pending.length := by
  induction fuel generalizing p with
  | zero => omega
  | succ fuel ih =>
    obtain ⟨hc', hs', hrest⟩ := skipPass_spec hw w.nodes false hc hs
    simp only [skipLoop]
    rcases hrest with ⟨heq, hall⟩ | ⟨htrue, hlt⟩
    · simp only [heq, Bool.false_eq_true, if_false]
      exact ⟨hc, hs, hall, Nat.le_refl _⟩
    · simp only [htrue, if_true]
      obtain ⟨h1, h2, h3, h4⟩ := ih (by omega) hc' hs'
      exact ⟨h1, h2, h3, by omega⟩

/-- The skip loop stops only when every skipped node of this wave is settled. -/
theorem settled_of_not_runs (hw : WellFormed w) (hc : Consistent w o p) (hs : Skipping w o k p)
    (hstop : ∀ node ∈ w.nodes, skippable w p node = false) {n : String} (hn : n ∈ w.nodes.map (·.id))
    (hrun : runs w o n = false) (hdepth : depth w o n ≤ k) : Settled p n := by
  obtain ⟨rank, -, hrank⟩ := hw.acyclic
  induction hr : rank n using Nat.strongRecOn generalizing n with
  | ind r ih =>
    subst hr
    have hdone : ∀ e ∈ incoming w n, Settled p e.source := by
      intro e he
      obtain ⟨hmem, htgt⟩ := mem_incoming.mp he
      have hsrc := hw.source_mem e hmem
      have hle := (depth_le_iff hw o hn k).mp hdepth e he
      simp only [settledBy] at hle
      by_cases hr : runs w o e.source = true
      · rw [if_pos hr] at hle
        exact (hs _ hsrc).1 (by omega)
      · rw [if_neg hr] at hle
        exact ih _ (htgt ▸ hrank e hmem) hsrc (by simpa using hr) hle rfl
    have hidle : ¬ (incoming w n = [] ∨ someActive p.executions (incoming w n) = true) := by
      rw [someActive_iff hc hdone, ← runs_iff hw o hn, hrun]
      simp
    obtain ⟨node, hnode, rfl⟩ := List.mem_map.mp hn
    by_contra hopen
    have : skippable w p node = true := by
      rw [skippable_iff]
      exact ⟨(hc.pending _).mpr ⟨hn, hopen⟩, fun h => hidle (.inl h), hdone,
        by simpa using fun h => hidle (.inr h)⟩
    rw [hstop node hnode] at this
    simp at this

end Invariant

end SmartTest.Workflow
