import SmartTest.Lib.Except
import SmartTest.Lib.Topo
import SmartTest.Workflow.Graph

/-!
# An accepted workflow graph is acyclic

The worklist loop of `validate_workflow_graph` pops every node at most once, and only
after all sources of its incoming edges. A visited count equal to the node count then
gives a topological order of the whole graph.
-/

open SmartTest.Lib

namespace SmartTest.Workflow

/-- What `validate_workflow_graph` establishes about ids, edge ends and cycles. -/
structure WellFormed (w : WorkflowDefinition) : Prop where
  nodup : (w.nodes.map (·.id)).Nodup
  source_mem : ∀ e ∈ w.edges, e.source ∈ w.nodes.map (·.id)
  target_mem : ∀ e ∈ w.edges, e.target ∈ w.nodes.map (·.id)
  acyclic : ∃ rank : String → Nat, (∀ n ∈ w.nodes.map (·.id), rank n < w.nodes.length) ∧
    ∀ e ∈ w.edges, rank e.source < rank e.target

/-! ## The inner loop -/

theorem releaseTargets_spec (ts : List String) (ready : List String) (remaining : String → Int)
    (hcount : ∀ t, (ts.count t : Int) ≤ remaining t) :
    ∃ pushed, (releaseTargets ts (ready, remaining)).1 = pushed ++ ready ∧ pushed.Nodup ∧
      (∀ t, t ∈ pushed ↔ t ∈ ts ∧ remaining t = ts.count t) ∧
      ∀ t, (releaseTargets ts (ready, remaining)).2 t = remaining t - ts.count t := by
  induction ts generalizing ready remaining with
  | nil => exact ⟨[], by simp [releaseTargets]⟩
  | cons x xs ih =>
    have hx := hcount x
    rw [List.count_cons_self] at hx
    have hcount' : ∀ t, (xs.count t : Int) ≤ Function.update remaining x (remaining x - 1) t := by
      intro t
      by_cases ht : t = x
      · subst ht; simp; omega
      · have := hcount t
        simpa [Function.update_of_ne ht, List.count_cons_of_ne (Ne.symm ht)] using this
    obtain ⟨pushed, hready, hnd, hmem, hrem⟩ := ih
      (if remaining x - 1 = 0 then x :: ready else ready) _ hcount'
    have hrem' : ∀ t, (releaseTargets (x :: xs) (ready, remaining)).2 t = remaining t - (x :: xs).count t := by
      intro t
      simp only [releaseTargets, Function.update_self, hrem]
      by_cases ht : t = x
      · subst ht; simp; omega
      · simp [Function.update_of_ne ht, List.count_cons_of_ne (Ne.symm ht)]
    have hmem_ne : ∀ t, t ≠ x → (t ∈ pushed ↔ t ∈ x :: xs ∧ remaining t = (x :: xs).count t) := by
      intro t ht
      rw [hmem t, Function.update_of_ne ht, List.count_cons_of_ne (Ne.symm ht), List.mem_cons]
      simp [ht]
    simp only [releaseTargets, Function.update_self] at hready hrem' ⊢
    by_cases hz : remaining x - 1 = 0
    · -- `x` is pushed now, so it cannot be left in `xs`.
      have hxs : x ∉ xs := by
        intro hin
        have := List.count_pos_iff.mpr hin
        omega
      have hnot : x ∉ pushed := fun hin => hxs ((hmem x).mp hin).1
      refine ⟨pushed ++ [x], by rw [hready, if_pos hz]; simp, ?_, ?_, hrem'⟩
      · exact List.Nodup.append hnd (List.nodup_singleton x) (by simpa using hnot)
      · intro t
        by_cases ht : t = x
        · subst ht
          have h0 : List.count t xs = 0 := List.count_eq_zero.mpr hxs
          simp only [List.mem_append, or_true, List.mem_cons, true_or, true_and,
            List.count_cons_self, h0, true_iff]
          omega
        · simpa [ht] using hmem_ne t ht
    · refine ⟨pushed, by rw [hready, if_neg hz], hnd, ?_, hrem'⟩
      intro t
      by_cases ht : t = x
      · subst ht
        rw [hmem t, Function.update_self]
        constructor
        · rintro ⟨-, he⟩
          exact ⟨by simp, by simp only [List.count_cons_self]; omega⟩
        · rintro ⟨-, he⟩
          simp only [List.count_cons_self] at he
          have hpos : 0 < List.count t xs := by omega
          exact ⟨List.count_pos_iff.mp hpos, by omega⟩
      · exact hmem_ne t ht

/-! ## The worklist loop -/

/-- The edges into `t` whose source is not in `order`. -/
def openEdges (edges : List WorkflowEdge) (order : List String) (t : String) : List WorkflowEdge :=
  edges.filter fun e => e.target = t ∧ e.source ∉ order

structure KahnInv (w : WorkflowDefinition) (order ready : List String) (remaining : String → Int) :
    Prop where
  nodup : (order ++ ready).Nodup
  mem : order ++ ready ⊆ w.nodes.map (·.id)
  remaining_eq : ∀ t, remaining t = ((openEdges w.edges order t).length : Int)
  released : ∀ t ∈ order ++ ready, remaining t = 0
  complete : ∀ t ∈ w.nodes.map (·.id), remaining t = 0 → t ∈ order ++ ready
  topo : TopoOrder (fun a b => ∃ e ∈ w.edges, e.source = a ∧ e.target = b) order

theorem count_outgoing (edges : List WorkflowEdge) (c t : String) :
    (outgoing edges c).count t = (edges.filter fun e => e.target = t ∧ e.source = c).length := by
  unfold outgoing
  rw [List.count_eq_countP, List.countP_map, List.countP_filter, ← List.countP_eq_length_filter]
  apply List.countP_congr
  intro e _
  simp

theorem openEdges_pop (edges : List WorkflowEdge) (order : List String) (c t : String) (hc : c ∉ order) :
    (openEdges edges order t).length =
      (openEdges edges (order ++ [c]) t).length + (outgoing edges c).count t := by
  rw [count_outgoing]
  unfold openEdges
  induction edges with
  | nil => rfl
  | cons e rest ih =>
    simp only [List.mem_append, List.mem_singleton, not_or] at ih ⊢
    by_cases ht : e.target = t
    · by_cases hs : e.source = c
      · simp only [List.filter_cons, ht, hs, hc, not_false_eq_true, not_true_eq_false, and_true, and_false,
          decide_true, decide_false, if_true, Bool.false_eq_true, if_false, List.length_cons, ih]
        omega
      · by_cases ho : e.source ∈ order
        · simp only [List.filter_cons, ht, hs, ho, not_true_eq_false, and_false, false_and, decide_false,
            Bool.false_eq_true, if_false, ih]
        · simp only [List.filter_cons, ht, hs, ho, not_false_eq_true, and_true, and_false, decide_true,
            decide_false, if_true, Bool.false_eq_true, if_false, List.length_cons, ih]
          omega
    · simp only [List.filter_cons, ht, false_and, decide_false, Bool.false_eq_true, if_false, ih]

theorem kahn_pop {w : WorkflowDefinition} (htarget : ∀ e ∈ w.edges, e.target ∈ w.nodes.map (·.id))
    {order ready : List String} {remaining : String → Int} {c : String}
    (h : KahnInv w order (c :: ready) remaining) :
    KahnInv w (order ++ [c]) (releaseTargets (outgoing w.edges c) (ready, remaining)).1
      (releaseTargets (outgoing w.edges c) (ready, remaining)).2 := by
  have hnd := h.nodup
  have hc : c ∉ order := by
    intro hin
    exact (List.nodup_append.mp hnd).2.2 c hin c (by simp) rfl
  have hopen := openEdges_pop w.edges order c
  have hcount : ∀ t, ((outgoing w.edges c).count t : Int) ≤ remaining t := by
    intro t
    rw [h.remaining_eq t, hopen t hc]
    omega
  obtain ⟨pushed, hready, hpnd, hpmem, hrem⟩ := releaseTargets_spec _ ready remaining hcount
  rw [hready]
  have hold : order ++ [c] ++ (pushed ++ ready) = order ++ c :: (pushed ++ ready) := by simp
  -- A pushed node had open edges before, so it is new.
  have hnew : ∀ t ∈ pushed, t ∉ order ++ c :: ready := by
    intro t ht hin
    have h1 := (hpmem t).mp ht
    have h2 := h.released t hin
    have := List.count_pos_iff.mpr h1.1
    omega
  have hmem_iff : ∀ t, t ∈ order ++ [c] ++ (pushed ++ ready) ↔ t ∈ pushed ∨ t ∈ order ++ c :: ready := by
    intro t
    simp only [List.mem_append, List.mem_cons, List.not_mem_nil, or_false]
    tauto
  refine ⟨?_, ?_, ?_, ?_, ?_, ?_⟩
  · have hperm : (order ++ [c] ++ (pushed ++ ready)).Perm (pushed ++ (order ++ c :: ready)) := by
      rw [hold]
      have h1 : (order ++ c :: (pushed ++ ready)).Perm (order ++ (pushed ++ c :: ready)) :=
        List.Perm.append_left order List.perm_middle.symm
      refine h1.trans ?_
      rw [← List.append_assoc, ← List.append_assoc]
      exact List.Perm.append_right _ List.perm_append_comm
    rw [hperm.nodup_iff]
    exact List.Nodup.append hpnd hnd fun t ht hin => hnew t ht hin
  · intro t ht
    rcases (hmem_iff t).mp ht with hp | hin
    · obtain ⟨e, he, rfl⟩ := List.mem_map.mp ((hpmem t).mp hp).1
      exact htarget e (List.mem_filter.mp he).1
    · exact h.mem hin
  · intro t
    rw [hrem t, h.remaining_eq t, hopen t hc]
    omega
  · intro t ht
    rw [hrem t]
    rcases (hmem_iff t).mp ht with hp | hin
    · have := ((hpmem t).mp hp).2
      omega
    · have := h.released t hin
      have := hcount t
      omega
  · intro t ht hz
    rw [hrem t] at hz
    rw [hmem_iff t]
    by_cases hr : remaining t = 0
    · exact Or.inr (h.complete t ht hr)
    · refine Or.inl ((hpmem t).mpr ⟨?_, by omega⟩)
      exact List.count_pos_iff.mp (by omega)
  · refine h.topo.snoc c ?_
    rintro b ⟨e, he, rfl, hec⟩
    by_contra hno
    have hz := h.released c (by simp)
    rw [h.remaining_eq c] at hz
    have hin : e ∈ openEdges w.edges order c := by
      simpa [openEdges] using ⟨he, hec, hno⟩
    have := List.length_pos_of_mem hin
    omega

theorem countVisited_spec {w : WorkflowDefinition} (htarget : ∀ e ∈ w.edges, e.target ∈ w.nodes.map (·.id))
    (fuel : Nat) (order ready : List String) (remaining : String → Int)
    (h : KahnInv w order ready remaining) (hfuel : w.nodes.length + 1 ≤ fuel + order.length) :
    ∃ order' remaining', KahnInv w order' [] remaining' ∧
      countVisited w.edges fuel ready remaining order.length = order'.length := by
  have hlen : (order ++ ready).length ≤ w.nodes.length := by
    simpa using (List.subperm_of_subset h.nodup h.mem).length_le
  rw [List.length_append] at hlen
  induction fuel generalizing order ready remaining with
  | zero => omega
  | succ fuel ih =>
    cases ready with
    | nil => exact ⟨order, remaining, h, rfl⟩
    | cons c ready =>
      have hpop := kahn_pop htarget h
      simp only [countVisited]
      have hlen' : (order ++ [c]).length = order.length + 1 := by simp
      rw [← hlen']
      apply ih _ _ _ hpop (by omega)
      rw [← List.length_append]
      simpa using (List.subperm_of_subset hpop.nodup hpop.mem).length_le

theorem kahn_start {w : WorkflowDefinition} (hnd : (w.nodes.map (·.id)).Nodup) :
    KahnInv w [] (roots w).reverse (incomingCount w.edges) := by
  refine ⟨?_, ?_, ?_, ?_, ?_, topoOrder_nil _⟩
  · simpa [roots] using hnd.filter _
  · intro t ht
    simp only [List.nil_append, List.mem_reverse, roots, List.mem_filter] at ht
    exact ht.1
  · intro t
    simp [incomingCount, openEdges]
  · intro t ht
    simp only [List.nil_append, List.mem_reverse, roots, List.mem_filter, decide_eq_true_eq] at ht
    exact ht.2
  · intro t ht hz
    simp only [List.nil_append, List.mem_reverse, roots, List.mem_filter, decide_eq_true_eq]
    exact ⟨ht, hz⟩

/-! ## The checks -/

theorem checkNodes_keys (nodes nodes' : Dict String WorkflowNode) (ns : List WorkflowNode)
    (h : checkNodes nodes ns = .ok nodes') : nodes'.keys = nodes.keys ++ ns.map (·.id) := by
  induction ns generalizing nodes with
  | nil =>
    simp only [checkNodes, Except.ok.injEq] at h
    simp [h]
  | cons node rest ih =>
    simp only [checkNodes, bind_eq_ok_iff] at h
    obtain ⟨-, -, h⟩ := h
    split at h
    · cases h
    · rw [ite_error_eq_ok_iff] at h
      have hnew : nodes.get? node.id = none := by simpa using h.1
      rw [ih _ h.2, Dict.keys_set_new _ _ _ hnew]
      simp

theorem checkEdge_ends (nodes : Dict String WorkflowNode) (e : WorkflowEdge)
    (h : checkEdge nodes e = .ok ()) : e.source ∈ nodes.keys ∧ e.target ∈ nodes.keys := by
  unfold checkEdge at h
  split at h
  · rename_i source target hs ht
    exact ⟨(nodes.mem_keys_iff _).mpr (by simp [hs]), (nodes.mem_keys_iff _).mpr (by simp [ht])⟩
  · cases h

theorem checkEdges_ends (nodes : Dict String WorkflowNode) (edgeIds : List String)
    (es : List WorkflowEdge) (h : checkEdges nodes edgeIds es = .ok ()) :
    ∀ e ∈ es, e.source ∈ nodes.keys ∧ e.target ∈ nodes.keys := by
  induction es generalizing edgeIds with
  | nil => simp
  | cons edge rest ih =>
    simp only [checkEdges, bind_eq_ok_iff, ite_error_eq_ok_iff] at h
    obtain ⟨_, -, -, _, hedge, hrest⟩ := h
    intro e he
    rcases List.mem_cons.mp he with heq | he
    · exact heq ▸ checkEdge_ends nodes edge hedge
    · exact ih _ hrest e he

theorem visited_all_acyclic {w : WorkflowDefinition} (hnd : (w.nodes.map (·.id)).Nodup)
    (htarget : ∀ e ∈ w.edges, e.target ∈ w.nodes.map (·.id))
    (hvisited : countVisited w.edges (w.nodes.length + 1) (roots w).reverse (incomingCount w.edges) 0 =
      w.nodes.length) :
    ∃ rank : String → Nat, (∀ n ∈ w.nodes.map (·.id), rank n < w.nodes.length) ∧
      ∀ e ∈ w.edges, rank e.source < rank e.target := by
  obtain ⟨order, remaining, hinv, hlen⟩ :=
    countVisited_spec htarget (w.nodes.length + 1) [] _ _ (kahn_start hnd) (by simp)
  rw [List.length_nil, hvisited] at hlen
  have hall : ∀ a ∈ w.nodes.map (·.id), a ∈ order :=
    mem_of_nodup_subset_length (by simpa using hinv.nodup) (by simpa using hinv.mem) (by simp [hlen])
  refine ⟨order.idxOf, fun n hn => ?_, fun e he => ?_⟩
  · exact hlen ▸ List.idxOf_lt_length_of_mem (hall n hn)
  · exact hinv.topo.idxOf_lt (hall _ (htarget e he)) ⟨e, he, rfl, rfl⟩

theorem checkAcyclic_rank {w : WorkflowDefinition} (hnd : (w.nodes.map (·.id)).Nodup)
    (htarget : ∀ e ∈ w.edges, e.target ∈ w.nodes.map (·.id)) (h : checkAcyclic w = .ok ()) :
    ∃ rank : String → Nat, (∀ n ∈ w.nodes.map (·.id), rank n < w.nodes.length) ∧
      ∀ e ∈ w.edges, rank e.source < rank e.target := by
  unfold checkAcyclic at h
  split at h
  · rename_i hnil
    refine ⟨fun _ => 0, by simp [hnil], fun e he => ?_⟩
    simpa [hnil] using htarget e he
  · rw [ite_error_eq_ok_iff, ite_error_eq_ok_iff] at h
    exact visited_all_acyclic hnd htarget (not_not.mp h.2.1)

theorem wellFormed_of_valid {w : WorkflowDefinition} (h : validateWorkflowGraph w = .ok ()) :
    WellFormed w := by
  simp only [validateWorkflowGraph, ite_error_eq_ok_iff, bind_eq_ok_iff] at h
  obtain ⟨-, -, nodes, hnodes, _, hedges, hacyclic⟩ := h
  have hkeys : nodes.keys = w.nodes.map (·.id) := by
    simpa using checkNodes_keys _ _ _ hnodes
  have hnd : (w.nodes.map (·.id)).Nodup := hkeys ▸ nodes.nodup
  have hends := checkEdges_ends _ _ _ hedges
  simp only [hkeys] at hends
  have htarget : ∀ e ∈ w.edges, e.target ∈ w.nodes.map (·.id) := fun e he => (hends e he).2
  exact ⟨hnd, fun e he => (hends e he).1, htarget, checkAcyclic_rank hnd htarget hacyclic⟩

end SmartTest.Workflow
