import SmartTest.Workflow.Acyclic

/-!
# Validation is exact

`validate_workflow_graph` accepts the well-formed acyclic graphs and no others. Its worklist
loop visits every node exactly when there is no cycle: a node that is never released has an
edge from another such node, and so back and back in a finite graph.
-/

open SmartTest.Lib

namespace SmartTest.Workflow

/-! ## Nodes -/

structure NodesValid (nodes : List WorkflowNode) : Prop where
  ids : ∀ n ∈ nodes, isIdentifier n.id = true
  types : ∀ n ∈ nodes, ∃ type, n.type = .known type
  nodup : (nodes.map (·.id)).Nodup

theorem validateIdentifier_ok_iff {value label : String} :
    validateIdentifier value label = .ok () ↔ isIdentifier value = true := by
  unfold validateIdentifier
  split <;> simp_all

/-- What the first loop accepts after it has seen `seen`. -/
theorem checkNodes_ok_iff (nodes : List WorkflowNode) (seen : Dict String WorkflowNode) :
    (∃ table, checkNodes seen nodes = .ok table) ↔
      NodesValid nodes ∧ ∀ n ∈ nodes, n.id ∉ seen.keys := by
  induction nodes generalizing seen with
  | nil => exact ⟨fun _ => ⟨⟨by simp, by simp, by simp⟩, by simp⟩, fun _ => ⟨seen, rfl⟩⟩
  | cons node rest ih =>
    simp only [checkNodes, bind_eq_ok_iff]
    cases htype : node.type with
    | unknown text =>
      constructor
      · rintro ⟨_, _, _, h⟩
        cases h
      · rintro ⟨hvalid, -⟩
        obtain ⟨type, hknown⟩ := hvalid.types node List.mem_cons_self
        rw [htype] at hknown
        cases hknown
    | known type =>
      have hkeys : ∀ hnew : seen.get? node.id = none, (seen.set node.id node).keys = seen.keys ++ [node.id] :=
        fun hnew => Dict.keys_set_new _ _ _ hnew
      simp only [ite_error_eq_ok_iff, Bool.not_eq_true, Option.isSome_eq_false_iff, Option.isNone_iff_eq_none]
      constructor
      · rintro ⟨table, _, hid, hnew, htable⟩
        obtain ⟨hvalid, hunseen⟩ := (ih _).mp ⟨table, htable⟩
        rw [hkeys hnew] at hunseen
        have hother : ∀ n ∈ rest, n.id ∉ seen.keys ∧ n.id ≠ node.id := by
          intro n hn
          simpa using hunseen n hn
        refine ⟨⟨List.forall_mem_cons.mpr ⟨validateIdentifier_ok_iff.mp hid, hvalid.ids⟩,
          List.forall_mem_cons.mpr ⟨⟨type, htype⟩, hvalid.types⟩, ?_⟩,
          List.forall_mem_cons.mpr ⟨(Dict.get?_eq_none_iff _ _).mp hnew, fun n hn => (hother n hn).1⟩⟩
        rw [List.map_cons, List.nodup_cons]
        refine ⟨?_, hvalid.nodup⟩
        intro hin
        obtain ⟨n, hn, heq⟩ := List.mem_map.mp hin
        exact (hother n hn).2 heq
      · rintro ⟨hvalid, hunseen⟩
        obtain ⟨hfirst, hrest⟩ := List.forall_mem_cons.mp hunseen
        have hnew := (Dict.get?_eq_none_iff seen node.id).mpr hfirst
        obtain ⟨hnot, hnodup⟩ := List.nodup_cons.mp hvalid.nodup
        have hvalid' : NodesValid rest :=
          ⟨(List.forall_mem_cons.mp hvalid.ids).2, (List.forall_mem_cons.mp hvalid.types).2, hnodup⟩
        obtain ⟨table, htable⟩ := (ih (seen.set node.id node)).mpr ⟨hvalid', by
          intro n hn
          rw [hkeys hnew, List.mem_append, List.mem_singleton, not_or]
          exact ⟨hrest n hn, fun heq => hnot (List.mem_map.mpr ⟨n, hn, heq⟩)⟩⟩
        exact ⟨table, (), validateIdentifier_ok_iff.mpr (List.forall_mem_cons.mp hvalid.ids).1, hnew, htable⟩

/-- The table holds the nodes under their ids. -/
theorem checkNodes_get {nodes : List WorkflowNode} {seen table : Dict String WorkflowNode}
    (h : checkNodes seen nodes = .ok table) (id : String) (n : WorkflowNode) :
    table.get? id = some n ↔ seen.get? id = some n ∨ (n ∈ nodes ∧ n.id = id) := by
  induction nodes generalizing seen with
  | nil =>
    simp only [checkNodes, Except.ok.injEq] at h
    simp [h]
  | cons node rest ih =>
    simp only [checkNodes, bind_eq_ok_iff] at h
    obtain ⟨-, -, h⟩ := h
    split at h
    · cases h
    · rw [ite_error_eq_ok_iff] at h
      have hnew : seen.get? node.id = none := by simpa using h.1
      rw [ih h.2, Dict.get?_set]
      by_cases hid : id = node.id
      · subst hid
        simp only [if_true, Option.some.injEq, hnew, reduceCtorEq, false_or, List.mem_cons]
        constructor
        · rintro (rfl | ⟨hin, heq⟩)
          · exact ⟨.inl rfl, rfl⟩
          · exact ⟨.inr hin, heq⟩
        · rintro ⟨rfl | hin, heq⟩
          · exact .inl rfl
          · exact .inr ⟨hin, heq⟩
      · simp only [if_neg hid, List.mem_cons]
        constructor
        · rintro (hseen | ⟨hin, heq⟩)
          · exact .inl hseen
          · exact .inr ⟨.inr hin, heq⟩
        · rintro (hseen | ⟨rfl | hin, heq⟩)
          · exact .inl hseen
          · exact absurd heq.symm hid
          · exact .inr ⟨hin, heq⟩

/-! ## Edges -/

/-- An edge between existing nodes, with an outcome its source can have. -/
def EdgeValid (nodes : List WorkflowNode) (e : WorkflowEdge) : Prop :=
  (∃ target ∈ nodes, target.id = e.target) ∧ ∃ source ∈ nodes, source.id = e.source ∧
    ∃ outcome type, e.outcome = .known outcome ∧ source.type = .known type ∧ outcome ∈ compatibleOutcomes type

structure EdgesValid (nodes : List WorkflowNode) (edges : List WorkflowEdge) : Prop where
  ids : ∀ e ∈ edges, isIdentifier e.id = true
  nodup : (edges.map (·.id)).Nodup
  ends : ∀ e ∈ edges, EdgeValid nodes e

theorem checkEdge_ok_iff {nodes : List WorkflowNode} {table : Dict String WorkflowNode}
    (h : checkNodes .empty nodes = .ok table) (e : WorkflowEdge) :
    checkEdge table e = .ok () ↔ EdgeValid nodes e := by
  have hget : ∀ id n, table.get? id = some n ↔ n ∈ nodes ∧ n.id = id := by
    intro id n
    simpa using checkNodes_get h id n
  constructor
  · intro hok
    unfold checkEdge at hok
    split at hok
    · next source target hsource htarget =>
      split at hok
      · next outcome type houtcome htype =>
        split at hok
        · next hin =>
          exact ⟨⟨target, (hget _ _).mp htarget⟩, source, ((hget _ _).mp hsource).1, ((hget _ _).mp hsource).2,
            outcome, type, houtcome, htype, hin⟩
        · cases hok
      · cases hok
    · cases hok
  · rintro ⟨⟨target, htarget⟩, source, hsource, hid, outcome, type, houtcome, htype, hin⟩
    simp only [checkEdge, (hget _ _).mpr htarget, (hget _ _).mpr ⟨hsource, hid⟩, houtcome, htype, if_pos hin]

theorem checkEdges_ok_iff {nodes : List WorkflowNode} {table : Dict String WorkflowNode}
    (h : checkNodes .empty nodes = .ok table) (edges : List WorkflowEdge) (seen : List String) :
    checkEdges table seen edges = .ok () ↔ EdgesValid nodes edges ∧ ∀ e ∈ edges, e.id ∉ seen := by
  induction edges generalizing seen with
  | nil => exact ⟨fun _ => ⟨⟨by simp, by simp, by simp⟩, by simp⟩, fun _ => rfl⟩
  | cons edge rest ih =>
    simp only [checkEdges, bind_eq_ok_iff, ite_error_eq_ok_iff, ih]
    constructor
    · rintro ⟨_, hid, hnew, _, hedge, hvalid, hunseen⟩
      replace hedge := (checkEdge_ok_iff h edge).mp hedge
      have hother : ∀ e ∈ rest, e.id ≠ edge.id ∧ e.id ∉ seen := by
        intro e he
        simpa using hunseen e he
      refine ⟨⟨List.forall_mem_cons.mpr ⟨validateIdentifier_ok_iff.mp hid, hvalid.ids⟩, ?_,
        List.forall_mem_cons.mpr ⟨hedge, hvalid.ends⟩⟩,
        List.forall_mem_cons.mpr ⟨hnew, fun e he => (hother e he).2⟩⟩
      rw [List.map_cons, List.nodup_cons]
      refine ⟨?_, hvalid.nodup⟩
      intro hin
      obtain ⟨e, he, heq⟩ := List.mem_map.mp hin
      exact (hother e he).1 heq
    · rintro ⟨hvalid, hunseen⟩
      obtain ⟨hid, hids⟩ := List.forall_mem_cons.mp hvalid.ids
      obtain ⟨hnot, hnodup⟩ := List.nodup_cons.mp hvalid.nodup
      obtain ⟨hedge, hends⟩ := List.forall_mem_cons.mp hvalid.ends
      obtain ⟨hnew, hrest⟩ := List.forall_mem_cons.mp hunseen
      refine ⟨(), validateIdentifier_ok_iff.mpr hid, hnew, (), (checkEdge_ok_iff h edge).mpr hedge,
        ⟨hids, hnodup, hends⟩, ?_⟩
      intro e he
      rw [List.mem_cons, not_or]
      exact ⟨fun heq => hnot (List.mem_map.mpr ⟨e, he, heq⟩), hrest e he⟩

/-! ## The worklist -/

/-- One edge or more leads from a node to another, or to itself. -/
def hasEdge (w : WorkflowDefinition) (a b : String) : Prop := ∃ e ∈ w.edges, e.source = a ∧ e.target = b

/-- The worklist loop without a bound that is sure to be enough: `none` where `fuel` is used up. -/
def worklist (edges : List WorkflowEdge) :
    (fuel : Nat) → (ready : List String) → (remaining : String → Int) → (visited : Nat) → Option Nat
  | _, [], _, visited => some visited
  | 0, _ :: _, _, _ => none
  | fuel + 1, current :: ready, remaining, visited =>
    let (ready', remaining') := releaseTargets (outgoing edges current) (ready, remaining)
    worklist edges fuel ready' remaining' (visited + 1)

/-- Every node is popped at most once, so as many turns as there are nodes are enough. -/
theorem worklist_eq {w : WorkflowDefinition} (htarget : ∀ e ∈ w.edges, e.target ∈ w.nodes.map (·.id))
    (fuel bound : Nat) (order ready : List String) (remaining : String → Int)
    (h : KahnInv w order ready remaining) (hfuel : w.nodes.length ≤ fuel + order.length)
    (hbound : w.nodes.length ≤ bound + order.length) :
    worklist w.edges fuel ready remaining order.length =
      some (countVisited w.edges (bound + 1) ready remaining order.length) := by
  have hlen : (order ++ ready).length ≤ w.nodes.length := by
    simpa using (List.subperm_of_subset h.nodup h.mem).length_le
  rw [List.length_append] at hlen
  induction fuel generalizing order ready remaining bound with
  | zero =>
    cases ready with
    | nil => rfl
    | cons c ready =>
      rw [List.length_cons] at hlen
      omega
  | succ fuel ih =>
    cases ready with
    | nil => rfl
    | cons c ready =>
      rw [List.length_cons] at hlen
      cases bound with
      | zero => omega
      | succ bound =>
        have hpop := kahn_pop htarget h
        have hlen' : (order ++ [c]).length = order.length + 1 := by simp
        simp only [worklist, countVisited]
        rw [← hlen']
        apply ih bound _ _ _ hpop (by omega) (by omega)
        rw [← List.length_append]
        simpa using (List.subperm_of_subset hpop.nodup hpop.mem).length_le

/-- A graph without a cycle is visited completely. -/
theorem visited_all_of_acyclic {w : WorkflowDefinition} (hnd : (w.nodes.map (·.id)).Nodup)
    (hends : ∀ e ∈ w.edges, e.source ∈ w.nodes.map (·.id) ∧ e.target ∈ w.nodes.map (·.id))
    (hacyclic : Acyclic (hasEdge w)) :
    countVisited w.edges (w.nodes.length + 1) (roots w).reverse (incomingCount w.edges) 0 = w.nodes.length := by
  obtain ⟨order, remaining, hinv, hlen⟩ :=
    countVisited_spec (fun e he => (hends e he).2) (w.nodes.length + 1) [] _ _ (kahn_start hnd) (by simp)
  rw [List.length_nil] at hlen
  rw [hlen]
  have hmem : order ⊆ w.nodes.map (·.id) := by simpa using hinv.mem
  have hnodup : order.Nodup := by simpa using hinv.nodup
  have hle : order.length ≤ w.nodes.length := by simpa using (List.subperm_of_subset hnodup hmem).length_le
  by_contra hne
  -- The nodes left out, each with an edge from another of them.
  have hleft : (w.nodes.map (·.id)).filter (· ∉ order) ≠ [] := by
    intro hnil
    rw [List.filter_eq_nil_iff] at hnil
    have hsub : w.nodes.map (·.id) ⊆ order := fun n hn => by simpa using hnil n hn
    have := (List.subperm_of_subset hnd hsub).length_le
    rw [List.length_map] at this
    omega
  obtain ⟨n, hn, hsource⟩ := hacyclic.exists_source hleft
  simp only [List.mem_filter, decide_eq_true_eq] at hn hsource
  have hopen : remaining n ≠ 0 := fun hz => hn.2 (by simpa using hinv.complete n hn.1 hz)
  rw [hinv.remaining_eq n] at hopen
  have hpos : openEdges w.edges order n ≠ [] := by
    intro hnil
    rw [hnil] at hopen
    exact hopen rfl
  obtain ⟨e, he⟩ := List.exists_mem_of_ne_nil _ hpos
  simp only [openEdges, List.mem_filter, decide_eq_true_eq] at he
  exact hsource e.source ⟨(hends e he.1).1, he.2.2⟩ ⟨e, he.1, rfl, he.2.1⟩

theorem checkAcyclic_ok_iff {w : WorkflowDefinition} (hnd : (w.nodes.map (·.id)).Nodup)
    (hends : ∀ e ∈ w.edges, e.source ∈ w.nodes.map (·.id) ∧ e.target ∈ w.nodes.map (·.id)) :
    checkAcyclic w = .ok () ↔ Acyclic (hasEdge w) := by
  constructor
  · intro h
    obtain ⟨rank, -, hrank⟩ := checkAcyclic_rank hnd (fun e he => (hends e he).2) h
    apply acyclic_of_rank rank
    rintro a b ⟨e, he, rfl, rfl⟩
    exact hrank e he
  · intro hacyclic
    have hvisited := visited_all_of_acyclic hnd hends hacyclic
    unfold checkAcyclic
    split
    · next hnil =>
      have hedges : w.edges = [] := by
        rw [List.eq_nil_iff_forall_not_mem]
        intro e he
        simpa [hnil] using (hends e he).1
      simp [hedges]
    · next hnodes =>
      rw [ite_error_eq_ok_iff]
      constructor
      · -- Without a root nothing would be visited.
        intro hroots
        rw [hroots] at hvisited
        have hzero : (0 : Nat) = w.nodes.length := hvisited
        exact hnodes (List.length_eq_zero_iff.mp hzero.symm)
      · simp [hvisited]

/-! ## The whole check -/

/-- What the claim of a valid workflow comes to. -/
structure GraphValid (w : WorkflowDefinition) : Prop where
  nodes : NodesValid w.nodes
  edges : EdgesValid w.nodes w.edges
  acyclic : Acyclic (hasEdge w)

theorem EdgeValid.ends {nodes : List WorkflowNode} {e : WorkflowEdge} (h : EdgeValid nodes e) :
    e.source ∈ nodes.map (·.id) ∧ e.target ∈ nodes.map (·.id) := by
  obtain ⟨⟨target, htarget, htid⟩, source, hsource, hsid, -⟩ := h
  exact ⟨List.mem_map.mpr ⟨source, hsource, hsid⟩, List.mem_map.mpr ⟨target, htarget, htid⟩⟩

/-- The check accepts exactly the valid graphs, and its worklist ends after as many turns as there are nodes. -/
theorem validation_exact (w : WorkflowDefinition) (hnodes : w.nodes.length ≤ MAX_WORKFLOW_NODES)
    (hedges : w.edges.length ≤ MAX_WORKFLOW_EDGES) :
    (validateWorkflowGraph w = .ok () ↔ GraphValid w) ∧
    ∀ table, checkNodes .empty w.nodes = .ok table → checkEdges table [] w.edges = .ok () →
      ∀ fuel, w.nodes.length ≤ fuel →
        worklist w.edges fuel (roots w).reverse (incomingCount w.edges) 0 =
          some (countVisited w.edges (w.nodes.length + 1) (roots w).reverse (incomingCount w.edges) 0) := by
  have hsizes : ¬ w.nodes.length > MAX_WORKFLOW_NODES ∧ ¬ w.edges.length > MAX_WORKFLOW_EDGES := by omega
  constructor
  · rw [validateWorkflowGraph, if_neg hsizes.1, if_neg hsizes.2]
    simp only [bind_eq_ok_iff]
    constructor
    · rintro ⟨table, htable, _, hchecked, hacyclic⟩
      obtain ⟨hvalid, -⟩ := (checkNodes_ok_iff _ _).mp ⟨table, htable⟩
      obtain ⟨hedge, -⟩ := (checkEdges_ok_iff htable _ _).mp hchecked
      exact ⟨hvalid, hedge, (checkAcyclic_ok_iff hvalid.nodup fun e he => (hedge.ends e he).ends).mp hacyclic⟩
    · intro hvalid
      obtain ⟨table, htable⟩ := (checkNodes_ok_iff w.nodes .empty).mpr ⟨hvalid.nodes, by simp⟩
      exact ⟨table, htable, (), (checkEdges_ok_iff htable _ _).mpr ⟨hvalid.edges, by simp⟩,
        (checkAcyclic_ok_iff hvalid.nodes.nodup fun e he => (hvalid.edges.ends e he).ends).mpr hvalid.acyclic⟩
  · intro table htable hchecked fuel hfuel
    obtain ⟨hvalid, -⟩ := (checkNodes_ok_iff _ _).mp ⟨table, htable⟩
    obtain ⟨hedge, -⟩ := (checkEdges_ok_iff htable _ _).mp hchecked
    exact worklist_eq (fun e he => (hedge.ends e he).ends.2) fuel w.nodes.length [] _ _ (kahn_start hvalid.nodup)
      (by simpa using hfuel) (by simp)

/-- Two edges from one node to another. -/
def doubleEdge : WorkflowDefinition where
  nodes := [⟨"check", "", .known .condition, none⟩, ⟨"call", "", .known .http, none⟩]
  edges := [⟨"yes", "check", "call", .known .onTrue⟩, ⟨"no", "check", "call", .known .onFalse⟩]

theorem doubleEdge_valid : validateWorkflowGraph doubleEdge = .ok () ∧ GraphValid doubleEdge := by
  have hok : validateWorkflowGraph doubleEdge = .ok () := by rfl
  exact ⟨hok, (validation_exact doubleEdge (by decide) (by decide)).1.mp hok⟩

end SmartTest.Workflow
