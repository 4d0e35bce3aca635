import SmartTest.Workflow.Threads

/-!
# What a workflow means

A node runs when it has no incoming edge or one of them is active, and is skipped otherwise.
It sees the variables of the waves before its own. Neither the order in which the nodes of
a wave finish nor the number of workers shows in what `_run_graph` returns.
-/

open SmartTest.Lib

namespace SmartTest.Workflow

variable {ν : Type}

def skippedExecution : NodeExecution ν := ⟨.skipped, .empty, .empty, none⟩

def resultOf (node : WorkflowNode) (x : NodeExecution ν) : NodeResult ν :=
  ⟨node.id, node.name, node.type, x.status, x.details⟩

/-- The calls of wave `k` in the order in which their nodes are declared. -/
def callsOf (w : WorkflowDefinition) (calls : List (NodeCall ν)) (k : Nat) : List (NodeCall ν) :=
  w.nodes.flatMap fun node => calls.filter fun c => c.wave = k ∧ c.node = node

/-- The initial variables, updated by what the nodes of the waves before `k` extracted. -/
def variablesBefore (behave : Behaviour ν) (w : WorkflowDefinition) (calls : List (NodeCall ν))
    (initial : Dict String ν) : Nat → Dict String ν
  | 0 => initial
  | k + 1 => (callsOf w calls k).foldl (fun acc c => acc.update (behave c.node c.snapshot).extracted)
      (variablesBefore behave w calls initial k)

/-- What a returned run says of its workflow. -/
structure Meaning (behave : Behaviour ν) (w : WorkflowDefinition) (initial : Dict String ν) (waves : Nat)
    (calls : List (NodeCall ν)) (executions : Dict String (NodeExecution ν)) (g : GraphRun ν) : Prop where
  executed : ∀ node ∈ w.nodes, (∃ c ∈ calls, c.node = node) ↔ incoming w node.id = [] ∨
    ∃ e ∈ incoming w node.id, ∃ x, executions.get? e.source = some x ∧ edgeActive e x = true
  ran : ∀ c ∈ calls, c.node ∈ w.nodes ∧
    executions.get? c.node.id = some (behave c.node c.snapshot).execution
  skipped : ∀ node ∈ w.nodes, (∀ c ∈ calls, c.node ≠ node) → executions.get? node.id = some skippedExecution
  once : (calls.map (·.node.id)).Nodup
  resolved : ∀ c ∈ calls, ∀ e ∈ incoming w c.node.id, ∃ x,
    c.executions.get? e.source = some x ∧ executions.get? e.source = some x
  saw : ∀ c ∈ calls, c.wave < waves ∧ c.snapshot = variablesBefore behave w calls initial c.wave
  context : g.context = variablesBefore behave w calls initial waves
  results : g.orderedResults =
    w.nodes.filterMap fun node => (executions.get? node.id).map fun x => (node.id, resultOf node x)
  failed : g.failed = true ↔ ∃ entry ∈ g.orderedResults, entry.2.status = .failed

/-! ## Why a node has its execution -/

inductive Resolved (behave : Behaviour ν) (w : WorkflowDefinition) (calls : List (NodeCall ν))
    (executions : Dict String (NodeExecution ν)) (n : String) (x : NodeExecution ν) : Prop
  | ran (c : NodeCall ν) (hcall : c ∈ calls) (hid : c.node.id = n)
      (hx : x = (behave c.node c.snapshot).execution)
      (hgo : incoming w n = [] ∨ someActive executions (incoming w n) = true)
  | skipped (hcalls : ∀ c ∈ calls, c.node.id ≠ n) (hx : x = skippedExecution)
      (hedges : incoming w n ≠ []) (hidle : someActive executions (incoming w n) = false)

/-- What holds before wave `k`. -/
structure Accounted (behave : Behaviour ν) (w : WorkflowDefinition) (initial : Dict String ν) (k : Nat)
    (calls : List (NodeCall ν)) (p : Progress ν) : Prop where
  pending : ∀ n, n ∈ p.pending ↔ n ∈ w.nodes.map (·.id) ∧ ¬ Settled p n
  nodup : p.pending.Nodup
  known : ∀ n, Settled p n → n ∈ w.nodes.map (·.id)
  result : ∀ node ∈ w.nodes, p.rawResults.get? node.id = (p.executions.get? node.id).map (resultOf node)
  sources : ∀ n, Settled p n → ∀ e ∈ incoming w n, Settled p e.source
  resolved : ∀ n x, p.executions.get? n = some x → Resolved behave w calls p.executions n x
  once : (calls.map (·.node.id)).Nodup
  declared : ∀ c ∈ calls, c.node ∈ w.nodes ∧ Settled p c.node.id
  before : ∀ c ∈ calls, ∀ e ∈ incoming w c.node.id, ∃ x,
    c.executions.get? e.source = some x ∧ p.executions.get? e.source = some x
  saw : ∀ c ∈ calls, c.wave < k ∧ c.snapshot = variablesBefore behave w calls initial c.wave
  context : p.context = variablesBefore behave w calls initial k

variable {behave : Behaviour ν} {w : WorkflowDefinition} {initial : Dict String ν} {k : Nat}
  {calls : List (NodeCall ν)} {p q : Progress ν}

theorem node_eq_of_id (hw : WellFormed w) {a b : WorkflowNode} (ha : a ∈ w.nodes) (hb : b ∈ w.nodes)
    (h : a.id = b.id) : a = b := List.inj_on_of_nodup_map hw.nodup ha hb h

/-- Entries are only added. -/
def Extends (p q : Progress ν) : Prop := ∀ n x, p.executions.get? n = some x → q.executions.get? n = some x

theorem Extends.settled (h : Extends p q) {n : String} (hn : Settled p n) : Settled q n := by
  obtain ⟨x, hx⟩ := Option.isSome_iff_exists.mp hn
  exact Option.isSome_iff_exists.mpr ⟨x, h n x hx⟩

theorem Extends.someActive_eq (h : Extends p q) {edges : List WorkflowEdge}
    (hdone : ∀ e ∈ edges, Settled p e.source) :
    someActive q.executions edges = someActive p.executions edges := by
  unfold someActive
  apply Bool.eq_iff_iff.mpr
  simp only [List.any_eq_true]
  constructor
  · rintro ⟨e, he, hactive⟩
    obtain ⟨x, hx⟩ := Option.isSome_iff_exists.mp (hdone e he)
    rw [h _ _ hx] at hactive
    exact ⟨e, he, by rwa [hx]⟩
  · rintro ⟨e, he, hactive⟩
    obtain ⟨x, hx⟩ := Option.isSome_iff_exists.mp (hdone e he)
    rw [hx] at hactive
    exact ⟨e, he, by rwa [h _ _ hx]⟩

/-- An explanation stays good while entries and calls of other nodes are added. -/
theorem Resolved.extend {calls' : List (NodeCall ν)} {n : String} {x : NodeExecution ν}
    (h : Resolved behave w calls p.executions n x) (hext : Extends p q)
    (hdone : ∀ e ∈ incoming w n, Settled p e.source) (hcalls : calls ⊆ calls')
    (hnew : ∀ c ∈ calls', c ∈ calls ∨ c.node.id ≠ n) : Resolved behave w calls' q.executions n x := by
  cases h with
  | ran c hcall hid hx hgo =>
    refine .ran c (hcalls hcall) hid hx ?_
    rwa [hext.someActive_eq hdone]
  | skipped hnone hx hedges hidle =>
    refine .skipped ?_ hx hedges ?_
    · intro c hc
      rcases hnew c hc with hold | hother
      · exact hnone c hold
      · exact hother
    · rwa [hext.someActive_eq hdone]

theorem accounted_start (hw : WellFormed w) : Accounted behave w initial 0 [] (startProgress w initial) where
  pending n := by simp [startProgress, Settled]
  nodup := hw.nodup
  known n h := by simp [startProgress, Settled] at h
  result node _ := by simp [startProgress]
  sources n h := by simp [startProgress, Settled] at h
  resolved n x h := by simp [startProgress] at h
  once := by simp
  declared := by simp
  before := by simp
  saw := by simp
  context := rfl

/-! ## Skipping keeps the account -/

theorem Accounted.skip (hw : WellFormed w) (h : Accounted behave w initial k calls p) {node : WorkflowNode}
    (hnode : node ∈ w.nodes) (hskip : skippable w p node = true) :
    Accounted behave w initial k calls (skip p node) := by
  obtain ⟨hpending, hedges, hdone, hidle⟩ := skippable_iff.mp hskip
  have hopen : ¬ Settled p node.id := ((h.pending _).mp hpending).2
  have hget : ∀ n, (Workflow.skip p node).executions.get? n =
      if n = node.id then some skippedExecution else p.executions.get? n := fun n => Dict.get?_set _ _ _ _
  have hset : ∀ n, Settled (Workflow.skip p node) n ↔ n = node.id ∨ Settled p n :=
    fun n => settled_settle p node.id n _ _
  have hext : Extends p (Workflow.skip p node) := by
    intro n x hx
    rw [hget, if_neg, hx]
    rintro rfl
    exact hopen (by simp [Settled, hx])
  refine ⟨?_, h.nodup.erase _, ?_, ?_, ?_, ?_, h.once, ?_, ?_, h.saw, h.context⟩
  · intro n
    show n ∈ p.pending.erase node.id ↔ _
    rw [h.nodup.mem_erase_iff, h.pending, hset]
    tauto
  · intro n hn
    rcases (hset n).mp hn with rfl | hold
    · exact List.mem_map_of_mem hnode
    · exact h.known n hold
  · intro other hother
    show (p.rawResults.set node.id _).get? other.id = _
    rw [hget, Dict.get?_set]
    by_cases hid : other.id = node.id
    · obtain rfl := node_eq_of_id hw hother hnode hid
      simp [resultOf, skippedExecution]
    · rw [if_neg hid, if_neg hid, h.result other hother]
  · intro n hn e he
    rcases (hset n).mp hn with rfl | hold
    · exact hext.settled (hdone e he)
    · exact hext.settled (h.sources n hold e he)
  · intro n x hx
    rw [hget] at hx
    split at hx
    · next heq =>
      subst heq
      obtain rfl := Option.some.inj hx
      refine .skipped ?_ rfl hedges ?_
      · intro c hc hid
        exact hopen (hid ▸ (h.declared c hc).2)
      · rwa [hext.someActive_eq hdone]
    · have hold : Settled p n := by simp [Settled, hx]
      exact (h.resolved n x hx).extend hext (h.sources n hold) (fun _ hc => hc) (fun _ hc => .inl hc)
  · intro c hc
    exact ⟨(h.declared c hc).1, hext.settled (h.declared c hc).2⟩
  · intro c hc e he
    obtain ⟨x, hcall, hx⟩ := h.before c hc e he
    exact ⟨x, hcall, hext _ _ hx⟩

theorem Accounted.skipPass (hw : WellFormed w) {nodes : List WorkflowNode} (hnodes : ∀ node ∈ nodes, node ∈ w.nodes)
    (changed : Bool) (h : Accounted behave w initial k calls p) :
    Accounted behave w initial k calls (skipPass w nodes (p, changed)).1 := by
  induction nodes generalizing p changed with
  | nil => exact h
  | cons node rest ih =>
    obtain ⟨hnode, hrest⟩ := List.forall_mem_cons.mp hnodes
    unfold Workflow.skipPass
    split
    · next hskip => exact ih hrest true (h.skip hw hnode hskip)
    · exact ih hrest changed h

theorem Accounted.skipLoop (hw : WellFormed w) (fuel : Nat) (h : Accounted behave w initial k calls p) :
    Accounted behave w initial k calls (skipLoop w fuel p) := by
  induction fuel generalizing p with
  | zero => exact h
  | succ fuel ih =>
    have hpass := h.skipPass hw (fun _ hn => hn) false
    simp only [Workflow.skipLoop]
    split
    · exact ih hpass
    · exact hpass

/-! ## Recording a wave -/

theorem record_other {l : List (WorkflowNode × NodeExecution ν × NodeResult ν)} {n : String}
    (h : n ∉ l.map fun x => x.1.id) :
    (record p l).executions.get? n = p.executions.get? n ∧ (record p l).rawResults.get? n = p.rawResults.get? n := by
  induction l generalizing p with
  | nil => exact ⟨rfl, rfl⟩
  | cons x rest ih =>
    obtain ⟨node, execution, result⟩ := x
    simp only [List.map_cons, List.mem_cons, not_or] at h
    unfold record
    obtain ⟨hexecutions, hresults⟩ := ih h.2
    rw [hexecutions, hresults]
    exact ⟨Dict.get?_set_ne _ _ h.1, Dict.get?_set_ne _ _ h.1⟩

theorem record_mem {l : List (WorkflowNode × NodeExecution ν × NodeResult ν)} (hnodup : (l.map fun x => x.1.id).Nodup)
    {x : WorkflowNode × NodeExecution ν × NodeResult ν} (hx : x ∈ l) :
    (record p l).executions.get? x.1.id = some x.2.1 ∧ (record p l).rawResults.get? x.1.id = some x.2.2 := by
  induction l generalizing p with
  | nil => simp at hx
  | cons y rest ih =>
    obtain ⟨hnot, hrest⟩ := List.nodup_cons.mp hnodup
    unfold record
    rcases List.mem_cons.mp hx with rfl | hin
    · obtain ⟨hexecutions, hresults⟩ := record_other (p := { p with
        executions := p.executions.set x.1.id x.2.1
        rawResults := p.rawResults.set x.1.id x.2.2
        pending := p.pending.erase x.1.id }) hnot
      rw [hexecutions, hresults]
      exact ⟨Dict.get?_set_self _ _ _, Dict.get?_set_self _ _ _⟩
    · exact ih hrest hin

theorem record_pending {l : List (WorkflowNode × NodeExecution ν × NodeResult ν)} (hnodup : p.pending.Nodup) :
    (record p l).pending.Nodup ∧ ∀ n, n ∈ (record p l).pending ↔ n ∈ p.pending ∧ n ∉ l.map fun x => x.1.id := by
  induction l generalizing p with
  | nil => exact ⟨hnodup, by simp [record]⟩
  | cons x rest ih =>
    unfold record
    obtain ⟨hrest, hmem⟩ := ih (p := { p with
      executions := p.executions.set x.1.id x.2.1
      rawResults := p.rawResults.set x.1.id x.2.2
      pending := p.pending.erase x.1.id }) (hnodup.erase _)
    refine ⟨hrest, fun n => ?_⟩
    rw [hmem, hnodup.mem_erase_iff, List.map_cons, List.mem_cons]
    tauto

theorem record_context (p : Progress ν) (l : List (WorkflowNode × NodeExecution ν × NodeResult ν)) :
    (record p l).context = p.context := by
  induction l generalizing p with
  | nil => rfl
  | cons x rest ih =>
    unfold record
    rw [ih]

theorem map_zip_map {α β γ : Type} (f : α → β) (g : α → γ) (l : List α) :
    (l.zip (l.map f)).map (fun x => g x.1) = l.map g := by
  induction l with
  | nil => rfl
  | cons a rest ih => simp [ih]

/-- The nodes of a wave leave their executions, and all else is as before. -/
theorem closeWave_get (behave : Behaviour ν) (hnodup : ((ready w p).map (·.id)).Nodup) :
    let q := closeWave w p (ready w p) ((ready w p).map (executeNode behave p.context))
    (∀ node ∈ ready w p, q.executions.get? node.id = some (behave node p.context).execution ∧
      q.rawResults.get? node.id = some (resultOf node (behave node p.context).execution)) ∧
    ∀ n, n ∉ (ready w p).map (·.id) →
      q.executions.get? n = p.executions.get? n ∧ q.rawResults.get? n = p.rawResults.get? n := by
  intro q
  set l := (ready w p).zip ((ready w p).map (executeNode behave p.context)) with hl
  have hids : (l.map fun x => x.1.id) = (ready w p).map (·.id) := map_zip_map _ _ _
  constructor
  · intro node hnode
    have hin : (node, executeNode behave p.context node) ∈ l := (mem_zip_map _ _ _).mpr ⟨hnode, rfl⟩
    exact record_mem (hids ▸ hnodup) hin
  · intro n hn
    exact record_other (hids ▸ hn)

theorem closeWave_pending (behave : Behaviour ν) (w : WorkflowDefinition) (hnodup : p.pending.Nodup) :
    let q := closeWave w p (ready w p) ((ready w p).map (executeNode behave p.context))
    q.pending.Nodup ∧ ∀ n, n ∈ q.pending ↔ n ∈ p.pending ∧ n ∉ (ready w p).map (·.id) := by
  intro q
  have h := record_pending (l := (ready w p).zip ((ready w p).map (executeNode behave p.context))) hnodup
  rw [map_zip_map] at h
  exact h

/-! ## The variables after a wave -/

theorem callsOf_append_later {new : List (NodeCall ν)} {j : Nat} (h : ∀ c ∈ new, j < c.wave) :
    callsOf w (calls ++ new) j = callsOf w calls j := by
  have hnone : ∀ node, new.filter (fun c => c.wave = j ∧ c.node = node) = [] := by
    intro node
    rw [List.filter_eq_nil_iff]
    intro c hc
    have := h c hc
    simp only [decide_eq_true_eq, not_and]
    omega
  simp only [callsOf, List.filter_append, hnone, List.append_nil]

theorem variablesBefore_append {new : List (NodeCall ν)} {j : Nat} (h : ∀ c ∈ new, j ≤ c.wave) :
    variablesBefore behave w (calls ++ new) initial j = variablesBefore behave w calls initial j := by
  induction j with
  | zero => rfl
  | succ j ih =>
    simp only [variablesBefore]
    rw [callsOf_append_later h, ih fun c hc => Nat.le_of_succ_le (h c hc)]

theorem filter_callOf {nodes : List WorkflowNode} (hnodup : nodes.Nodup) (node : WorkflowNode) :
    (nodes.map (callOf k p)).filter (fun c => c.wave = k ∧ c.node = node) =
      if node ∈ nodes then [callOf k p node] else [] := by
  induction nodes with
  | nil => simp
  | cons a rest ih =>
    obtain ⟨hnot, hrest⟩ := List.nodup_cons.mp hnodup
    rw [List.map_cons, List.filter_cons, ih hrest]
    by_cases ha : a = node
    · subst ha
      simp [callOf, hnot]
    · simp [callOf, ha, Ne.symm ha]

theorem callsOf_append_now {nodes : List WorkflowNode} (hnodup : nodes.Nodup) (h : ∀ c ∈ calls, c.wave < k) :
    callsOf w (calls ++ nodes.map (callOf k p)) k = (w.nodes.filter (· ∈ nodes)).map (callOf k p) := by
  have hnone : ∀ node, calls.filter (fun c => c.wave = k ∧ c.node = node) = [] := by
    intro node
    rw [List.filter_eq_nil_iff]
    intro c hc
    have := h c hc
    simp only [decide_eq_true_eq, not_and]
    omega
  simp only [callsOf, List.filter_append, hnone, List.nil_append, filter_callOf hnodup]
  generalize w.nodes = declared
  induction declared with
  | nil => rfl
  | cons a rest ih =>
    rw [List.flatMap_cons, ih, List.filter_cons]
    by_cases ha : a ∈ nodes
    · simp [ha]
    · simp [ha]

theorem mergeContext_eq {nodes : List WorkflowNode} {executions : Dict String (NodeExecution ν)}
    {f : WorkflowNode → NodeExecution ν} (context : Dict String ν)
    (h : ∀ node ∈ nodes, executions.get? node.id = some (f node)) :
    mergeContext nodes executions context = nodes.foldl (fun acc node => acc.update (f node).extracted) context := by
  unfold mergeContext
  induction nodes generalizing context with
  | nil => rfl
  | cons node rest ih =>
    obtain ⟨hnode, hrest⟩ := List.forall_mem_cons.mp h
    rw [List.foldl_cons, List.foldl_cons, ih _ hrest, hnode]
    rfl

theorem ready_ids_nodup (hw : WellFormed w) (p : Progress ν) : ((ready w p).map (·.id)).Nodup :=
  hw.nodup.sublist (List.filter_sublist.map _)

theorem mem_ready {node : WorkflowNode} (h : node ∈ ready w p) :
    node ∈ w.nodes ∧ node.id ∈ p.pending ∧ (∀ e ∈ incoming w node.id, Settled p e.source) ∧
      (incoming w node.id = [] ∨ someActive p.executions (incoming w node.id) = true) := by
  obtain ⟨hnode, hready⟩ := List.mem_filter.mp h
  exact ⟨hnode, isReady_iff.mp hready⟩

theorem closeWave_context (hw : WellFormed w) (h : Accounted behave w initial k calls p) :
    (closeWave w p (ready w p) ((ready w p).map (executeNode behave p.context))).context =
      variablesBefore behave w (calls ++ (ready w p).map (callOf k p)) initial (k + 1) := by
  have hids := ready_ids_nodup hw p
  have hget := (closeWave_get behave hids).1
  have hwave : ∀ c ∈ (ready w p).map (callOf k p), k ≤ c.wave := by
    intro c hc
    obtain ⟨node, -, rfl⟩ := List.mem_map.mp hc
    exact Nat.le_refl k
  simp only [variablesBefore]
  rw [callsOf_append_now hids.of_map (fun c hc => (h.saw c hc).1), variablesBefore_append hwave, ← h.context,
    List.foldl_map]
  simp only [closeWave] at hget ⊢
  rw [record_context]
  exact mergeContext_eq p.context fun node hnode => (hget node (by simpa using (List.mem_filter.mp hnode).2)).1

/-- A closed wave adds its own calls to the account. -/
theorem Accounted.close (hw : WellFormed w) (h : Accounted behave w initial k calls p) :
    Accounted behave w initial (k + 1) (calls ++ (ready w p).map (callOf k p))
      (closeWave w p (ready w p) ((ready w p).map (executeNode behave p.context))) := by
  have hids := ready_ids_nodup hw p
  obtain ⟨hran, hother⟩ := closeWave_get behave hids
  obtain ⟨hpendingNodup, hpending⟩ := closeWave_pending behave w h.nodup
  have hcontext := closeWave_context hw h
  set q := closeWave w p (ready w p) ((ready w p).map (executeNode behave p.context)) with hq
  have hopen : ∀ n, n ∈ (ready w p).map (·.id) → ¬ Settled p n := by
    intro n hn
    obtain ⟨node, hnode, rfl⟩ := List.mem_map.mp hn
    exact ((h.pending _).mp (mem_ready hnode).2.1).2
  have hext : Extends p q := by
    intro n x hx
    rw [(hother n fun hn => hopen n hn (by simp [Settled, hx])).1, hx]
  have hset : ∀ n, Settled q n ↔ n ∈ (ready w p).map (·.id) ∨ Settled p n := by
    intro n
    by_cases hn : n ∈ (ready w p).map (·.id)
    · obtain ⟨node, hnode, rfl⟩ := List.mem_map.mp hn
      simp [Settled, (hran node hnode).1, hn]
    · simp only [Settled, (hother n hn).1, hn, false_or]
  have hlater : ∀ c ∈ (ready w p).map (callOf k p), ∀ j, j ≤ k → j ≤ c.wave := by
    intro c hc j hj
    obtain ⟨node, -, rfl⟩ := List.mem_map.mp hc
    exact hj
  refine ⟨?_, hpendingNodup, ?_, ?_, ?_, ?_, ?_, ?_, ?_, ?_, hcontext⟩
  · intro n
    rw [hpending, h.pending, hset]
    tauto
  · intro n hn
    rcases (hset n).mp hn with hnew | hold
    · obtain ⟨node, hnode, rfl⟩ := List.mem_map.mp hnew
      exact List.mem_map_of_mem (mem_ready hnode).1
    · exact h.known n hold
  · intro node hnode
    by_cases hin : node.id ∈ (ready w p).map (·.id)
    · obtain ⟨other, hready, hid⟩ := List.mem_map.mp hin
      obtain rfl := node_eq_of_id hw (mem_ready hready).1 hnode hid
      rw [(hran other hready).1, (hran other hready).2]
      rfl
    · rw [(hother _ hin).1, (hother _ hin).2, h.result node hnode]
  · intro n hn e he
    rcases (hset n).mp hn with hnew | hold
    · obtain ⟨node, hnode, rfl⟩ := List.mem_map.mp hnew
      exact hext.settled ((mem_ready hnode).2.2.1 e he)
    · exact hext.settled (h.sources n hold e he)
  · intro n x hx
    by_cases hin : n ∈ (ready w p).map (·.id)
    · obtain ⟨node, hnode, rfl⟩ := List.mem_map.mp hin
      obtain ⟨-, -, hdone, hgo⟩ := mem_ready hnode
      rw [(hran node hnode).1] at hx
      refine .ran (callOf k p node) (List.mem_append_right _ (List.mem_map_of_mem hnode)) rfl
        (Option.some.inj hx).symm ?_
      rwa [hext.someActive_eq hdone]
    · rw [(hother n hin).1] at hx
      have hold : Settled p n := by simp [Settled, hx]
      refine (h.resolved n x hx).extend hext (h.sources n hold) (List.subset_append_left _ _) ?_
      intro c hc
      rcases List.mem_append.mp hc with hc | hc
      · exact .inl hc
      · obtain ⟨node, hnode, rfl⟩ := List.mem_map.mp hc
        refine .inr ?_
        rintro rfl
        exact hin (List.mem_map_of_mem hnode)
  · rw [List.map_append, List.map_map]
    refine List.Nodup.append h.once hids ?_
    intro n hold hnew
    obtain ⟨c, hc, rfl⟩ := List.mem_map.mp hold
    exact hopen _ hnew (h.declared c hc).2
  · intro c hc
    rcases List.mem_append.mp hc with hc | hc
    · exact ⟨(h.declared c hc).1, hext.settled (h.declared c hc).2⟩
    · obtain ⟨node, hnode, rfl⟩ := List.mem_map.mp hc
      exact ⟨(mem_ready hnode).1, (hset _).mpr (.inl (List.mem_map_of_mem hnode))⟩
  · intro c hc e he
    rcases List.mem_append.mp hc with hc | hc
    · obtain ⟨x, hcall, hx⟩ := h.before c hc e he
      exact ⟨x, hcall, hext _ _ hx⟩
    · obtain ⟨node, hnode, rfl⟩ := List.mem_map.mp hc
      obtain ⟨x, hx⟩ := Option.isSome_iff_exists.mp ((mem_ready hnode).2.2.1 e he)
      exact ⟨x, hx, hext _ _ hx⟩
  · intro c hc
    rcases List.mem_append.mp hc with hc | hc
    · obtain ⟨hlt, hsnapshot⟩ := h.saw c hc
      refine ⟨Nat.lt_succ_of_lt hlt, ?_⟩
      rw [variablesBefore_append fun d hd => hlater d hd _ (Nat.le_of_lt hlt)]
      exact hsnapshot
    · obtain ⟨node, hnode, rfl⟩ := List.mem_map.mp hc
      refine ⟨Nat.lt_succ_self k, ?_⟩
      show p.context = _
      rw [h.context]
      exact (variablesBefore_append fun d hd => hlater d hd k (Nat.le_refl k)).symm

/-! ## The account of a run -/

def Explained (behave : Behaviour ν) (w : WorkflowDefinition) (initial : Dict String ν) (s : GraphThreads ν) : Prop :=
  match s.phase with
  | .waves => Accounted behave w initial s.wave s.calls s.progress
  | .pool _ nodes tasks => TaskPool.Sound (executeNode behave s.progress.context) nodes tasks ∧
      nodes = ready w s.progress ∧ ∃ earlier, Accounted behave w initial s.wave earlier s.progress ∧
        s.calls = earlier ++ (nodes.take tasks.taken).map (callOf s.wave s.progress)
  | .returned g => g = graphRun w s.progress ∧ s.progress.pending = [] ∧
      Accounted behave w initial s.wave s.calls s.progress
  | .raised _ => True

variable {m : Int} {s s' : GraphThreads ν}

theorem Explained.main (hw : WellFormed w) (h : Explained behave w initial s) (hstep : mainStep m w s = some s') :
    Explained behave w initial s' := by
  unfold mainStep at hstep
  split at hstep
  · next hphase =>
    simp only [Explained, hphase] at h
    split at hstep
    · next hdone =>
      obtain rfl := Option.some.inj hstep
      exact ⟨rfl, hdone, h⟩
    · split at hstep
      · obtain rfl := Option.some.inj hstep
        trivial
      · next p limit nodes hok =>
        obtain rfl := Option.some.inj hstep
        obtain ⟨rfl, hnodes, -, -⟩ := openWave_ok hok
        refine ⟨TaskPool.sound_submit _ _, hnodes, s.calls, h.skipLoop hw _, ?_⟩
        simp [TaskPool.submit]
  · next limit nodes tasks hphase =>
    simp only [Explained, hphase] at h
    obtain ⟨hsound, hnodes, earlier, hearlier, hcalls⟩ := h
    obtain ⟨completed, hcollect, rfl⟩ := Option.map_eq_some_iff.mp hstep
    obtain ⟨rfl, htaken⟩ := hsound.collect_eq hcollect
    rw [htaken, List.take_length] at hcalls
    subst hnodes
    show Accounted behave w initial (s.wave + 1) s.calls _
    rw [hcalls]
    exact hearlier.close hw
  · simp at hstep

theorem Explained.worker {move : PoolMove} (h : Explained behave w initial s)
    (hstep : graphStep m behave w s (.worker move) = some s') : Explained behave w initial s' := by
  simp only [graphStep] at hstep
  split at hstep
  · next limit nodes tasks hphase =>
    simp only [Explained, hphase] at h
    obtain ⟨hsound, hnodes, earlier, hearlier, hcalls⟩ := h
    obtain ⟨tasks', hmove, rfl⟩ := Option.map_eq_some_iff.mp hstep
    refine ⟨hsound.move hmove, hnodes, earlier, hearlier, ?_⟩
    cases move with
    | start =>
      obtain ⟨node, hnext, rfl⟩ := Option.map_eq_some_iff.mp hmove
      have hnode := TaskPool.next?_eq_some hnext
      simp only [noteCall, hnext, hcalls, Option.map_some, Option.toList_some, List.take_add_one, hnode,
        List.map_append, List.map_cons, List.map_nil, List.append_assoc]
    | finish index =>
      obtain ⟨-, input, -, rfl⟩ := TaskPool.move_finish hmove
      exact hcalls
  · simp at hstep

theorem explained_of_run (hw : WellFormed w) {moves : List GraphMove}
    (hrun : runSteps (graphStep m behave w) (.init w initial) moves = some s) : Explained behave w initial s := by
  have hstart : Explained behave w initial (.init w initial) := accounted_start hw
  refine runSteps_keeps ?_ hstart hrun
  intro t move t' ht hstep
  cases move with
  | main => exact ht.main hw hstep
  | worker move => exact ht.worker hstep

/-! ## What a returned run says -/

theorem Accounted.settled_all (h : Accounted behave w initial k calls p) (hdone : p.pending = [])
    {node : WorkflowNode} (hnode : node ∈ w.nodes) : ∃ x, p.executions.get? node.id = some x := by
  rw [← Option.isSome_iff_exists]
  by_contra hopen
  have hin := (h.pending node.id).mpr ⟨List.mem_map_of_mem hnode, hopen⟩
  simp [hdone] at hin

theorem someActive_eq_true {executions : Dict String (NodeExecution ν)} {edges : List WorkflowEdge} :
    someActive executions edges = true ↔
      ∃ e ∈ edges, ∃ x, executions.get? e.source = some x ∧ edgeActive e x = true := by
  simp [someActive, Option.any_eq_true]

theorem Accounted.executed (hw : WellFormed w) (h : Accounted behave w initial k calls p) (hdone : p.pending = [])
    {node : WorkflowNode} (hnode : node ∈ w.nodes) :
    (∃ c ∈ calls, c.node = node) ↔ incoming w node.id = [] ∨ someActive p.executions (incoming w node.id) = true := by
  obtain ⟨x, hx⟩ := h.settled_all hdone hnode
  cases h.resolved node.id x hx with
  | ran c hcall hid _ hgo =>
    have heq := node_eq_of_id hw (h.declared c hcall).1 hnode hid
    exact ⟨fun _ => hgo, fun _ => ⟨c, hcall, heq⟩⟩
  | skipped hcalls _ hedges hidle =>
    constructor
    · rintro ⟨c, hcall, rfl⟩
      exact absurd rfl (hcalls c hcall)
    · rintro (hnil | hactive)
      · exact absurd hnil hedges
      · rw [hidle] at hactive
        cases hactive

theorem Accounted.ran (h : Accounted behave w initial k calls p) {c : NodeCall ν} (hc : c ∈ calls) :
    p.executions.get? c.node.id = some (behave c.node c.snapshot).execution := by
  obtain ⟨x, hx⟩ := Option.isSome_iff_exists.mp (h.declared c hc).2
  cases h.resolved _ x hx with
  | ran d hd hid hvalue _ =>
    obtain rfl := List.inj_on_of_nodup_map h.once hd hc hid
    rw [hx, hvalue]
  | skipped hcalls _ _ _ => exact absurd rfl (hcalls c hc)

theorem Accounted.skipped (h : Accounted behave w initial k calls p) (hdone : p.pending = [])
    {node : WorkflowNode} (hnode : node ∈ w.nodes) (hcalls : ∀ c ∈ calls, c.node ≠ node) (hw : WellFormed w) :
    p.executions.get? node.id = some skippedExecution := by
  obtain ⟨x, hx⟩ := h.settled_all hdone hnode
  cases h.resolved node.id x hx with
  | ran c hcall hid _ _ => exact absurd (node_eq_of_id hw (h.declared c hcall).1 hnode hid) (hcalls c hcall)
  | skipped _ hvalue _ _ => rw [hx, hvalue]

theorem Accounted.orderedResults_eq (h : Accounted behave w initial k calls p) :
    orderedResults w p = w.nodes.filterMap fun node => (p.executions.get? node.id).map fun x =>
      (node.id, resultOf node x) := by
  unfold orderedResults
  apply List.filterMap_congr
  intro node hnode
  rw [h.result node hnode, Option.map_map]
  rfl

theorem Accounted.failed (h : Accounted behave w initial k calls p) :
    (p.executions.values.any (·.status = .failed)) = true ↔
      ∃ entry ∈ orderedResults w p, entry.2.status = .failed := by
  simp only [List.any_eq_true, Dict.mem_values_iff, decide_eq_true_eq]
  rw [h.orderedResults_eq]
  constructor
  · rintro ⟨x, ⟨n, hx⟩, hfailed⟩
    obtain ⟨node, hnode, rfl⟩ := List.mem_map.mp (h.known n (by simp [Settled, hx]))
    exact ⟨(node.id, resultOf node x), List.mem_filterMap.mpr ⟨node, hnode, by simp [hx]⟩, hfailed⟩
  · rintro ⟨entry, hentry, hfailed⟩
    obtain ⟨node, -, hsome⟩ := List.mem_filterMap.mp hentry
    obtain ⟨x, hx, rfl⟩ := Option.map_eq_some_iff.mp hsome
    exact ⟨x, ⟨node.id, hx⟩, hfailed⟩

theorem Accounted.meaning (hw : WellFormed w) (h : Accounted behave w initial k calls p) (hdone : p.pending = []) :
    Meaning behave w initial k calls p.executions (graphRun w p) where
  executed node hnode := by rw [h.executed hw hdone hnode, someActive_eq_true]
  ran c hc := ⟨(h.declared c hc).1, h.ran hc⟩
  skipped node hnode hcalls := h.skipped hdone hnode hcalls hw
  once := h.once
  resolved := h.before
  saw := h.saw
  context := h.context
  results := h.orderedResults_eq
  failed := h.failed

/-- A returned run means what the graph says, and no other schedule or limit ends otherwise. -/
theorem workflow_meaning (w : WorkflowDefinition) (hvalid : validateWorkflowGraph w = .ok ())
    (behave : Behaviour ν) (initial : Dict String ν) (maxConcurrency : Int) (moves : List GraphMove)
    (s : GraphThreads ν) (g : GraphRun ν)
    (hrun : runSteps (graphStep maxConcurrency behave w) (.init w initial) moves = some s)
    (hreturned : s.phase = .returned g) :
    Meaning behave w initial s.wave s.calls s.progress.executions g ∧
      ∀ (maxConcurrency' : Int) (moves' : List GraphMove) (s' : GraphThreads ν),
        runSteps (graphStep maxConcurrency' behave w) (.init w initial) moves' = some s' →
          (∀ g', s'.phase = .returned g' → g' = g) ∧ ∀ e, s'.phase ≠ .raised e := by
  have hw := wellFormed_of_valid hvalid
  have hexplained := explained_of_run hw hrun
  simp only [Explained, hreturned] at hexplained
  obtain ⟨rfl, hdone, haccount⟩ := hexplained
  refine ⟨haccount.meaning hw hdone, ?_⟩
  intro m' moves' s' hrun'
  have hgraph := (outcome_of_run hrun 0).1 _ hreturned
  obtain ⟨hreturns, hraises⟩ := outcome_of_run hrun' 0
  constructor
  · intro g' hphase
    exact Except.ok.inj ((hreturns g' hphase).symm.trans hgraph)
  · intro e hphase
    have herror := hraises e hphase
    rw [hgraph] at herror
    cases herror

/-- Two nodes after `a`, which both extract `x`. -/
def fork : WorkflowDefinition where
  nodes := [⟨"a", "first", .known .http, none⟩, ⟨"b", "left", .known .http, none⟩, ⟨"c", "right", .known .http, none⟩]
  edges := [⟨"ab", "a", "b", .known .always⟩, ⟨"ac", "a", "c", .known .success⟩]

def extractsId (node : WorkflowNode) (_ : Dict String String) : NodeOutcome String :=
  ⟨true, none, .empty, Dict.empty.set "x" node.id⟩

/-- `c` finishes before `b`. -/
def forkMoves : List GraphMove :=
  [.main, .worker .start, .worker (.finish 0), .main, .main, .worker .start, .worker .start, .worker (.finish 1),
    .worker (.finish 0), .main, .main]

theorem fork_meaning : ∃ s g,
    runSteps (graphStep 2 extractsId fork) (.init fork .empty) forkMoves = some s ∧ s.phase = .returned g ∧
      Meaning extractsId fork .empty s.wave s.calls s.progress.executions g ∧ g.context.get? "x" = some "c" := by
  have hcheck : (runSteps (graphStep 2 extractsId fork) (.init fork .empty) forkMoves).any (fun s =>
      match s.phase with
      | .returned g => g.context.get? "x" = some "c"
      | _ => false) = true := by decide +kernel
  obtain ⟨s, hrun, hs⟩ := (Option.any_eq_true _ _).mp hcheck
  split at hs
  · next g hphase =>
    exact ⟨s, g, hrun, hphase,
      (workflow_meaning fork (by decide) extractsId .empty 2 forkMoves s g hrun hphase).1, by simpa using hs⟩
  · cases hs

end SmartTest.Workflow
