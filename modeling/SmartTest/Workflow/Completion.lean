import SmartTest.Workflow.Waves

/-!
# When `_run_graph` returns a result for every node

A wave fails only for want of a ready node. The run then ends with
`workflow scheduling could not make progress` exactly when the last nodes to settle are
all skipped: the skip loop settles them, and no node is left to run in that wave.
-/

open SmartTest.Lib

namespace SmartTest.Workflow

variable {ν : Type}

section Wave

variable {w : WorkflowDefinition} {o : String → NodeOutcome ν} {p : Progress ν} {k : Nat}

/-! ## One wave -/

theorem isReady_iff {node : WorkflowNode} :
    isReady w p node = true ↔ node.id ∈ p.pending ∧ (∀ e ∈ incoming w node.id, Settled p e.source) ∧
      (incoming w node.id = [] ∨ someActive p.executions (incoming w node.id) = true) := by
  simp only [isReady, Bool.and_eq_true, Bool.or_eq_true, decide_eq_true_eq, sourcesDone_iff]
  constructor
  · rintro ⟨hpend, hnil | ⟨hdone, hactive⟩⟩
    · exact ⟨hpend, by simp [hnil], .inl hnil⟩
    · exact ⟨hpend, hdone, .inr hactive⟩
  · rintro ⟨hpend, hdone, hnil | hactive⟩
    · exact ⟨hpend, .inl hnil⟩
    · exact ⟨hpend, .inr ⟨hdone, hactive⟩⟩

/-- After the skip loop the ready nodes are those that run at this depth. -/
theorem isReady_spec (hw : WellFormed w) (hc : Consistent w o p) (hs : Skipping w o k p)
    (hstop : ∀ node ∈ w.nodes, skippable w p node = false) {node : WorkflowNode} (hnode : node ∈ w.nodes) :
    isReady w p node = true ↔ runs w o node.id = true ∧ depth w o node.id = k := by
  have hid : node.id ∈ w.nodes.map (·.id) := List.mem_map_of_mem hnode
  rw [isReady_iff]
  constructor
  · rintro ⟨hpend, hdone, hgo⟩
    rw [someActive_iff hc hdone] at hgo
    exact ⟨(runs_iff hw o hid).mpr hgo, Nat.le_antisymm (hs.depth_le hw hid hdone) (hs.le_depth hc hpend)⟩
  · rintro ⟨hrun, hdepth⟩
    have hdone : ∀ e ∈ incoming w node.id, Settled p e.source := by
      intro e he
      have hsrc := hw.source_mem e (mem_incoming.mp he).1
      have hle := (depth_le_iff hw o hid k).mp (by omega) e he
      simp only [settledBy] at hle
      by_cases hr : runs w o e.source = true
      · rw [if_pos hr] at hle
        exact (hs _ hsrc).1 (by omega)
      · rw [if_neg hr] at hle
        exact settled_of_not_runs hw hc hs hstop hsrc (by simpa using hr) hle
    refine ⟨(hc.pending _).mpr ⟨hid, fun hset => ?_⟩, hdone, ?_⟩
    · rcases (hs _ hid).2 hset with hlt | ⟨-, hskip⟩
      · omega
      · rw [hrun] at hskip
        simp at hskip
    · rw [someActive_iff hc hdone, ← runs_iff hw o hid]
      exact hrun

theorem edgeLimit_ok (hw : WellFormed w) {e : WorkflowEdge} (he : e ∈ w.edges) (hset : Settled p e.source) :
    ∃ limits, edgeLimit w p.executions e = .ok limits := by
  obtain ⟨x, hx⟩ := Option.isSome_iff_exists.mp hset
  obtain ⟨source, hsource⟩ : ∃ source, w.nodes.find? (·.id = e.source) = some source := by
    obtain ⟨node, hnode, hid⟩ := List.mem_map.mp (hw.source_mem e he)
    rw [← Option.isSome_iff_exists, List.find?_isSome]
    exact ⟨node, hnode, by simpa using hid⟩
  have hid : source.id = e.source := by simpa using List.find?_some hsource
  simp only [edgeLimit, hsource, hid, hx]
  split <;> exact ⟨_, rfl⟩

theorem waveLimit_ok (hw : WellFormed w) (maxConcurrency : Int) {nodes : List WorkflowNode}
    (hset : ∀ node ∈ nodes, ∀ e ∈ incoming w node.id, Settled p e.source) :
    ∃ limit, waveLimit maxConcurrency w p.executions nodes = .ok limit ∧ 1 ≤ limit := by
  have hmap : ∀ edges : List WorkflowEdge, (∀ e ∈ edges, e ∈ w.edges ∧ Settled p e.source) →
      ∃ limits, edges.mapM (edgeLimit w p.executions) = .ok limits := by
    intro edges hedges
    induction edges with
    | nil => exact ⟨[], rfl⟩
    | cons e rest ih =>
      obtain ⟨⟨hmem, hsettled⟩, hrest⟩ := List.forall_mem_cons.mp hedges
      obtain ⟨l, hl⟩ := edgeLimit_ok hw hmem hsettled
      obtain ⟨ls, hls⟩ := ih hrest
      exact ⟨l :: ls, by rw [List.mapM_cons, hl, hls]; rfl⟩
  obtain ⟨limits, hlimits⟩ := hmap (nodes.flatMap fun node => incoming w node.id) (by
    intro e he
    obtain ⟨node, hnode, hin⟩ := List.mem_flatMap.mp he
    exact ⟨(mem_incoming.mp hin).1, hset node hnode e hin⟩)
  refine ⟨_, by rw [waveLimit, readyLimits, hlimits]; rfl, Int.le_max_left _ _⟩

theorem poolMap_ok {α β : Type} {limit : Int} (h : 1 ≤ limit) (f : α → β) (inputs : List α) :
    poolMap limit f inputs = .ok (inputs.map f) := by
  rw [poolMap, if_neg (by omega)]

theorem record_spec (l : List (WorkflowNode × NodeExecution ν × NodeResult ν))
    (hl : ∀ x ∈ l, x.2.1 = executionOf w o x.1.id) (hc : Consistent w o p) :
    Consistent w o (record p l) ∧
      ∀ n, Settled (record p l) n ↔ Settled p n ∨ n ∈ l.map fun x => x.1.id := by
  induction l generalizing p with
  | nil => exact ⟨hc, by simp [record]⟩
  | cons x rest ih =>
    obtain ⟨node, execution, result⟩ := x
    obtain ⟨hx, hrest⟩ := List.forall_mem_cons.mp hl
    simp only at hx
    subst hx
    obtain ⟨hc', hset⟩ := ih hrest (hc.settle node.id result)
    refine ⟨hc', fun n => ?_⟩
    show Settled (record (settle p node.id _ result) rest) n ↔ _
    rw [hset, settled_settle, List.map_cons, List.mem_cons]
    tauto

theorem Consistent.context (hc : Consistent w o p) (context : Dict String ν) :
    Consistent w o { p with context := context } :=
  ⟨hc.pending, hc.nodup, hc.execution, hc.result⟩

theorem mem_zip_map {α β : Type} (f : α → β) (l : List α) (x : α × β) :
    x ∈ l.zip (l.map f) ↔ x.1 ∈ l ∧ x.2 = f x.1 := by
  induction l with
  | nil => simp
  | cons a rest ih =>
    obtain ⟨b, c⟩ := x
    simp only [List.map_cons, List.zip_cons_cons, List.mem_cons, Prod.mk.injEq, ih]
    constructor
    · rintro (⟨rfl, rfl⟩ | ⟨hmem, heq⟩)
      · exact ⟨.inl rfl, rfl⟩
      · exact ⟨.inr hmem, heq⟩
    · rintro ⟨rfl | hmem, heq⟩
      · exact .inl ⟨rfl, heq⟩
      · exact .inr ⟨hmem, heq⟩

/-- Recording the ready nodes settles the whole depth. -/
theorem record_ready (hw : WellFormed w) (hc : Consistent w o p) (hs : Skipping w o k p)
    (hstop : ∀ node ∈ w.nodes, skippable w p node = false) (snapshot : Dict String ν) :
    let r := record p ((ready w p).zip ((ready w p).map (executeNode (fun node _ => o node.id) snapshot)))
    Consistent w o r ∧ SettledBelow w o (k + 1) r := by
  intro r
  have hmem : ∀ node ∈ w.nodes, node ∈ ready w p ↔ runs w o node.id = true ∧ depth w o node.id = k := by
    intro node hnode
    rw [ready, List.mem_filter, isReady_spec hw hc hs hstop hnode]
    simp [hnode]
  have hnodes : ∀ node ∈ ready w p, node ∈ w.nodes := fun node hin => (List.mem_filter.mp hin).1
  obtain ⟨hr, hset⟩ := record_spec
    ((ready w p).zip ((ready w p).map (executeNode (fun node _ => o node.id) snapshot))) (by
      intro x hx
      obtain ⟨hin, heq⟩ := (mem_zip_map _ _ x).mp hx
      rw [heq]
      simp [executeNode, executionOf, ((hmem _ (hnodes _ hin)).mp hin).1]) hc
  refine ⟨hr, fun n hn => ?_⟩
  rw [hset n]
  constructor
  · rintro (hold | hnew)
    · rcases (hs n hn).2 hold with hlt | ⟨heq, -⟩ <;> omega
    · obtain ⟨x, hx, rfl⟩ := List.mem_map.mp hnew
      have hin := ((mem_zip_map _ _ x).mp hx).1
      have := ((hmem _ (hnodes _ hin)).mp hin).2
      omega
  · intro hlt
    by_cases hrun : runs w o n = true ∧ depth w o n = k
    · obtain ⟨node, hnode, rfl⟩ := List.mem_map.mp hn
      have hin := (hmem node hnode).mpr hrun
      refine .inr (List.mem_map.mpr ⟨(node, executeNode (fun node _ => o node.id) snapshot node), ?_, rfl⟩)
      exact (mem_zip_map _ _ _).mpr ⟨hin, rfl⟩
    · by_cases hr : runs w o n = true
      · exact .inl ((hs n hn).1 (by grind))
      · exact .inl (settled_of_not_runs hw hc hs hstop hn (by simpa using hr) (by omega))

/-- A wave settles its depth, or stops where no node of that depth runs. -/
theorem wave_spec (hw : WellFormed w) (maxConcurrency : Int) (hc : Consistent w o p)
    (hk : SettledBelow w o k p) :
    if ∃ m ∈ w.nodes.map (·.id), runs w o m = true ∧ depth w o m = k then
      ∃ p', wave maxConcurrency (fun node _ => o node.id) w p = .ok p' ∧ Consistent w o p' ∧
        SettledBelow w o (k + 1) p'
    else wave maxConcurrency (fun node _ => o node.id) w p = .error .noProgress := by
  obtain ⟨hc', hs, hstop, -⟩ := skipLoop_spec hw (p.pending.length + 1) (by omega) hc hk.skipping
  set q := skipLoop w (p.pending.length + 1) p with hq
  have hready : (∃ m ∈ w.nodes.map (·.id), runs w o m = true ∧ depth w o m = k) ↔ ready w q ≠ [] := by
    constructor
    · rintro ⟨m, hm, h⟩
      obtain ⟨node, hnode, rfl⟩ := List.mem_map.mp hm
      exact List.ne_nil_of_mem (List.mem_filter.mpr ⟨hnode, (isReady_spec hw hc' hs hstop hnode).mpr h⟩)
    · intro hne
      obtain ⟨node, hin⟩ := List.exists_mem_of_ne_nil _ hne
      obtain ⟨hnode, h⟩ := List.mem_filter.mp hin
      exact ⟨node.id, List.mem_map_of_mem hnode, (isReady_spec hw hc' hs hstop hnode).mp h⟩
  split
  · next hex =>
    have hset : ∀ node ∈ ready w q, ∀ e ∈ incoming w node.id, Settled q e.source :=
      fun node hnode => (isReady_iff.mp (List.mem_filter.mp hnode).2).2.1
    obtain ⟨limit, hlimit, hpos⟩ := waveLimit_ok hw maxConcurrency hset
    obtain ⟨hr, hbelow⟩ := record_ready hw hc' hs hstop q.context
    have hok : ∃ context, wave maxConcurrency (fun node _ => o node.id) w p = .ok { record q
        ((ready w q).zip ((ready w q).map (executeNode (fun node _ => o node.id) q.context))) with
        context := context } := by
      have hpool := poolMap_ok hpos (executeNode (fun node _ => o node.id) q.context) (ready w q)
      simp only [wave, ← hq, if_neg (hready.mp hex), hlimit, bind, Except.bind, pure, Except.pure, hpool]
      exact ⟨_, rfl⟩
    obtain ⟨context, hok⟩ := hok
    exact ⟨_, hok, hr.context context, hbelow⟩
  · next hno =>
    rw [hready, not_not] at hno
    simp only [wave, ← hq, hno, if_true]
    rfl

end Wave

/-! ## The whole graph -/

section Run

variable {w : WorkflowDefinition} {o : String → NodeOutcome ν}

theorem consistent_start (hw : WellFormed w) (context : Dict String ν) :
    Consistent w o ⟨w.nodes.map (·.id), .empty, .empty, context⟩ where
  pending n := by simp [Settled]
  nodup := hw.nodup
  execution n x hx := by simp at hx
  result n := by simp [Settled]

theorem SettledBelow.pending_shrinks {p p' : Progress ν} {k : Nat} (hc : Consistent w o p)
    (hc' : Consistent w o p') (hk : SettledBelow w o k p) (hk' : SettledBelow w o (k + 1) p')
    {m : String} (hm : m ∈ w.nodes.map (·.id)) (hdepth : depth w o m = k) :
    p'.pending.length < p.pending.length := by
  have hnot : m ∉ p'.pending := fun hin =>
    ((hc'.pending m).mp hin).2 ((hk' m hm).mpr (by omega))
  have hsub : m :: p'.pending ⊆ p.pending := by
    intro n hn
    rw [hc.pending n]
    rcases List.mem_cons.mp hn with rfl | hn
    · exact ⟨hm, fun hset => by have := (hk n hm).mp hset; omega⟩
    · obtain ⟨hid, hopen⟩ := (hc'.pending n).mp hn
      refine ⟨hid, fun hset => hopen ((hk' n hid).mpr ?_)⟩
      have := (hk n hid).mp hset
      omega
  exact ((List.nodup_cons.mpr ⟨hnot, hc'.nodup⟩).subperm hsub).length_le

/-- With no running node at depth `k` and a pending node left, the skip trails the last wave. -/
theorem not_noTrailingSkip (hw : WellFormed w) {n : String} {k : Nat} (hn : n ∈ w.nodes.map (·.id))
    (hdepth : k ≤ depth w o n) (hno : ¬ ∃ m ∈ w.nodes.map (·.id), runs w o m = true ∧ depth w o m = k) :
    ¬ NoTrailingSkip w o := by
  have hle : ∀ m ∈ w.nodes.map (·.id), depth w o m ≤ k := by
    intro m hm
    by_contra hlt
    exact hno (running_at_depth hw o hm (by omega))
  have heq : depth w o n = k := Nat.le_antisymm (hle n hn) hdepth
  have hskip : runs w o n = false := by
    rw [← Bool.not_eq_true]
    exact fun hrun => hno ⟨n, hn, hrun, heq⟩
  intro h
  obtain ⟨m, hm, hrun, hge⟩ := h n hn hskip
  exact hno ⟨m, hm, hrun, Nat.le_antisymm (hle m hm) (by omega)⟩

theorem runWaves_spec (hw : WellFormed w) (maxConcurrency : Int) (fuel : Nat) {p : Progress ν} {k : Nat}
    (hfuel : p.pending.length < fuel) (hc : Consistent w o p) (hk : SettledBelow w o k p)
    (hlast : k = 0 ∨ ∃ m ∈ w.nodes.map (·.id), runs w o m = true ∧ k ≤ depth w o m + 1) :
    if NoTrailingSkip w o then
      ∃ p', runWaves maxConcurrency (fun node _ => o node.id) w fuel p = .ok p' ∧
        Consistent w o p' ∧ p'.pending = []
    else runWaves maxConcurrency (fun node _ => o node.id) w fuel p = .error .noProgress := by
  induction fuel generalizing p k with
  | zero => omega
  | succ fuel ih =>
    simp only [runWaves]
    by_cases hpend : p.pending = []
    · -- Every node is settled, and the last wave ran one of the deepest.
      have hlt : ∀ n ∈ w.nodes.map (·.id), depth w o n < k := by
        intro n hn
        rw [← hk n hn]
        by_contra hopen
        have := (hc.pending n).mpr ⟨hn, hopen⟩
        simp [hpend] at this
      have hgood : NoTrailingSkip w o := by
        rintro n hn -
        have hn' := hlt n hn
        rcases hlast with rfl | ⟨m, hm, hrun, hle⟩
        · omega
        · exact ⟨m, hm, hrun, by omega⟩
      rw [if_pos hgood, if_pos hpend]
      exact ⟨p, rfl, hc, hpend⟩
    · rw [if_neg hpend]
      have hwave := wave_spec hw maxConcurrency hc hk
      split at hwave
      · next hex =>
        obtain ⟨m, hm, hrun, hdepth⟩ := hex
        obtain ⟨p', hok, hc', hk'⟩ := hwave
        have hshrink := SettledBelow.pending_shrinks hc hc' hk hk' hm hdepth
        rw [hok]
        exact ih (by omega) hc' hk' (.inr ⟨m, hm, hrun, by omega⟩)
      · next hno =>
        obtain ⟨n, hn⟩ := List.exists_mem_of_ne_nil _ hpend
        have hid := ((hc.pending n).mp hn).1
        rw [if_neg (not_noTrailingSkip hw hid (hk.skipping.le_depth hc hn) hno), hwave]
        rfl

theorem orderedResults_all {p : Progress ν} (hc : Consistent w o p) (hpend : p.pending = []) :
    (orderedResults w p).map Prod.fst = w.nodes.map (·.id) := by
  have hsome : ∀ node ∈ w.nodes, ∃ r, p.rawResults.get? node.id = some r := by
    intro node hnode
    rw [← Option.isSome_iff_exists, hc.result]
    by_contra hopen
    have := (hc.pending node.id).mpr ⟨List.mem_map_of_mem hnode, hopen⟩
    simp [hpend] at this
  unfold orderedResults
  generalize w.nodes = nodes at hsome
  induction nodes with
  | nil => rfl
  | cons node rest ih =>
    obtain ⟨⟨r, hr⟩, hrest⟩ := List.forall_mem_cons.mp hsome
    simp [hr, ih hrest]

/-- Returns, with exactly one result for each node. -/
def Completes (maxConcurrency : Int) (w : WorkflowDefinition) (o : String → NodeOutcome ν)
    (context : Dict String ν) : Prop :=
  ∃ g, runGraph maxConcurrency (fun node _ => o node.id) w context = .ok g ∧
    g.orderedResults.map Prod.fst = w.nodes.map (·.id)

/-- The scheduler wedges exactly on a trailing skip, and has no other way to fail. -/
theorem completes_iff_noTrailingSkip (maxConcurrency : Int) (w : WorkflowDefinition)
    (o : String → NodeOutcome ν) (context : Dict String ν) (hvalid : validateWorkflowGraph w = .ok ()) :
    (Completes maxConcurrency w o context ↔ NoTrailingSkip w o) ∧
      (¬ NoTrailingSkip w o →
        runGraph maxConcurrency (fun node _ => o node.id) w context = .error .noProgress) := by
  have hw := wellFormed_of_valid hvalid
  have hrun := runWaves_spec hw maxConcurrency (w.nodes.length + 1)
    (p := ⟨w.nodes.map (·.id), .empty, .empty, context⟩) (k := 0) (by simp)
    (consistent_start (o := o) hw context) (fun n _ => by simp [Settled]) (.inl rfl)
  split at hrun
  · next hgood =>
    obtain ⟨p', hok, hc, hpend⟩ := hrun
    refine ⟨⟨fun _ => hgood, fun _ => ?_⟩, fun hbad => absurd hgood hbad⟩
    exact ⟨_, by rw [runGraph, hok]; rfl, orderedResults_all hc hpend⟩
  · next hbad =>
    have herr : runGraph maxConcurrency (fun node _ => o node.id) w context = .error .noProgress := by
      rw [runGraph, hrun]
      rfl
    refine ⟨⟨?_, fun hgood => absurd hgood hbad⟩, fun _ => herr⟩
    rintro ⟨g, hok, -⟩
    rw [herr] at hok
    simp at hok

end Run

/-- Two HTTP nodes, `b` only after a success of `a`. -/
def chain : WorkflowDefinition where
  nodes := [⟨"a", "first", .known .http, none⟩, ⟨"b", "second", .known .http, none⟩]
  edges := [⟨"ab", "a", "b", .known .success⟩]

def answers (succeeded : Bool) (_ : String) : NodeOutcome String := ⟨succeeded, none, .empty, .empty⟩

theorem chain_completes : validateWorkflowGraph chain = .ok () ∧ Completes 4 chain (answers true) .empty :=
  ⟨by decide, (completes_iff_noTrailingSkip 4 chain (answers true) .empty (by decide)).1.mpr (by decide)⟩

/-- `a` fails, so `b` is the last node to settle and is skipped. -/
theorem chain_wedges : validateWorkflowGraph chain = .ok () ∧ chain.nodes ≠ [] ∧
    runGraph 4 (fun node _ => answers false node.id) chain .empty = .error .noProgress ∧
    ¬ Completes 4 chain (answers false) .empty := by
  have herr : runGraph 4 (fun node _ => answers false node.id) chain .empty = .error .noProgress := by decide
  refine ⟨by decide, by decide, herr, ?_⟩
  rintro ⟨g, hok, -⟩
  rw [herr] at hok
  simp at hok

end SmartTest.Workflow
