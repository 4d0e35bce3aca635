import Mathlib.Algebra.BigOperators.Group.List.Basic
import SmartTest.Load.Workers

/-!
# How many requests are attempted

In `COUNT` mode, without cancellation: whatever the order in which the workers move and
whatever the requests come to, each index below `request_count` is taken once, attempted
once and counted once.
-/

open SmartTest.Lib SmartTest.Run

namespace SmartTest.Load

namespace Running

/-! ## Requests in hand -/

/-- Whether a worker has taken index `k` and not attempted it yet. -/
def inHand (k : Nat) : Worker RequestControl → Nat
  | .own (.request index) => if index = k then 1 else 0
  | _ => 0

/-- Whether a worker is about to count a request. -/
def uncounted : Worker RequestControl → Nat
  | .counting _ _ _ => 1
  | _ => 0

/-- Whether it is one of the named target. -/
def uncountedFor (name : String) : Worker RequestControl → Nat
  | .counting target _ _ => if target = name then 1 else 0
  | _ => 0

/-- It has nothing in hand and nothing to count. -/
def Idle (w : Worker RequestControl) : Prop :=
  (∀ k, inHand k w = 0) ∧ uncounted w = 0 ∧ ∀ name, uncountedFor name w = 0

def targetTotal (metrics : Metrics) (name : String) : Nat := ((metrics.targets.get? name).getD .empty).total

theorem targetTotal_add (metrics : Metrics) (name target : String) (success : Bool) (status : Option Int)
    (error : Option String) :
    targetTotal (metrics.add target success status error) name =
      targetTotal metrics name + if target = name then 1 else 0 := by
  unfold targetTotal Metrics.add
  by_cases h : name = target
  · subst h
    simp [MetricValues.add]
  · simp [h, Ne.symm h]

/-- What holds while requests are attempted. -/
structure Counted (definition : LoadTestRecord) (x : Running RequestShared RequestControl)
    (crew : List (Worker RequestControl)) : Prop where
  workers : x.workers = some crew
  unset : x.service.cancelled = false
  claims : x.shared.claims.map Prod.snd = List.range x.shared.sequence
  sequence_le : x.shared.sequence ≤ definition.requestCount
  once : ∀ k, x.shared.attempted.countP (·.1 = k) + crewSum (inHand k) crew = if k < x.shared.sequence then 1 else 0
  named : ∀ e ∈ x.shared.attempted, e.2 = (definition.targetAt e.1).name
  perTarget : ∀ name, targetTotal x.metrics name + crewSum (uncountedFor name) crew =
    x.shared.attempted.countP (·.2 = name)
  total : x.metrics.totalRequests + crewSum uncounted crew = x.shared.attempted.length
  exhausted : ∀ w ∈ crew, w = .returned → definition.requestCount ≤ x.shared.sequence
  resumes : ∀ w ∈ crew, ∀ k, resumption w = some k → k = .recheck

/-- A move that takes nothing in hand and counts nothing. -/
theorem Counted.idle {definition : LoadTestRecord} {x y : Running RequestShared RequestControl}
    {crew : List (Worker RequestControl)} {i : Nat} {w w' : Worker RequestControl} (h : Counted definition x crew)
    (hw : crew[i]? = some w) (hworkers : y.workers = some (crew.set i w'))
    (hunset : y.service.cancelled = false) (hshared : y.shared = x.shared)
    (hall : y.metrics.totalRequests = x.metrics.totalRequests)
    (htargets : ∀ name, targetTotal y.metrics name = targetTotal x.metrics name)
    (hhand : ∀ k, inHand k w' = inHand k w) (huncounted : uncounted w' = uncounted w)
    (hfor : ∀ name, uncountedFor name w' = uncountedFor name w)
    (hexhausted : w' = .returned → definition.requestCount ≤ x.shared.sequence)
    (hresumes : ∀ k, resumption w' = some k → k = .recheck) : Counted definition y (crew.set i w') := by
  refine ⟨hworkers, hunset, ?_, ?_, ?_, ?_, ?_, ?_, ?_, forall_mem_set h.resumes hresumes⟩
  · rw [hshared]
    exact h.claims
  · rw [hshared]
    exact h.sequence_le
  · intro k
    have hsum := crewSum_set hw (inHand k) w'
    have honce := h.once k
    rw [hhand k] at hsum
    rw [hshared]
    omega
  · rw [hshared]
    exact h.named
  · intro name
    have hsum := crewSum_set hw (uncountedFor name) w'
    have hper := h.perTarget name
    rw [hfor name] at hsum
    rw [hshared, htargets name]
    omega
  · have hsum := crewSum_set hw uncounted w'
    have htotal := h.total
    rw [huncounted] at hsum
    rw [hshared, hall]
    omega
  · rw [hshared]
    exact forall_mem_set h.exhausted hexhausted

/-- Index `sequence` is claimed. -/
theorem Counted.claim {definition : LoadTestRecord} {x : Running RequestShared RequestControl}
    {crew : List (Worker RequestControl)} {i : Nat} (h : Counted definition x crew)
    (hw : crew[i]? = some (.own .claiming)) (hlt : x.shared.sequence < definition.requestCount) :
    Counted definition
      { x.put crew i (.own (.request x.shared.sequence)) with
        shared := { x.shared with
          sequence := x.shared.sequence + 1, claims := x.shared.claims ++ [(i, x.shared.sequence)] } }
      (crew.set i (.own (.request x.shared.sequence))) := by
  refine ⟨rfl, h.unset, ?_, hlt, ?_, h.named, ?_, ?_, ?_, forall_mem_set h.resumes (by simp [resumption])⟩
  · rw [List.map_append, h.claims, List.range_succ]
    rfl
  · intro k
    have hsum := crewSum_set hw (inHand k) (.own (.request x.shared.sequence))
    have honce := h.once k
    simp only [inHand] at hsum
    dsimp only [put]
    split at honce <;> split at hsum <;> split <;> omega
  · intro name
    have hsum := crewSum_set hw (uncountedFor name) (.own (.request x.shared.sequence))
    have hper := h.perTarget name
    simp only [uncountedFor] at hsum
    dsimp only [put]
    omega
  · have hsum := crewSum_set hw uncounted (.own (.request x.shared.sequence))
    have htotal := h.total
    simp only [uncounted] at hsum
    dsimp only [put]
    omega
  · apply forall_mem_set
    · intro w hw hreturned
      exact Nat.le_succ_of_le (h.exhausted w hw hreturned)
    · rintro ⟨⟩

/-- The attempt at `index` is over. -/
theorem Counted.request {definition : LoadTestRecord} {x : Running RequestShared RequestControl}
    {crew : List (Worker RequestControl)} {i index : Nat} (h : Counted definition x crew)
    (hw : crew[i]? = some (.own (.request index))) (answer : Answer) :
    Counted definition
      { x.put crew i (.counting (definition.targetAt index).name answer .recheck) with
        shared := { x.shared with attempted := x.shared.attempted ++ [(index, (definition.targetAt index).name)] } }
      (crew.set i (.counting (definition.targetAt index).name answer .recheck)) := by
  refine ⟨rfl, h.unset, h.claims, h.sequence_le, ?_, ?_, ?_, ?_, ?_,
    forall_mem_set h.resumes (by simp [resumption])⟩
  · intro k
    have hsum := crewSum_set hw (inHand k) (.counting (definition.targetAt index).name answer .recheck)
    have honce := h.once k
    simp only [inHand] at hsum
    simp only [List.countP_append, List.countP_singleton, decide_eq_true_eq]
    omega
  · intro e he
    rcases List.mem_append.mp he with hold | hnew
    · exact h.named e hold
    · obtain rfl := List.mem_singleton.mp hnew
      rfl
  · intro name
    have hsum := crewSum_set hw (uncountedFor name) (.counting (definition.targetAt index).name answer .recheck)
    have hper := h.perTarget name
    simp only [uncountedFor] at hsum
    simp only [put, List.countP_append, List.countP_singleton, decide_eq_true_eq]
    omega
  · have hsum := crewSum_set hw uncounted (.counting (definition.targetAt index).name answer .recheck)
    have htotal := h.total
    simp only [uncounted] at hsum
    simp only [put, List.length_append, List.length_singleton]
    omega
  · apply forall_mem_set h.exhausted
    rintro ⟨⟩

/-- A request is counted. -/
theorem Counted.count {definition : LoadTestRecord} {x : Running RequestShared RequestControl}
    {crew : List (Worker RequestControl)} {i : Nat} {target : String} {answer : Answer} {k : RequestControl}
    (h : Counted definition x crew) (hw : crew[i]? = some (.counting target answer k)) {metrics : Metrics}
    (hmetrics : metrics = x.metrics.add target answer.success answer.status answer.error)
    (recorded : List LoadTestResponse) (item : LoadTestResponse) :
    Counted definition { x.put crew i (.responding item k) with metrics := metrics, recorded := recorded }
      (crew.set i (.responding item k)) := by
  subst hmetrics
  have hresumes := h.resumes _ (List.mem_of_getElem? hw)
  refine ⟨rfl, h.unset, h.claims, h.sequence_le, ?_, h.named, ?_, ?_, ?_,
    forall_mem_set h.resumes hresumes⟩
  · intro j
    have hsum : crewSum (inHand j) (crew.set i (.responding item k)) = crewSum (inHand j) crew :=
      crewSum_set hw (inHand j) (.responding item k)
    rw [hsum]
    exact h.once j
  · intro name
    have hsum := crewSum_set hw (uncountedFor name) (.responding item k)
    have hper := h.perTarget name
    simp only [uncountedFor] at hsum
    simp only [put, targetTotal_add]
    omega
  · have hsum := crewSum_set hw uncounted (.responding item k)
    have htotal := h.total
    simp only [uncounted] at hsum
    simp only [put, Metrics.totalRequests_add]
    omega
  · apply forall_mem_set h.exhausted
    rintro ⟨⟩

/-- The same for a worker that stays clear of requests and of counting. -/
theorem Counted.aside {definition : LoadTestRecord} {x y : Running RequestShared RequestControl}
    {crew : List (Worker RequestControl)} {i : Nat} {w w' : Worker RequestControl} (h : Counted definition x crew)
    (hw : crew[i]? = some w) (hworkers : y.workers = some (crew.set i w'))
    (hunset : y.service.cancelled = x.service.cancelled) (hshared : y.shared = x.shared)
    (hmetrics : y.metrics = x.metrics ∨ ∃ success, y.metrics = x.metrics.addScenario success)
    (hidle : Idle w) (hidle' : Idle w') (hexhausted : w' = .returned → definition.requestCount ≤ x.shared.sequence)
    (hresumes : ∀ k, resumption w' = some k → k = .recheck) : Counted definition y (crew.set i w') := by
  have hall : y.metrics.totalRequests = x.metrics.totalRequests := by
    rcases hmetrics with hsame | ⟨success, hsame⟩ <;> simp [hsame]
  have htargets : ∀ name, targetTotal y.metrics name = targetTotal x.metrics name := by
    intro name
    rcases hmetrics with hsame | ⟨success, hsame⟩ <;> simp [hsame, targetTotal, Metrics.addScenario]
  exact h.idle hw hworkers (hunset.trans h.unset) hshared hall htargets
    (fun k => (hidle'.1 k).trans (hidle.1 k).symm) (hidle'.2.1.trans hidle.2.1.symm)
    (fun name => (hidle'.2.2 name).trans (hidle.2.2 name).symm) hexhausted hresumes

/-- Where a worker stands when nothing of a request is in its hands. -/
theorem idle_own {k : RequestControl} (hk : ∀ index, k ≠ .request index) : Idle (.own k) := by
  refine ⟨?_, rfl, fun _ => rfl⟩
  intro j
  cases k with
  | request index => exact absurd rfl (hk index)
  | _ => rfl

/-- A step of the control, without an exception. -/
theorem Counted.own {definition : LoadTestRecord} (hmode : definition.mode = .count)
    {x : Running RequestShared RequestControl} {crew : List (Worker RequestControl)} (h : Counted definition x crew)
    {i : Nat} {k : RequestControl} (hw : crew[i]? = some (.own k)) {choice : RequestChoice} {shared : RequestShared}
    {next : Next RequestControl} (hescape : ∀ e, next ≠ .escape e)
    (hstep : (requestControl definition).step i x.service.cancelled x.shared k choice = some (shared, next)) :
    Counted definition { x.put crew i next.worker with shared := shared } (crew.set i next.worker) := by
  rw [h.unset] at hstep
  have hreturned : Idle (.returned : Worker RequestControl) := ⟨fun _ => rfl, rfl, fun _ => rfl⟩
  cases k with
  | top =>
    simp only [requestControl, Bool.false_eq_true, if_false, Option.some.injEq, Prod.mk.injEq] at hstep
    obtain ⟨rfl, rfl⟩ := hstep
    exact h.aside hw rfl rfl rfl (.inl rfl) (idle_own (by simp)) (idle_own (by simp)) (by simp [Next.worker])
      (by simp [Next.worker, resumption])
  | claiming =>
    simp only [requestControl, hmode, true_and, reduceCtorEq, false_and, if_false] at hstep
    split at hstep
    · next hdone =>
      obtain ⟨rfl, rfl⟩ := Prod.mk.inj (Option.some.inj hstep)
      exact h.aside hw rfl rfl rfl (.inl rfl) (idle_own (by simp)) hreturned (fun _ => hdone)
        (by simp [Next.worker, resumption])
    · next hdone =>
      obtain ⟨rfl, rfl⟩ := Prod.mk.inj (Option.some.inj hstep)
      exact h.claim hw (Nat.lt_of_not_le hdone)
  | request index =>
    simp only [requestControl] at hstep
    split at hstep
    · next e _ =>
      obtain ⟨rfl, rfl⟩ := Prod.mk.inj (Option.some.inj hstep)
      exact absurd rfl (hescape e)
    · next answer _ =>
      obtain ⟨rfl, rfl⟩ := Prod.mk.inj (Option.some.inj hstep)
      exact h.request hw answer
  | recheck =>
    simp only [requestControl, hmode, true_and] at hstep
    split at hstep
    · next hdone =>
      obtain ⟨rfl, rfl⟩ := Prod.mk.inj (Option.some.inj hstep)
      exact h.aside hw rfl rfl rfl (.inl rfl) (idle_own (by simp)) hreturned (fun _ => hdone)
        (by simp [Next.worker, resumption])
    · obtain ⟨rfl, rfl⟩ := Prod.mk.inj (Option.some.inj hstep)
      exact h.aside hw rfl rfl rfl (.inl rfl) (idle_own (by simp)) (idle_own (by simp)) (by simp [Next.worker])
        (by simp [Next.worker, resumption])
  | delay =>
    simp only [requestControl, Bool.false_eq_true, and_false, if_false, Option.some.injEq, Prod.mk.injEq] at hstep
    obtain ⟨rfl, rfl⟩ := hstep
    exact h.aside hw rfl rfl rfl (.inl rfl) (idle_own (by simp)) (idle_own (by simp)) (by simp [Next.worker])
      (by simp [Next.worker, resumption])

theorem Counted.step {definition : LoadTestRecord} (hmode : definition.mode = .count) {runId : UUID}
    {x y : Running RequestShared RequestControl} {crew : List (Worker RequestControl)} (h : Counted definition x crew)
    {m : Move RequestChoice} (hmove : x.move (requestControl definition) runId m = some y) (hy : Contained y) :
    ∃ crew', Counted definition y crew' := by
  obtain ⟨crew', w, hcrew, hw, hmoved⟩ := move_cases hmove
  obtain rfl := Option.some.inj (h.workers.symm.trans hcrew)
  have hresumes := h.resumes w (List.mem_of_getElem? hw)
  have hrecheck : Idle (.own .recheck) := idle_own (by simp)
  cases hmoved with
  | @own k shared next hstep =>
    refine ⟨_, h.own hmode hw ?_ hstep⟩
    rintro e rfl
    exact hy e (List.mem_of_getElem? (List.getElem?_set_self (List.getElem?_eq_some_iff.mp hw).1))
  | count target answer k metrics hmetrics => exact ⟨_, h.count hw hmetrics _ _⟩
  | respond item k service hstep =>
    refine ⟨_, h.aside hw rfl (respond_step hstep).1 rfl (.inl rfl) ⟨fun _ => rfl, rfl, fun _ => rfl⟩ ?_ ?_ ?_⟩
    · split <;> exact ⟨fun _ => rfl, rfl, fun _ => rfl⟩
    · split <;> simp
    · split
      · simp [resumption]
      · exact hresumes
  | close success k =>
    exact ⟨_, h.aside hw rfl rfl rfl (.inr ⟨success, rfl⟩) ⟨fun _ => rfl, rfl, fun _ => rfl⟩
      ⟨fun _ => rfl, rfl, fun _ => rfl⟩ (by simp) hresumes⟩
  | poll k =>
    obtain rfl := hresumes k rfl
    refine ⟨_, h.aside hw rfl rfl rfl (.inl rfl) ⟨fun _ => rfl, rfl, fun _ => rfl⟩ ?_ ?_ ?_⟩
    · split
      · exact ⟨fun _ => rfl, rfl, fun _ => rfl⟩
      · exact hrecheck
    · split <;> simp
    · split <;> simp [resumption]
  | snap metrics k service hstep =>
    obtain rfl := hresumes k rfl
    refine ⟨_, h.aside hw rfl (checkSnapshot_step hstep).1 rfl (.inl rfl) ⟨fun _ => rfl, rfl, fun _ => rfl⟩ ?_ ?_ ?_⟩
    · split
      · exact ⟨fun _ => rfl, rfl, fun _ => rfl⟩
      · exact hrecheck
    · split <;> simp
    · split <;> simp [resumption]
  | write k service hstep =>
    obtain rfl := hresumes k rfl
    refine ⟨_, h.aside hw rfl (writeSnapshot_step hstep).1 rfl (.inl rfl) ⟨fun _ => rfl, rfl, fun _ => rfl⟩ ?_ ?_ ?_⟩
    · split
      · exact ⟨fun _ => rfl, rfl, fun _ => rfl⟩
      · exact hrecheck
    · split <;> simp
    · split <;> simp [resumption]

/-! ## The whole run -/

@[simp] theorem targetTotal_empty (names : List String) (name : String) :
    targetTotal (.empty names) name = 0 := by
  have hzero : ∀ (names : List String) (targets : Dict String MetricValues),
      ((targets.get? name).getD .empty).total = 0 →
      (((names.foldl (fun targets name => targets.set name .empty) targets).get? name).getD .empty).total = 0 := by
    intro names
    induction names with
    | nil => exact fun _ h => h
    | cons first rest ih =>
      intro targets h
      apply ih
      rw [Dict.get?_set]
      split
      · rfl
      · exact h
  exact hzero names .empty rfl

theorem Counted.launched (definition : LoadTestRecord) {service : Execution} (hunset : service.cancelled = false)
    (workers : Nat) :
    Counted definition (launched (requestControl definition) service ⟨0, [], []⟩ definition workers)
      (List.replicate workers (.own .top)) := by
  refine ⟨rfl, hunset, rfl, Nat.zero_le _, ?_, by simp [Running.launched], ?_, ?_, ?_, ?_⟩
  · intro k
    simp [crewSum_replicate, inHand, Running.launched]
  · intro name
    simp [crewSum_replicate, uncountedFor, Running.launched]
  · simp [crewSum_replicate, uncounted, Running.launched]
  · intro w hw
    rw [List.eq_of_mem_replicate hw]
    rintro ⟨⟩
  · intro w hw
    rw [List.eq_of_mem_replicate hw]
    simp [resumption]

/-- How far a worker is from its end, with nothing left to claim. -/
def requestRank : RequestControl → Nat
  | .claiming => 1
  | .top => 2
  | .delay => 3
  | .recheck => 4
  | .request _ => 10

theorem requestControl_descends {definition : LoadTestRecord} (hmode : definition.mode = .count) :
    Descends (requestControl definition) requestRank fun shared => (definition.requestCount - shared.sequence) * 10 := by
  intro i cancelled shared k choice shared' next hstep
  cases k with
  | top =>
    obtain ⟨rfl, rfl⟩ := Prod.mk.inj (Option.some.inj hstep)
    cases cancelled <;> simp [Next.worker, distance, requestRank]
  | claiming =>
    simp only [requestControl, hmode, true_and, reduceCtorEq, false_and, if_false] at hstep
    split at hstep
    · obtain ⟨rfl, rfl⟩ := Prod.mk.inj (Option.some.inj hstep)
      simp [Next.worker, distance, requestRank]
    · obtain ⟨rfl, rfl⟩ := Prod.mk.inj (Option.some.inj hstep)
      simp only [Next.worker, distance, requestRank]
      omega
  | request index =>
    simp only [requestControl] at hstep
    split at hstep
    · obtain ⟨rfl, rfl⟩ := Prod.mk.inj (Option.some.inj hstep)
      simp [Next.worker, distance, requestRank]
    · obtain ⟨rfl, rfl⟩ := Prod.mk.inj (Option.some.inj hstep)
      simp [Next.worker, distance, requestRank]
  | recheck =>
    simp only [requestControl] at hstep
    split at hstep
    all_goals
      obtain ⟨rfl, rfl⟩ := Prod.mk.inj (Option.some.inj hstep)
      simp [Next.worker, distance, requestRank]
  | delay =>
    simp only [requestControl] at hstep
    split at hstep
    all_goals
      obtain ⟨rfl, rfl⟩ := Prod.mk.inj (Option.some.inj hstep)
      simp [Next.worker, distance, requestRank]

theorem requestControl_total (definition : LoadTestRecord) (i : Nat) (cancelled : Bool) (shared : RequestShared)
    (k : RequestControl) (choice : RequestChoice) :
    ((requestControl definition).step i cancelled shared k choice).isSome := by
  unfold requestControl
  cases k <;> dsimp only <;> split <;> try rfl
  split <;> rfl

/-- Every index is claimed, attempted and counted once, each for its own target. -/
structure ExactRequests (definition : LoadTestRecord) (y : Running RequestShared RequestControl) : Prop where
  claimed : y.shared.claims.map Prod.snd = List.range definition.requestCount
  attempted : (y.shared.attempted.map Prod.fst).Perm (List.range definition.requestCount)
  assigned : ∀ i (hi : i < definition.targets.length),
    ((y.shared.attempted.filter (·.2 = (definition.targets.get ⟨i, hi⟩).name)).map Prod.fst).Perm
      ((List.range definition.requestCount).filter (· % definition.targets.length = i))
  perTarget : ∀ i (hi : i < definition.targets.length),
    targetTotal y.metrics (definition.targets.get ⟨i, hi⟩).name =
      ((List.range definition.requestCount).filter (· % definition.targets.length = i)).length
  total : y.metrics.totalRequests = definition.requestCount
  sum : (definition.targetNames.map (targetTotal y.metrics)).sum = definition.requestCount

/-- Targets are told apart by their names. -/
theorem name_targetAt_iff (definition : LoadTestRecord) (index i : Nat) (hi : i < definition.targets.length) :
    (definition.targetAt index).name = (definition.targets.get ⟨i, hi⟩).name ↔
      index % definition.targets.length = i := by
  have hinj := List.inj_on_of_nodup_map definition.targets_nodup
  unfold LoadTestRecord.targetAt
  constructor
  · intro hname
    have hsame := hinj (List.get_mem _ _) (List.get_mem _ _) hname
    have hnodup : definition.targets.Nodup := List.Nodup.of_map _ definition.targets_nodup
    simpa using congrArg Fin.val (List.nodup_iff_injective_get.mp hnodup hsame)
  · rintro rfl
    rfl

theorem sum_ite_name (name : String) (names : List String) :
    (names.map fun other => if name = other then 1 else 0).sum = names.count name := by
  induction names with
  | nil => rfl
  | cons first rest ih =>
    simp only [List.map_cons, List.sum_cons, ih, List.count_cons, beq_iff_eq]
    by_cases h : name = first
    · simp only [h, if_true]
      omega
    · simp [h, Ne.symm h]

/-- Entries that all bear one of the names, counted name by name. -/
theorem sum_countP_names {names : List String} (hnodup : names.Nodup) {entries : List (Nat × String)}
    (h : ∀ e ∈ entries, e.2 ∈ names) :
    (names.map fun name => entries.countP (·.2 = name)).sum = entries.length := by
  induction entries with
  | nil => simp
  | cons e rest ih =>
    obtain ⟨he, hrest⟩ := List.forall_mem_cons.mp h
    have hone := sum_ite_name e.2 names
    rw [List.count_eq_one_of_mem hnodup he] at hone
    simp only [List.countP_cons, decide_eq_true_eq, List.sum_map_add, ih hrest, hone, List.length_cons]

theorem Counted.exact {definition : LoadTestRecord} {y : Running RequestShared RequestControl}
    {crew : List (Worker RequestControl)} (h : Counted definition y crew) (hfinished : ∀ w ∈ crew, w = .returned)
    (hsome : crew ≠ []) : ExactRequests definition y := by
  obtain ⟨w, hw⟩ := List.exists_mem_of_ne_nil crew hsome
  have hsequence : y.shared.sequence = definition.requestCount :=
    Nat.le_antisymm h.sequence_le (h.exhausted w hw (hfinished w hw))
  have hidle : ∀ f : Worker RequestControl → Nat, f .returned = 0 → crewSum f crew = 0 := by
    intro f hf
    apply crewSum_eq_zero
    intro v hv
    rw [hfinished v hv, hf]
  have hattempted : (y.shared.attempted.map Prod.fst).Perm (List.range definition.requestCount) := by
    rw [List.perm_iff_count]
    intro k
    have honce := h.once k
    rw [hidle (inHand k) rfl, hsequence] at honce
    rw [List.count_eq_countP, List.countP_map, List.count_range]
    exact honce
  have hassigned : ∀ i (hi : i < definition.targets.length),
      ((y.shared.attempted.filter (·.2 = (definition.targets.get ⟨i, hi⟩).name)).map Prod.fst).Perm
        ((List.range definition.requestCount).filter (· % definition.targets.length = i)) := by
    intro i hi
    have hfilter : y.shared.attempted.filter (·.2 = (definition.targets.get ⟨i, hi⟩).name) =
        y.shared.attempted.filter ((fun k => decide (k % definition.targets.length = i)) ∘ Prod.fst) := by
      apply List.filter_congr
      intro e he
      rw [h.named e he]
      exact decide_eq_decide.mpr (name_targetAt_iff definition e.1 i hi)
    rw [hfilter, ← List.filter_map]
    exact hattempted.filter _
  have hper : ∀ name, targetTotal y.metrics name = y.shared.attempted.countP (·.2 = name) := by
    intro name
    have hper := h.perTarget name
    rw [hidle (uncountedFor name) rfl] at hper
    exact hper
  have hlength : y.shared.attempted.length = definition.requestCount := by
    simpa using hattempted.length_eq
  refine ⟨by rw [h.claims, hsequence], hattempted, hassigned, ?_, ?_, ?_⟩
  · intro i hi
    have hcount := (hassigned i hi).length_eq
    rw [List.length_map] at hcount
    rw [hper, List.countP_eq_length_filter, hcount]
  · have htotal := h.total
    rw [hidle uncounted rfl, hlength] at htotal
    exact htotal
  · have hnames : ∀ e ∈ y.shared.attempted, e.2 ∈ definition.targetNames := by
      intro e he
      rw [h.named e he]
      exact List.mem_map_of_mem (List.get_mem _ _)
    rw [← hlength, ← sum_countP_names definition.targets_nodup hnames]
    congr 1
    exact List.map_congr_left fun name _ => hper name

end Running

end SmartTest.Load
