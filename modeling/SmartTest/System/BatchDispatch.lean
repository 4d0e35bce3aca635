import SmartTest.System.Guarantee

/-!
# What dispatching a batch accounts for

`ExecutionBatchCoordinator.dispatch_available` with either dispatcher, whatever it raises, and
with others at work that leave the runs alone that the call has claimed.
-/

open SmartTest.Lib SmartTest.Lib.Prog SmartTest.Run SmartTest.Run.RunRepository SmartTest.Plan

namespace SmartTest.System

/-! ## What a claim takes -/

variable {w w' : World} {batchId : UUID} {batch : ExecutionBatchRecord}

/-- The batch is stored, with its specs and its runs. -/
structure HasBatch (batchId : UUID) (batch : ExecutionBatchRecord) (w : World) : Prop where
  stored : w.plans.batches.get? batchId = some batch
  fits : BatchFits w batchId batch
  runs : ∀ r ∈ batch.runIds, ∃ run, w.runs.runs.get? r = some run ∧ run.id = r

theorem HasBatch.congr (h : HasBatch batchId batch w) (hplans : w'.plans = w.plans)
    (hruns : ∀ r run, w.runs.runs.get? r = some run → ∃ run', w'.runs.runs.get? r = some run' ∧ run'.id = run.id) :
    HasBatch batchId batch w' where
  stored := by rw [hplans]; exact h.stored
  fits := h.fits.congr (by rw [hplans])
  runs := by
    intro r hr
    obtain ⟨run, hrun, hid⟩ := h.runs r hr
    obtain ⟨run', hrun', hid'⟩ := hruns r run hrun
    exact ⟨run', hrun', hid'.trans hid⟩

theorem HasBatch.movedRun (h : HasBatch batchId batch w) {r : UUID} {run : RunRecord} (target : RunState)
    (hrun : w.runs.runs.get? r = some run) : HasBatch batchId batch (w.movedRun r run target) := by
  refine h.congr rfl fun r' run' hrun' => ?_
  simp only [World.movedRun, Dict.get?_set]
  split
  · next heq =>
    subst heq
    rw [hrun] at hrun'
    cases hrun'
    exact ⟨_, rfl, rfl⟩
  · exact ⟨run', hrun', rfl⟩

theorem runState?_movedRun (w : World) (r : UUID) (run : RunRecord) (target : RunState) (r' : UUID) :
    runState? (w.movedRun r run target) r' = if r' = r then some target else runState? w r' := by
  unfold runState? World.movedRun
  simp only [Dict.get?_set]
  split <;> rfl

def createdRuns (w : World) (batch : ExecutionBatchRecord) : List UUID :=
  batch.runIds.filter fun r => runState? w r = some .created

def isOccupied (state : Option RunState) : Bool := state.any (· ∈ TestPlanRepository.OCCUPIED_STATES)

def occupied (w : World) (batch : ExecutionBatchRecord) : Nat :=
  batch.runIds.countP fun r => isOccupied (runState? w r)

def roomOf (w : World) (batch : ExecutionBatchRecord) : Nat := batch.maxParallel - occupied w batch

theorem chosen_records {l : List UUID} {records : List RunRecord}
    (h : List.Forall₂ (fun r record => w.runs.runs.get? r = some record ∧ record.id = r) l records) (available : Nat) :
    (chosen available records).map (·.id) = (l.filter fun r => runState? w r = some .created).take available := by
  rw [chosen, List.map_take]
  congr 1
  induction h with
  | nil => rfl
  | @cons r record l records hr _ ih =>
    have hstate : runState? w r = some record.state := by rw [runState?, hr.1]; rfl
    by_cases hcreated : record.state = .created
    · simp [hstate, hcreated, ih, hr.2]
    · simp [hstate, hcreated, ih]

theorem count_records {l : List UUID} {records : List RunRecord}
    (h : List.Forall₂ (fun r record => w.runs.runs.get? r = some record ∧ record.id = r) l records) :
    (records.countP fun record => record.state ∈ TestPlanRepository.OCCUPIED_STATES) =
      l.countP fun r => isOccupied (runState? w r) := by
  induction h with
  | nil => rfl
  | @cons r record l records hr _ ih =>
    have hstate : runState? w r = some record.state := by rw [runState?, hr.1]; rfl
    rw [List.countP_cons, List.countP_cons, ih, hstate]
    rfl

theorem forall₂_filterMap {l : List UUID} (h : ∀ r ∈ l, ∃ run, w.runs.runs.get? r = some run ∧ run.id = r) :
    List.Forall₂ (fun r record => w.runs.runs.get? r = some record ∧ record.id = r) l (l.filterMap w.runs.runs.get?) := by
  induction l with
  | nil => exact .nil
  | cons r rest ih =>
    obtain ⟨⟨run, hrun, hid⟩, hrest⟩ := List.forall_mem_cons.mp h
    rw [List.filterMap_cons_some hrun]
    exact .cons ⟨hrun, hid⟩ (ih hrest)

/-- Both claims take the first `CREATED` runs of the batch, as many as there is room for. -/
theorem claimRuns_eq (h : HasBatch batchId batch w) : ∃ runs,
    claimRuns w batchId =
      .ok (((createdRuns w batch).take (roomOf w batch), batch.runIds.length), runs) ∧
    ∀ r, runs.runs.get? r = if r ∈ (createdRuns w batch).take (roomOf w batch) then
      (w.runs.runs.get? r).map (·.moved .queued) else w.runs.runs.get? r := by
  have hforall := forall₂_filterMap h.runs
  generalize hrecords : batch.runIds.filterMap w.runs.runs.get? = records at hforall
  have hroom : room batch records = roomOf w batch := by rw [room, count_records hforall, roomOf, occupied]
  have hids : (chosen (room batch records) records).map (·.id) = (createdRuns w batch).take (roomOf w batch) := by
    rw [chosen_records hforall, hroom, createdRuns]
  have hfiled : ∀ record ∈ chosen (room batch records) records, w.runs.runs.get? record.id = some record := by
    intro record hrecord
    obtain ⟨r, -, hget, hid⟩ := exists_of_forall₂ hforall (mem_chosen hrecord).1
    rw [hid, hget]
  refine ⟨{ w.runs with runs := queueAll w.runs.runs (chosen (room batch records) records) }, ?_, ?_⟩
  · have hrows : batchRows w.plans w.runs batch.id = records := by
      rw [batchRows, h.fits.id, ← hrecords, ← h.fits.specs, List.filterMap_map]
      rfl
    have hsql : sqlClaimAvailableRuns w.plans w.runs batchId = .ok ((createdRuns w batch).take (roomOf w batch),
        { w.runs with runs := queueAll w.runs.runs (chosen (room batch records) records) }) := by
      rw [sqlClaimAvailableRuns_ok_iff]
      exact ⟨batch, h.stored, by rw [hrows, hids], by rw [hrows]⟩
    have hmemory : w.plans.claimAvailableRuns w.runs batchId = .ok ((createdRuns w batch).take (roomOf w batch),
        { w.runs with runs := queueAll w.runs.runs (chosen (room batch records) records) }) := by
      rw [claimAvailableRuns_ok_iff]
      exact ⟨batch, records, h.stored, hforall.imp fun _ _ hr => hr.1, hids.symm, rfl⟩
    rw [claimRuns, getExecutionBatch_ok_iff.mpr h.stored, ok_bind]
    by_cases hsqlKept : w.sql = true
    · rw [if_pos hsqlKept, hsql]
      rfl
    · rw [if_neg hsqlKept, hmemory]
      rfl
  · intro r
    rw [queueAll_get? hfiled, hids]

/-! ## Counting in a list -/

/-- Some members of a list come to be counted. -/
theorem countP_raised {p p' : UUID → Bool} {l raised : List UUID} (hsub : raised.Sublist l) (hnodup : l.Nodup)
    (hold : ∀ r ∈ raised, p r = false) (hnew : ∀ r ∈ raised, p' r = true)
    (hkept : ∀ r ∈ l, r ∉ raised → p' r = p r) : l.countP p' = l.countP p + raised.length := by
  induction hsub with
  | slnil => rfl
  | @cons raised l a hsub ih =>
    obtain ⟨ha, hnodup⟩ := List.nodup_cons.mp hnodup
    have hrest := ih hnodup hold hnew fun r hr => hkept r (List.mem_cons_of_mem _ hr)
    rw [List.countP_cons, List.countP_cons, hrest, hkept a List.mem_cons_self fun hr => ha (hsub.subset hr)]
    omega
  | @cons_cons raised l a hsub ih =>
    obtain ⟨ha, hnodup⟩ := List.nodup_cons.mp hnodup
    obtain ⟨holda, hold⟩ := List.forall_mem_cons.mp hold
    obtain ⟨hnewa, hnew⟩ := List.forall_mem_cons.mp hnew
    have hrest := ih hnodup hold hnew fun r hr hnot => hkept r (List.mem_cons_of_mem _ hr) fun hmem =>
      (List.mem_cons.mp hmem).elim (fun heq => ha (heq ▸ hr)) hnot
    rw [List.countP_cons, List.countP_cons, hrest, holda, hnewa, List.length_cons]
    simp only [if_true, Bool.false_eq_true, if_false]
    omega

theorem filter_not_taken {l : List UUID} (hnodup : l.Nodup) (n : Nat) : l.filter (· ∉ l.take n) = l.drop n := by
  have hparts := List.nodup_append.mp ((List.take_append_drop n l).symm ▸ hnodup)
  generalize htake : l.take n = taken at hparts
  generalize hdrop : l.drop n = dropped at hparts
  rw [← List.take_append_drop n l, htake, hdrop, List.filter_append]
  have hnone : taken.filter (· ∉ taken) = [] := List.filter_eq_nil_iff.mpr fun r hr => by simpa using hr
  have hall : dropped.filter (· ∉ taken) = dropped := by
    refine List.filter_eq_self.mpr fun r hr => ?_
    have hnot : r ∉ taken := fun hmem => hparts.2.2 r hmem r hr rfl
    simpa using hnot
  rw [hnone, hall, List.nil_append]

/-! ## The log of a call -/

/-- What a call has claimed, and the runs for which it has called the dispatcher. -/
structure Log where
  claimed : List UUID
  calls : List UUID

/-- For a queued run each dispatcher takes one such step. -/
def calledRuns (seen : SystemStep) : List UUID :=
  match seen.label with
  | .send runId => [runId]
  | .transition .dispatcher runId _ => [runId]
  | _ => []

def Log.empty : Log := ⟨[], []⟩

def Log.observe (seen : SystemStep) (log : Log) : Log where
  claimed := log.claimed ++ claimedRuns seen
  calls := log.calls ++ calledRuns seen

/-- What the others do: they leave claimed runs alone, and when `calm` all runs of the batch. -/
structure LeavesClaimed (batch : ExecutionBatchRecord) (calm : Prop) (claimed : List UUID) (w w' : World) : Prop where
  claimed : ∀ r ∈ claimed, runState? w' r = runState? w r
  created : ∀ r ∈ batch.runIds, runState? w' r = some .created → runState? w r = some .created
  calm : calm → ∀ r ∈ batch.runIds, runState? w' r = runState? w r

/-- Any step of the run system that leaves the claimed runs alone is one of these. -/
theorem LeavesClaimed.of_change {who : Notes} {label : Label} {claimed : List UUID} (h : Change who label w w')
    (hf : Filed w.runs) (hw : HasBatch batchId batch w) (hclaimed : ∀ r ∈ claimed, runState? w' r = runState? w r) :
    LeavesClaimed batch False claimed w w' where
  claimed := hclaimed
  created := by
    intro r hr hcreated
    obtain ⟨run, hrun, -⟩ := hw.runs r hr
    obtain ⟨run', hrun', hstep⟩ := h.run_cases hf hrun
    rw [runState?, hrun'] at hcreated
    rw [runState?, hrun]
    by_contra hnot
    exact hstep.not_created (fun hstate => hnot (congrArg some hstate)) (Option.some.inj hcreated)
  calm := False.elim

def undisturbed (batchId : UUID) (batch : ExecutionBatchRecord) (calm : Prop) : Rules Label World Log where
  obs := Log.observe
  inv x := HasBatch batchId batch x.1
  rely x y := y.2 = x.2 ∧ LeavesClaimed batch calm x.2.claimed x.1 y.1
  trust _ _ _ := True
  guar _ _ y := HasBatch batchId batch y.1
  guar_inv _ _ _ _ _ h := h

/-! ## In the middle of a call -/

/-- `dispatched` and `failed` are what the call has noted, `todo` the claimed runs to go. Up to `limit` runs
of the batch were asked for. -/
structure Midway (w₀ : World) (batch : ExecutionBatchRecord) (calm : Prop) (limit : Nat)
    (failed dispatched todo : List UUID) (x : World × Log) : Prop where
  inOrder : x.2.calls ++ todo = x.2.claimed
  answered : (dispatched ++ failed).Perm x.2.calls
  isFailed : ∀ r ∈ failed, runState? x.1 r = some .infraError
  isSent : ∀ r ∈ dispatched, runState? x.1 r = some .queued ∨ runState? x.1 r = some .dispatching
  isQueued : ∀ r ∈ todo, runState? x.1 r = some .queued
  batchOrder : (x.2.claimed ++ createdRuns x.1 batch).Sublist batch.runIds
  taken : calm → x.2.claimed ++ createdRuns x.1 batch = createdRuns w₀ batch
  filled : calm → occupied x.1 batch + failed.length = occupied w₀ batch + x.2.claimed.length
  upTo : calm → x.2.claimed = (createdRuns w₀ batch).take limit

variable {w₀ : World} {calm : Prop} {limit : Nat} {failed dispatched todo rest : List UUID} {r : UUID} {x y : World × Log}

namespace Midway

theorem mem_claimed (h : Midway w₀ batch calm limit failed dispatched todo x) :
    (∀ r ∈ failed, r ∈ x.2.claimed) ∧ (∀ r ∈ dispatched, r ∈ x.2.claimed) ∧ ∀ r ∈ todo, r ∈ x.2.claimed := by
  rw [← h.inOrder]
  refine ⟨fun r hr => ?_, fun r hr => ?_, fun r hr => List.mem_append_right _ hr⟩
  · exact List.mem_append_left _ (h.answered.subset (List.mem_append_right _ hr))
  · exact List.mem_append_left _ (h.answered.subset (List.mem_append_left _ hr))

theorem mem_runIds (h : Midway w₀ batch calm limit failed dispatched todo x) (hr : r ∈ x.2.claimed) : r ∈ batch.runIds :=
  h.batchOrder.subset (List.mem_append_left _ hr)

/-- Others keep it. -/
theorem stable {batchId : UUID} : Stable (undisturbed batchId batch calm) (Midway w₀ batch calm limit failed dispatched todo) := by
  rintro ⟨w, log⟩ ⟨w', log'⟩ - - ⟨hlog, hothers⟩ h
  cases hlog
  have hmem := h.mem_claimed
  have hcreated : (createdRuns w' batch).Sublist (createdRuns w batch) := by
    have hfilter : createdRuns w' batch = (createdRuns w batch).filter fun r => runState? w' r = some .created := by
      rw [createdRuns, createdRuns, List.filter_filter]
      refine List.filter_congr fun r hr => ?_
      by_cases hnow : runState? w' r = some .created
      · simp [hnow, hothers.created r hr hnow]
      · simp [hnow]
    rw [hfilter]
    exact List.filter_sublist
  have hcalm : calm → createdRuns w' batch = createdRuns w batch ∧ occupied w' batch = occupied w batch := by
    intro hc
    constructor
    · exact List.filter_congr fun r hr => by rw [hothers.calm hc r hr]
    · exact List.countP_congr fun r hr => by rw [hothers.calm hc r hr]
  constructor
  · exact h.inOrder
  · exact h.answered
  · exact fun r hr => (hothers.claimed r (hmem.1 r hr)).trans (h.isFailed r hr)
  · exact fun r hr => by rw [hothers.claimed r (hmem.2.1 r hr)]; exact h.isSent r hr
  · exact fun r hr => (hothers.claimed r (hmem.2.2 r hr)).trans (h.isQueued r hr)
  · exact ((List.Sublist.refl _).append hcreated).trans h.batchOrder
  · intro hc
    rw [(hcalm hc).1]
    exact h.taken hc
  · intro hc
    rw [(hcalm hc).2]
    exact h.filled hc
  · exact h.upTo

theorem nodup_claimed (h : Midway w₀ batch calm limit failed dispatched todo x) (hnodup : batch.runIds.Nodup) :
    (x.2.calls ++ todo).Nodup := by
  rw [h.inOrder]
  exact ((List.sublist_append_left _ _).trans h.batchOrder).nodup hnodup

/-- The run at the front is sent; its state may have changed. -/
theorem sent (h : Midway w₀ batch calm limit failed dispatched (r :: rest) x) (hnodup : batch.runIds.Nodup)
    {state : RunState} (hstate : state = .queued ∨ state = .dispatching) (hr : runState? y.1 r = some state)
    (hkept : ∀ r' ≠ r, runState? y.1 r' = runState? x.1 r') (hclaimed : y.2.claimed = x.2.claimed)
    (hcalls : y.2.calls = x.2.calls ++ [r]) : Midway w₀ batch calm limit failed (dispatched ++ [r]) rest y := by
  have hbefore := h.isQueued r (by simp)
  have hcreated : createdRuns y.1 batch = createdRuns x.1 batch := by
    refine List.filter_congr fun r' _ => ?_
    by_cases heq : r' = r
    · subst heq
      rw [hr, hbefore]
      rcases hstate with rfl | rfl <;> rfl
    · rw [hkept r' heq]
  have hoccupied : System.occupied y.1 batch = System.occupied x.1 batch := by
    refine List.countP_congr fun r' _ => ?_
    by_cases heq : r' = r
    · subst heq
      rw [hr, hbefore]
      rcases hstate with rfl | rfl <;> rfl
    · rw [hkept r' heq]
  constructor
  · rw [hcalls, hclaimed, ← h.inOrder, List.append_assoc]
    rfl
  · rw [hcalls, List.append_assoc]
    exact (List.perm_append_comm.append_left dispatched).trans
      ((List.append_assoc dispatched failed [r]) ▸ h.answered.append_right [r])
  · intro r' hr'
    have hne : r' ≠ r := by
      rintro rfl
      have hfailed := h.isFailed r' hr'
      rw [hbefore] at hfailed
      cases hfailed
    rw [hkept r' hne]
    exact h.isFailed r' hr'
  · intro r' hr'
    by_cases heq : r' = r
    · subst heq
      rw [hr]
      exact hstate.imp (congrArg some) (congrArg some)
    · rw [hkept r' heq]
      exact h.isSent r' ((List.mem_append.mp hr').resolve_right (by simpa using heq))
  · intro r' hr'
    have hne : r' ≠ r := by
      rintro rfl
      exact (List.nodup_cons.mp (List.nodup_append.mp (h.nodup_claimed hnodup)).2.1).1 hr'
    rw [hkept r' hne]
    exact h.isQueued r' (List.mem_cons_of_mem _ hr')
  · rw [hclaimed, hcreated]
    exact h.batchOrder
  · rw [hclaimed, hcreated]
    exact h.taken
  · rw [hclaimed, hoccupied]
    exact h.filled
  · rw [hclaimed]
    exact h.upTo

/-- The run that was sent last turns out to have failed. -/
theorem refuse (h : Midway w₀ batch calm limit failed (dispatched ++ [r]) todo x) (hnodup : batch.runIds.Nodup)
    (hr : runState? y.1 r = some .infraError) (hkept : ∀ r' ≠ r, runState? y.1 r' = runState? x.1 r')
    (hlog : y.2 = x.2) : Midway w₀ batch calm limit (failed ++ [r]) dispatched todo y := by
  have hbefore := h.isSent r (by simp)
  have hcalled : r ∈ x.2.calls := h.answered.subset (by simp)
  have hmem : r ∈ batch.runIds := h.mem_runIds (h.mem_claimed.2.1 r (by simp))
  have hcreated : createdRuns y.1 batch = createdRuns x.1 batch := by
    refine List.filter_congr fun r' _ => ?_
    by_cases heq : r' = r
    · subst heq
      rcases hbefore with hbefore | hbefore <;> rw [hr, hbefore] <;> rfl
    · rw [hkept r' heq]
  have hoccupied : System.occupied x.1 batch = System.occupied y.1 batch + 1 := by
    refine countP_raised (List.singleton_sublist.mpr hmem) hnodup ?_ ?_ ?_
    · intro r' hr'
      rw [List.mem_singleton.mp hr', hr]
      rfl
    · intro r' hr'
      rw [List.mem_singleton.mp hr']
      rcases hbefore with hbefore | hbefore <;> rw [hbefore] <;> rfl
    · intro r' _ hr'
      rw [hkept r' (by simpa using hr')]
  constructor
  · rw [hlog]
    exact h.inOrder
  · rw [hlog]
    refine List.Perm.trans ?_ h.answered
    rw [List.append_assoc]
    exact List.perm_append_comm.append_left dispatched
  · intro r' hr'
    by_cases heq : r' = r
    · rw [heq, hr]
    · rw [hkept r' heq]
      exact h.isFailed r' ((List.mem_append.mp hr').resolve_right (by simpa using heq))
  · intro r' hr'
    have hne : r' ≠ r := by
      rintro rfl
      have hall := h.answered.nodup_iff.mpr (List.nodup_append.mp (h.nodup_claimed hnodup)).1
      exact (List.nodup_append.mp (List.nodup_append.mp hall).1).2.2 r' hr' r' (by simp) rfl
    rw [hkept r' hne]
    exact h.isSent r' (List.mem_append_left _ hr')
  · intro r' hr'
    have hne : r' ≠ r := by
      rintro rfl
      exact (List.nodup_append.mp (h.nodup_claimed hnodup)).2.2 r' hcalled r' hr' rfl
    rw [hkept r' hne]
    exact h.isQueued r' hr'
  · rw [hlog, hcreated]
    exact h.batchOrder
  · rw [hlog, hcreated]
    exact h.taken
  · intro hc
    have hfilled := h.filled hc
    rw [hlog, List.length_append, List.length_singleton]
    omega
  · rw [hlog]
    exact h.upTo

/-- With nothing left to do the next runs are claimed. -/
theorem claim (h : Midway w₀ batch calm limit failed dispatched [] x) (hnodup : batch.runIds.Nodup) {room limit' : Nat}
    (hlimit : calm → x.2.claimed ++ (createdRuns x.1 batch).take room = (createdRuns w₀ batch).take limit')
    (hstate : ∀ r, runState? y.1 r = if r ∈ (createdRuns x.1 batch).take room then some .queued else runState? x.1 r)
    (hclaimed : y.2.claimed = x.2.claimed ++ (createdRuns x.1 batch).take room) (hcalls : y.2.calls = x.2.calls) :
    Midway w₀ batch calm limit' failed dispatched ((createdRuns x.1 batch).take room) y := by
  have hsub : (createdRuns x.1 batch).Sublist batch.runIds := List.filter_sublist
  have hfree : ∀ r ∈ (createdRuns x.1 batch).take room, runState? x.1 r = some .created := fun r hr => by
    simpa using (List.mem_filter.mp (List.mem_of_mem_take hr)).2
  have hcreated : createdRuns y.1 batch = (createdRuns x.1 batch).drop room := by
    rw [← filter_not_taken (hsub.nodup hnodup) room]
    generalize htaken : (createdRuns x.1 batch).take room = taken at *
    rw [createdRuns, createdRuns, List.filter_filter]
    refine List.filter_congr fun r _ => ?_
    rw [hstate r]
    by_cases hr : r ∈ taken
    · simp [hr]
    · simp [hr]
  have hoccupied : System.occupied y.1 batch =
      System.occupied x.1 batch + ((createdRuns x.1 batch).take room).length := by
    refine countP_raised ((List.take_sublist _ _).trans hsub) hnodup ?_ ?_ ?_
    · intro r hr
      rw [hfree r hr]
      rfl
    · intro r hr
      rw [hstate r, if_pos hr]
      rfl
    · intro r _ hr
      rw [hstate r, if_neg hr]
  have hkept : ∀ r, runState? x.1 r ≠ some .created → runState? y.1 r = runState? x.1 r := by
    intro r hr
    rw [hstate r, if_neg fun hmem => hr (hfree r hmem)]
  have hcalled := h.inOrder
  rw [List.append_nil] at hcalled
  constructor
  · rw [hcalls, hclaimed, hcalled]
  · rw [hcalls]
    exact h.answered
  · intro r hr
    rw [hkept r (by simp [h.isFailed r hr]), h.isFailed r hr]
  · intro r hr
    have hsent := h.isSent r hr
    rwa [hkept r (by rcases hsent with hs | hs <;> simp [hs])]
  · intro r hr
    rw [hstate r, if_pos hr]
  · rw [hclaimed, hcreated, List.append_assoc, List.take_append_drop]
    exact h.batchOrder
  · rw [hclaimed, hcreated, List.append_assoc, List.take_append_drop]
    exact h.taken
  · intro hc
    have hfilled := h.filled hc
    rw [hclaimed, hoccupied, List.length_append]
    omega
  · rw [hclaimed]
    exact hlimit

/-- In a calm batch the next claim makes up for every failure. -/
theorem refill (h : Midway w₀ batch calm limit failed dispatched [] x) (hcalm : calm)
    (hlimit : limit ≤ roomOf w₀ batch + failed.length) (hroom : limit = 0 ∨ 0 < roomOf w₀ batch) :
    x.2.claimed ++ (createdRuns x.1 batch).take (roomOf x.1 batch) =
      (createdRuns w₀ batch).take (roomOf w₀ batch + failed.length) := by
  have hcount : x.2.claimed.length ≤ limit := by
    rw [h.upTo hcalm]
    exact List.length_take_le _ _
  have hfilled := h.filled hcalm
  have hfew : failed.length ≤ x.2.claimed.length := by
    rw [← h.inOrder, List.append_nil, ← h.answered.length_eq, List.length_append]
    omega
  have hnext : roomOf x.1 batch = roomOf w₀ batch + failed.length - x.2.claimed.length := by
    unfold roomOf at *
    omega
  have hall : x.2.claimed.take (roomOf w₀ batch + failed.length) = x.2.claimed :=
    List.take_of_length_le (by omega)
  rw [← h.taken hcalm, List.take_append, hall, hnext]

end Midway

/-! ## The steps of a call -/

section Steps

variable {batchId : UUID}

theorem transition_midway (site : Site) (target : RunState) {Q : World × Log → Prop}
    (hmem : r ∈ batch.runIds) (hP : Stable (undisturbed batchId batch calm) Q)
    (hallowed : ∀ x, Q x → ∃ state, runState? x.1 r = some state ∧ target ∈ RUN_TRANSITIONS state) :
    Triple (undisturbed batchId batch calm) Q (transition site r target)
      (fun _ y => ∃ x run, Q x ∧ x.1.runs.runs.get? r = some run ∧ y = (undisturbed batchId batch calm).after
        (.transition site r target) (fun w => w.movedRun r run target) x) fun _ _ => False := by
  refine Triple.op hP fun x hx hQ _ => ?_
  obtain ⟨run, hrun, -⟩ := hx.runs r hmem
  obtain ⟨state, hstate, hto⟩ := hallowed x hQ
  rw [runState?, hrun] at hstate
  cases hstate
  have hop : World.onRuns (fun w => w.runs.transition r target) x.1 =
      (.ok (run.moved target), x.1.movedRun r run target) := by
    unfold World.onRuns
    dsimp only
    rw [transition_eq hrun hto]
    rfl
  unfold Rules.after
  dsimp only
  rw [hop]
  exact ⟨hx.movedRun target hrun, x, run, hQ, hrun, rfl⟩

theorem sendTask_midway (hnodup : batch.runIds.Nodup) (failure : Option Exn) :
    Triple (undisturbed batchId batch calm) (Midway w₀ batch calm limit failed dispatched (r :: rest)) (sendTask r failure)
      (fun _ => Midway w₀ batch calm limit failed (dispatched ++ [r]) rest)
      fun _ => Midway w₀ batch calm limit failed (dispatched ++ [r]) rest := by
  refine Triple.op Midway.stable fun x hx h _ => ⟨hx, ?_⟩
  have hsent : Midway w₀ batch calm limit failed (dispatched ++ [r]) rest
      ((undisturbed batchId batch calm).after (.send r) id x) :=
    h.sent hnodup (.inl rfl) (h.isQueued r (by simp)) (fun _ _ => rfl) (List.append_nil _) rfl
  cases failure with
  | none => exact hsent
  | some e => exact hsent

theorem advance_midway (hnodup : batch.runIds.Nodup) (hmem : r ∈ batch.runIds) (message : String) :
    Triple (undisturbed batchId batch calm) (Midway w₀ batch calm limit failed dispatched (r :: rest))
      (advance .dispatcher message r) (fun _ => Midway w₀ batch calm limit failed (dispatched ++ [r]) rest)
      fun _ _ => False := by
  have hget : Triple (undisturbed batchId batch calm) (Midway w₀ batch calm limit failed dispatched (r :: rest)) (get r)
      (fun current x => Midway w₀ batch calm limit failed dispatched (r :: rest) x ∧ current.state = .queued)
      fun _ _ => False := by
    refine Triple.op Midway.stable fun x hx h _ => ⟨hx, ?_⟩
    obtain ⟨run, hrun, -⟩ := hx.runs r hmem
    have hqueued := h.isQueued r (by simp)
    rw [runState?, hrun] at hqueued
    have hlog : (undisturbed batchId batch calm).after .read id x = x := by
      simp [Rules.after, undisturbed, Log.observe, claimedRuns, calledRuns]
    have hgot : x.1.runs.get r = .ok run := getLocked_ok_iff.mpr hrun
    change Meets _ _ (x.1.runs.get r) ((undisturbed batchId batch calm).after .read id x)
    rw [hgot, hlog]
    exact ⟨h, Option.some.inj hqueued⟩
  refine hget.bind fun current => Triple.assume fun hqueued => ?_
  rw [if_neg (by rw [hqueued]; decide), if_neg (by rw [hqueued]; decide)]
  refine Triple.handle (E := fun _ _ => False) ?_ fun e => ?_
  · refine (transition_midway .dispatcher .dispatching hmem Midway.stable fun x h => ?_).weaken (fun _ _ h => h) ?_ ?_
    · exact ⟨_, h.isQueued r (by simp), by decide⟩
    · rintro _ _ - ⟨x, run, h, -, rfl⟩
      refine h.sent hnodup (.inr rfl) ?_ ?_ (List.append_nil _) rfl
      · exact (runState?_movedRun ..).trans (if_pos rfl)
      · exact fun r' hr' => (runState?_movedRun ..).trans (if_neg hr')
    · exact fun _ _ _ h => h
  · exact fun x _ h => h.elim

theorem dispatch_midway (hnodup : batch.runIds.Nodup) (hmem : r ∈ batch.runIds) (dispatcher : Dispatcher) :
    Triple (undisturbed batchId batch calm) (Midway w₀ batch calm limit failed dispatched (r :: rest)) (dispatch dispatcher r)
      (fun _ => Midway w₀ batch calm limit failed (dispatched ++ [r]) rest)
      fun _ => Midway w₀ batch calm limit failed (dispatched ++ [r]) rest := by
  cases dispatcher with
  | database =>
    refine Triple.bind ?_ fun _ => Triple.ret fun _ _ h => h
    exact (advance_midway hnodup hmem _).weaken (fun _ _ h => h) (fun _ _ _ h => h) fun _ _ _ h => h.elim
  | celery fails => exact sendTask_midway hnodup _

theorem dispatchOne_midway (hnodup : batch.runIds.Nodup) (hmem : r ∈ batch.runIds) (dispatcher : Dispatcher) :
    Triple (undisturbed batchId batch calm) (Midway w₀ batch calm limit failed dispatched (r :: rest))
      (dispatchOne dispatcher r)
      (fun sent => if sent then Midway w₀ batch calm limit failed (dispatched ++ [r]) rest
        else Midway w₀ batch calm limit (failed ++ [r]) dispatched rest) fun _ _ => False := by
  refine Triple.handle ((dispatch_midway hnodup hmem dispatcher).bind fun _ => Triple.ret fun _ _ h => h) fun e => ?_
  refine Triple.bind (Q := fun _ => Midway w₀ batch calm limit (failed ++ [r]) dispatched rest) ?_ fun _ =>
    Triple.ret fun _ _ h => h
  refine (transition_midway .coordinator .infraError hmem Midway.stable fun x h => ?_).weaken (fun _ _ h => h) ?_ ?_
  · rcases h.isSent r (by simp) with hs | hs
    · exact ⟨_, hs, by decide⟩
    · exact ⟨_, hs, by decide⟩
  · rintro _ _ - ⟨x, run, h, -, rfl⟩
    refine h.refuse hnodup ((runState?_movedRun ..).trans (if_pos rfl)) ?_ ?_
    · exact fun r' hr' => (runState?_movedRun ..).trans (if_neg hr')
    · simp [Rules.after, undisturbed, Log.observe, claimedRuns, calledRuns]
  · exact fun _ _ _ h => h

theorem dispatchClaimed_midway (hnodup : batch.runIds.Nodup) (dispatcher : Dispatcher) :
    Triple (undisturbed batchId batch calm) (Midway w₀ batch calm limit failed dispatched todo)
      (dispatchClaimed dispatcher todo)
      (fun result => Midway w₀ batch calm limit (failed ++ result.failed) (dispatched ++ result.dispatched) [])
      fun _ _ => False := by
  induction todo generalizing failed dispatched with
  | nil => exact Triple.ret fun x _ h => by simpa using h
  | cons r rest ih =>
    intro x hx h
    have hmem : r ∈ batch.runIds := h.mem_runIds (h.mem_claimed.2.2 r (by simp))
    refine ((dispatchOne_midway hnodup hmem dispatcher).bind fun sent => ?_) x hx h
    cases sent with
    | true =>
      refine ih.bind fun result => Triple.ret fun x _ h => ?_
      simpa using h
    | false =>
      refine ih.bind fun result => Triple.ret fun x _ h => ?_
      simpa using h

theorem claimAvailableRuns_midway (hlimit : limit ≤ roomOf w₀ batch + failed.length)
    (hroom : calm → limit = 0 ∨ 0 < roomOf w₀ batch) :
    Triple (undisturbed batchId batch calm) (Midway w₀ batch calm limit failed dispatched [])
      (claimAvailableRuns batchId) (fun answer x => Midway w₀ batch calm (roomOf w₀ batch + failed.length) failed
        dispatched answer.1 x ∧ answer.2 = batch.runIds.length) fun _ _ => False := by
  refine Triple.op Midway.stable fun x hx h _ => ?_
  obtain ⟨runs, hclaim, hget⟩ := claimRuns_eq hx
  have hop : World.onRuns (fun w => claimRuns w batchId) x.1 =
      (.ok ((createdRuns x.1 batch).take (roomOf x.1 batch), batch.runIds.length), { x.1 with runs := runs }) := by
    unfold World.onRuns
    dsimp only
    rw [hclaim]
  unfold Rules.after
  dsimp only
  rw [hop]
  have hstate : ∀ r, runState? { x.1 with runs := runs } r =
      if r ∈ (createdRuns x.1 batch).take (roomOf x.1 batch) then some .queued else runState? x.1 r := by
    intro r
    simp only [runState?, hget]
    split
    · next hr =>
      have hcreated := (List.mem_filter.mp (List.mem_of_mem_take hr)).2
      obtain ⟨run, hrun⟩ : ∃ run, x.1.runs.runs.get? r = some run := by
        cases hrun : x.1.runs.runs.get? r with
        | none => simp [runState?, hrun] at hcreated
        | some run => exact ⟨run, rfl⟩
      rw [hrun]
      rfl
    · rfl
  refine ⟨hx.congr rfl fun r run hrun => ?_, h.claim hx.fits.nodup (fun hc => h.refill hc hlimit (hroom hc)) hstate ?_ ?_, rfl⟩
  · rw [hget]
    split
    · exact ⟨run.moved .queued, by rw [hrun]; rfl, rfl⟩
    · exact ⟨run, hrun, rfl⟩
  · simp [undisturbed, Log.observe, claimedRuns, hclaim]
  · simp [undisturbed, Log.observe, calledRuns]

/-! ## The whole call -/

/-- What the answer of a call says about the runs it claimed. -/
structure Accounted (w₀ : World) (batch : ExecutionBatchRecord) (calm : Prop) (result : DispatchResult)
    (x : World × Log) : Prop where
  calledOnce : x.2.calls = x.2.claimed
  batchOrder : x.2.claimed.Sublist batch.runIds
  once : x.2.claimed.Nodup
  answered : (result.dispatched ++ result.failed).Perm x.2.claimed
  isFailed : ∀ r ∈ result.failed, runState? x.1 r = some .infraError
  isSent : ∀ r ∈ result.dispatched, runState? x.1 r = some .queued ∨ runState? x.1 r = some .dispatching
  replaced : calm → x.2.claimed = (createdRuns w₀ batch).take (roomOf w₀ batch + result.failed.length)

theorem Midway.accounted (hnodup : batch.runIds.Nodup)
    (h : Midway w₀ batch calm (roomOf w₀ batch + failed.length) failed dispatched [] x) :
    Accounted w₀ batch calm ⟨dispatched, failed⟩ x where
  calledOnce := by
    rw [← h.inOrder, List.append_nil]
  batchOrder := (List.sublist_append_left _ _).trans h.batchOrder
  once := by
    rw [← h.inOrder]
    exact h.nodup_claimed hnodup
  answered := by
    rw [← h.inOrder, List.append_nil]
    exact h.answered
  isFailed := h.isFailed
  isSent := h.isSent
  replaced := h.upTo

/-- The bound on the rounds is never met: each round takes a run of the batch. -/
theorem dispatchRounds_accounted (hnodup : batch.runIds.Nodup) (dispatcher : Dispatcher) {rounds : Nat}
    (hrounds : batch.runIds.length ≤ rounds + (dispatched.length + failed.length))
    (hroom : calm → todo ≠ [] → 0 < roomOf w₀ batch) :
    Triple (undisturbed batchId batch calm) (Midway w₀ batch calm (roomOf w₀ batch + failed.length) failed dispatched todo)
      (dispatchRounds dispatcher batchId rounds todo dispatched failed) (Accounted w₀ batch calm) fun _ _ => False := by
  induction rounds generalizing todo failed dispatched with
  | zero =>
    cases todo with
    | nil => exact Triple.ret fun x _ h => h.accounted hnodup
    | cons r rest =>
      intro x _ h
      have hlength := ((List.sublist_append_left _ _).trans h.batchOrder).length_le
      rw [← h.inOrder, List.length_append, List.length_cons, ← h.answered.length_eq, List.length_append] at hlength
      omega
  | succ rounds ih =>
    cases todo with
    | nil => exact Triple.ret fun x _ h => h.accounted hnodup
    | cons r rest =>
      refine (dispatchClaimed_midway hnodup dispatcher).bind fun result => ?_
      dsimp only
      split
      · next hnone =>
        refine Triple.ret fun x _ h => ?_
        rw [hnone, List.append_nil] at h
        exact h.accounted hnodup
      · next hsome =>
        have hroom' : calm → 0 < roomOf w₀ batch := fun hc => hroom hc (by simp)
        have hprogress : 0 < result.failed.length := List.length_pos_iff.mpr hsome
        refine (claimAvailableRuns_midway (by rw [List.length_append]; omega) fun hc => .inr (hroom' hc)).bind fun answer => ?_
        refine Triple.weaken (ih ?_ fun hc _ => hroom' hc) (fun _ _ h => h.1) (fun _ _ _ h => h) fun _ _ _ h => h
        simp only [List.length_append]
        omega

/-- However others move the state meanwhile, the call returns and accounts for every run it claimed. In a
calm batch it claims as many runs as there was room for and one more for each failure, while there are any. -/
theorem batch_dispatch_accounts (dispatcher : Dispatcher) (calm : Prop) (hw : HasBatch batchId batch w₀) :
    Safe (undisturbed batchId batch calm) (Accounted w₀ batch calm) (fun _ _ => False)
      (dispatchAvailable dispatcher batchId) (w₀, .empty) := by
  have hstart : Midway w₀ batch calm 0 [] [] [] (w₀, .empty) := by
    constructor <;> simp [Log.empty, createdRuns]
  refine ((claimAvailableRuns_midway (Nat.zero_le _) fun _ => .inl rfl).bind fun answer x hx h => ?_) _ hw hstart
  have hcalls : x.2.calls = [] := List.length_eq_zero_iff.mp h.1.answered.length_eq.symm
  have hclaimed : answer.1 = x.2.claimed := by
    rw [← h.1.inOrder, hcalls, List.nil_append]
  have hroom : calm → answer.1 ≠ [] → 0 < roomOf w₀ batch := by
    intro hc hne
    rw [hclaimed, h.1.upTo hc] at hne
    by_contra hzero
    simp [Nat.le_zero.mp (Nat.not_lt.mp hzero)] at hne
  refine dispatchRounds_accounted hx.fits.nodup dispatcher ?_ hroom x hx h.1
  rw [h.2]
  exact Nat.le_add_right _ _

end Steps

/-! ## A batch of which two runs cannot be sent -/

def smokeSpec (name : String) : RunSpecRecord where
  id := ⟨name⟩
  runId := ⟨name⟩
  batchId := ⟨"b"⟩
  tenantId := ⟨"t"⟩
  projectId := ⟨"j"⟩
  planId := ⟨"p"⟩
  planRevision := 1
  itemId := ⟨"i"⟩
  rowKey := name
  engine := .pytest
  scriptId := ⟨"s"⟩
  scriptRevision := 1
  sourceRef := ""
  contentDigest := ""
  entrypoint := ""
  timeoutSeconds := 60
  environmentId := none
  environmentRevision := none
  environmentVariables := .empty
  parameters := .empty
  secretReferences := []
  executionPolicy := .plain .default

def smokeBatch : ExecutionBatchRecord :=
  ⟨⟨"b"⟩, ⟨"t"⟩, ⟨"j"⟩, ⟨"p"⟩, 1, "smoke", 1, [⟨"r1"⟩, ⟨"r2"⟩, ⟨"r3"⟩]⟩

def smokeRuns : Dict UUID RunRecord :=
  ["r1", "r2", "r3"].foldl (fun runs name => runs.set ⟨name⟩ ⟨⟨name⟩, .pytest, .empty, .created, 0, 0⟩) .empty

def smokeSpecs : Dict UUID RunSpecRecord :=
  ["r1", "r2", "r3"].foldl (fun specs name => specs.set ⟨name⟩ (smokeSpec name)) .empty

def smokeWorld : World where
  runs := { RunRepository.empty with runs := smokeRuns }
  plans := ⟨.empty, Dict.empty.set ⟨"b"⟩ smokeBatch, smokeSpecs, .empty⟩
  clock := 0
  services := .empty
  sql := false

def lostBroker (runId : UUID) : Option Exn :=
  if runId = ⟨"r3"⟩ then none else some ⟨.other "OperationalError", "no broker"⟩

/-- All three are claimed, one after the other, though only one may run at a time. -/
theorem smoke_batch_accounted :
    Safe (undisturbed ⟨"b"⟩ smokeBatch True) (Accounted smokeWorld smokeBatch True) (fun _ _ => False)
      (dispatchAvailable (.celery lostBroker) ⟨"b"⟩) (smokeWorld, .empty) ∧
    ((dispatchAvailable (.celery lostBroker) ⟨"b"⟩).runWith (fun _ w => w) 0 smokeWorld).2.1 =
      .ok ⟨[⟨"r3"⟩], [⟨"r1"⟩, ⟨"r2"⟩]⟩ := by
  refine ⟨batch_dispatch_accounts (.celery lostBroker) True ⟨rfl, ⟨rfl, by decide, rfl⟩, fun r hr => ?_⟩, rfl⟩
  have hthree : r = ⟨"r1"⟩ ∨ r = ⟨"r2"⟩ ∨ r = ⟨"r3"⟩ := by simpa [smokeBatch] using hr
  rcases hthree with rfl | rfl | rfl
  · exact ⟨_, rfl, rfl⟩
  · exact ⟨_, rfl, rfl⟩
  · exact ⟨_, rfl, rfl⟩

end SmartTest.System
