import SmartTest.Load.Convergence
import SmartTest.Load.Workers

/-!
# What is stored of a run

As long as the repository does not fail: the stored total never goes down, the record of a
finished run stays as it is, and in the end every response that was counted is stored once,
under the sequence number it was counted with.
-/

open SmartTest.Lib SmartTest.Run

namespace SmartTest.Load

/-! ## Responses in the service -/

namespace Execution

variable {runId : UUID} {x y : Execution}

/-- The responses of the run that are stored. -/
def stored (runId : UUID) (x : Execution) : List LoadTestResponse := (x.repo.responses.get? runId).getD []

/-- How often a response is stored or pending. -/
def held (runId : UUID) (x : Execution) (item : LoadTestResponse) : Nat :=
  (x.stored runId).count item + x.pending.count item

/-- Stored in the order of their sequence. -/
def InOrder (runId : UUID) (x : Execution) : Prop := (x.stored runId).Pairwise fun a b => a.sequence ≤ b.sequence

/-- Everything that is pending is stored. -/
theorem store_false {run : LoadTestRunRecord} (hrun : x.repo.runs.get? runId = some run) :
    x.store runId false = (.ok (), { x with
      pending := []
      repo := { x.repo with
        responses := x.repo.responses.set runId
          ((x.stored runId ++ x.pending).insertionSort fun a b => a.sequence ≤ b.sequence) } }) := by
  have hget : x.repo.getRun runId = .ok run := by rw [LoadTestRepository.getRun, hrun]
  simp [store, LoadTestRepository.addRunResponses, hget, ok_bind, pure, Except.pure, stored]

/-- What a store or a flush leaves: the same responses, in order, and nothing pending. -/
structure Flushed (runId : UUID) (x y : Execution) : Prop where
  runs : y.repo.runs = x.repo.runs
  rest : y.latest = x.latest ∧ y.checked = x.checked ∧ y.stage = x.stage
  held : ∀ item, held runId y item = held runId x item
  inOrder : InOrder runId y
  pending : y.pending = []

theorem store_flushed {run : LoadTestRunRecord} (hrun : x.repo.runs.get? runId = some run) :
    Flushed runId x (x.store runId false).2 := by
  rw [store_false hrun]
  refine ⟨rfl, ⟨rfl, rfl, rfl⟩, ?_, ?_, rfl⟩
  · intro item
    have hcount := (List.perm_insertionSort (fun a b : LoadTestResponse => a.sequence ≤ b.sequence)
      (x.stored runId ++ x.pending)).count_eq item
    rw [List.count_append] at hcount
    simpa [Execution.held, stored] using hcount
  · simp only [InOrder, stored, Dict.get?_set_self, Option.getD_some]
    exact List.pairwise_insertionSort _ _

theorem flush_flushed {run : LoadTestRunRecord} (hrun : x.repo.runs.get? runId = some run)
    (horder : InOrder runId x) : (x.flush runId false).1 = .ok () ∧ Flushed runId x (x.flush runId false).2 := by
  unfold flush
  split
  · next hpending => exact ⟨rfl, rfl, ⟨rfl, rfl, rfl⟩, fun _ => rfl, horder, hpending⟩
  · exact ⟨by rw [store_false hrun], store_flushed hrun⟩

/-- What a response leaves: it is held once more. -/
structure Responded (runId : UUID) (x y : Execution) (item : LoadTestResponse) : Prop where
  runs : y.repo.runs = x.repo.runs
  rest : y.latest = x.latest ∧ y.checked = x.checked ∧ y.stage = x.stage
  held : ∀ other, held runId y other = held runId x other + if item = other then 1 else 0
  inOrder : InOrder runId y

theorem respond_responded {run : LoadTestRunRecord} (hrun : x.repo.runs.get? runId = some run)
    (horder : InOrder runId x) (item : LoadTestResponse) : Responded runId x (x.respond runId item false) item := by
  have hcount : ∀ other, held runId { x with pending := x.pending ++ [item] } other =
      held runId x other + if item = other then 1 else 0 := by
    intro other
    simp [Execution.held, stored, List.count_singleton, Nat.add_assoc]
  unfold respond
  dsimp only
  split
  · obtain ⟨hruns, hrest, hheld, hinOrder, -⟩ :=
      store_flushed (x := { x with pending := x.pending ++ [item] }) hrun
    exact ⟨hruns, hrest, fun other => (hheld other).trans (hcount other), hinOrder⟩
  · exact ⟨rfl, ⟨rfl, rfl, rfl⟩, hcount, horder⟩

/-- With the run stored, the repository raises in neither callback. -/
theorem respondRaises_stored {run : LoadTestRunRecord} (hrun : x.repo.runs.get? runId = some run)
    (item : LoadTestResponse) : x.respondRaises runId item = false := by
  have hget : x.repo.getRun runId = .ok run := by rw [LoadTestRepository.getRun, hrun]
  simp [respondRaises, LoadTestRepository.addRunResponses, hget, ok_bind, pure, Except.pure, Except.toOption]

theorem snapshotRaises_stored {run : LoadTestRunRecord} (hrun : x.repo.runs.get? runId = some run) :
    x.snapshotRaises runId = false := by
  have hget : x.repo.getRun runId = .ok run := by rw [LoadTestRepository.getRun, hrun]
  cases hchecked : x.checked with
  | none => simp [snapshotRaises, hchecked]
  | some metrics =>
    simp only [snapshotRaises, hchecked, Option.any_some, LoadTestRepository.updateRun, hget, ok_bind]
    split <;> rfl

end Execution

/-! ## The stages -/

/-- The executor has not ended. -/
def Stage.Working : Stage → Prop
  | .starting | .executing => True
  | _ => False

/-- The last flush is still to come. -/
def Stage.Unflushed : Stage → Prop
  | .starting | .executing | .returned _ | .handling _ => True
  | _ => False

/-- What the executor returned. -/
def Stage.result : Stage → Option Metrics
  | .returned metrics | .flushed metrics | .decided metrics _ | .worded metrics _ _ => some metrics
  | _ => none

/-- The repository does not fail, and what a worker lets through the handlers of `_execute` take. -/
def Label.Reliable {γ κ ι : Type} (control : Control γ κ ι) : Label ι → Prop
  | .worker m => ∀ i cancelled shared k shared',
      control.step i cancelled shared k m.choice ≠ some (shared', .escape .baseException)
  | .main (.getRun fails) | .main (.flush fails) => fails = false
  | _ => True

theorem Stage.result_of_working {stage : Stage} (h : stage.Working) : stage.result = none := by
  cases stage <;> simp [Stage.Working, Stage.result] at h ⊢

namespace Running

variable {γ κ ι : Type} {control : Control γ κ ι} {runId : UUID} {workers : Nat}

/-- Whether a worker is about to hand the response over. -/
def handing (item : LoadTestResponse) : Worker κ → Nat
  | .responding other _ => if other = item then 1 else 0
  | _ => 0

def crew (x : Running γ κ) : List (Worker κ) := x.workers.getD []

/-- What holds in every state of a run in which the repository does not fail. -/
structure Tracked (runId : UUID) (x : Running γ κ) : Prop where
  steady : Execution.Steady runId x.service
  persisted : x.service.stage.Early → ∀ run, x.service.repo.runs.get? runId = some run →
    run.metrics.totalRequests = x.service.latest.totalRequests
  latest_le : x.service.latest.totalRequests ≤ x.metrics.totalRequests
  checked_le : ∀ metrics, x.service.checked = some metrics →
    x.service.latest.totalRequests < metrics.totalRequests ∧ metrics.totalRequests ≤ x.metrics.totalRequests
  snapping_le : ∀ w ∈ x.crew, ∀ metrics k, w = .snapping metrics k →
    metrics.totalRequests ≤ x.metrics.totalRequests
  result : ∀ metrics, x.service.stage.result = some metrics → metrics.totalRequests = x.metrics.totalRequests
  sequences : x.recorded.map (·.sequence) = List.range' 1 x.metrics.totalRequests
  kept : ∀ item, x.service.held runId item + crewSum (handing item) x.crew = x.recorded.count item
  settled : ¬ x.service.stage.Working → ∀ w ∈ x.crew, ended w = true
  handled : ∀ w ∈ x.crew, w ≠ .escaped .baseException
  emptied : ¬ x.service.stage.Unflushed → x.service.pending = []
  inOrder : x.service.InOrder runId
  unmanned : x.workers = none → x.recorded = []

/-- A worker that can move is there only while the executor works, and then the run is stored. -/
theorem Tracked.open {x : Running γ κ} (h : Tracked runId x) {w : Worker κ} (hw : w ∈ x.crew)
    (hopen : ended w = false) : x.service.stage.Working ∧
      ∃ run, x.service.repo.runs.get? runId = some run ∧ run.status = .running := by
  have hworking : x.service.stage.Working := by
    by_contra hnot
    have hended := h.settled hnot w hw
    rw [hopen] at hended
    cases hended
  refine ⟨hworking, h.steady.early ?_⟩
  cases hstage : x.service.stage <;> simp [hstage, Stage.Working, Stage.Early] at hworking ⊢

section Place

variable {x : Running γ κ} {crew : List (Worker κ)} {i : Nat} {w w' : Worker κ}

theorem Tracked.snapping_set (h : Tracked runId x) (hcrew : x.workers = some crew) {total : Nat}
    (htotal : x.metrics.totalRequests ≤ total)
    (hw' : ∀ metrics k, w' = .snapping metrics k → metrics.totalRequests ≤ total) :
    ∀ v ∈ crew.set i w', ∀ metrics k, v = .snapping metrics k → metrics.totalRequests ≤ total := by
  have hold : ∀ v ∈ crew, ∀ metrics k, v = .snapping metrics k → metrics.totalRequests ≤ total := by
    intro v hv metrics k hk
    exact (h.snapping_le v (by rw [Running.crew, hcrew]; exact hv) metrics k hk).trans htotal
  exact forall_mem_set hold hw'

theorem Tracked.handled_set (h : Tracked runId x) (hcrew : x.workers = some crew)
    (hw' : w' ≠ .escaped .baseException) : ∀ v ∈ crew.set i w', v ≠ .escaped .baseException := by
  have hold : ∀ v ∈ crew, v ≠ .escaped .baseException := by
    intro v hv
    exact h.handled v (by rw [Running.crew, hcrew]; exact hv)
  exact forall_mem_set (I := fun v : Worker κ => v ≠ .escaped .baseException) hold hw'

theorem Tracked.kept_set (h : Tracked runId x) (hcrew : x.workers = some crew) (hw : crew[i]? = some w)
    (w' : Worker κ) (item : LoadTestResponse) :
    x.service.held runId item + crewSum (handing item) (crew.set i w') + handing item w =
      x.recorded.count item + handing item w' := by
  have hsum := crewSum_set hw (handing item) w'
  have hbefore := h.kept item
  rw [Running.crew, hcrew, Option.getD_some] at hbefore
  omega

theorem Tracked.open_at (h : Tracked runId x) (hcrew : x.workers = some crew) (hw : crew[i]? = some w)
    (hopen : ended w = false) : x.service.stage.Working ∧
      ∃ run, x.service.repo.runs.get? runId = some run ∧ run.status = .running := by
  apply h.open _ hopen
  rw [Running.crew, hcrew]
  exact List.mem_of_getElem? hw

end Place

/-- A worker takes another place, and nothing of what is stored or pending changes. -/
theorem Tracked.place {x : Running γ κ} (h : Tracked runId x) {crew : List (Worker κ)} (hcrew : x.workers = some crew)
    {i : Nat} {w : Worker κ} (hw : crew[i]? = some w) (hopen : ended w = false) {w' : Worker κ}
    (hhanding : ∀ item, handing item w' = handing item w)
    (hsnapping : ∀ metrics k, w' = .snapping metrics k → metrics.totalRequests ≤ x.metrics.totalRequests)
    (hhandled : w' ≠ .escaped .baseException) (shared : γ) :
    Tracked runId { x.put crew i w' with shared := shared } := by
  obtain ⟨hworking, -⟩ := h.open_at hcrew hw hopen
  have hkept : ∀ item, x.service.held runId item + crewSum (handing item) (crew.set i w') = x.recorded.count item := by
    intro item
    have hafter := h.kept_set hcrew hw w' item
    rw [hhanding] at hafter
    exact Nat.add_right_cancel hafter
  exact { h with
    snapping_le := h.snapping_set hcrew le_rfl hsnapping
    kept := hkept
    settled := fun hnot => absurd hworking hnot
    handled := h.handled_set hcrew hhandled
    unmanned := by rintro ⟨⟩ }

/-- A request is counted: the response has the next sequence number. -/
theorem Tracked.count {x : Running γ κ} (h : Tracked runId x) {crew : List (Worker κ)} (hcrew : x.workers = some crew)
    {i : Nat} {target : String} {answer : Answer} {k : κ} (hw : crew[i]? = some (.counting target answer k))
    {metrics : Metrics} (hmetrics : metrics = x.metrics.add target answer.success answer.status answer.error) :
    Tracked runId { x.put crew i (.responding (responseRecord metrics.totalRequests target answer) k) with
      metrics := metrics
      recorded := x.recorded ++ [responseRecord metrics.totalRequests target answer] } := by
  have htotal : metrics.totalRequests = x.metrics.totalRequests + 1 := by
    rw [hmetrics, Metrics.totalRequests_add]
  have hless : x.metrics.totalRequests ≤ metrics.totalRequests := by omega
  obtain ⟨hworking, -⟩ := h.open_at hcrew hw rfl
  refine ⟨h.steady, h.persisted, h.latest_le.trans hless, ?_, h.snapping_set hcrew hless (by rintro snapped j ⟨⟩), ?_,
    ?_, ?_, fun hnot => absurd hworking hnot, h.handled_set hcrew (by rintro ⟨⟩), h.emptied, h.inOrder, by rintro ⟨⟩⟩
  · intro checked hchecked
    obtain ⟨hlt, hle⟩ := h.checked_le checked hchecked
    exact ⟨hlt, hle.trans hless⟩
  · intro result hresult
    cases (Stage.result_of_working hworking).symm.trans hresult
  · simp only [List.map_append, h.sequences, htotal, List.range'_1_concat, List.map_cons, List.map_nil, responseRecord,
      Nat.add_comm 1]
  · intro item
    have hafter := h.kept_set hcrew hw (.responding (responseRecord metrics.totalRequests target answer) k) item
    simp only [handing, Nat.add_zero] at hafter
    simpa [Running.crew, put, List.count_singleton] using hafter

/-- A response is handed over. -/
theorem Tracked.respond {x : Running γ κ} (h : Tracked runId x) {crew : List (Worker κ)} (hcrew : x.workers = some crew)
    {i : Nat} {item : LoadTestResponse} {k : κ} (hw : crew[i]? = some (.responding item k)) {service : Execution}
    (hstep : x.service.step runId (.respond item false) = some service) :
    Tracked runId { x.put crew i (if x.service.respondRaises runId item then .escaped .exception else .polling k) with
      service := service } := by
  obtain ⟨hworking, run, hrun, -⟩ := h.open_at hcrew hw rfl
  have hservice : service = x.service.respond runId item false := by
    simp only [Execution.step] at hstep
    split at hstep
    · exact (Option.some.inj hstep).symm
    · cases hstep
  have hresponded := Execution.respond_responded hrun h.inOrder item
  rw [← hservice] at hresponded
  obtain ⟨hlatest, hchecked, hstage⟩ := hresponded.rest
  rw [Execution.respondRaises_stored hrun, if_neg Bool.false_ne_true]
  refine ⟨h.steady.step hstep, ?_, ?_, ?_, h.snapping_set hcrew le_rfl (by rintro metrics j ⟨⟩), ?_, h.sequences, ?_,
    ?_, h.handled_set hcrew (by rintro ⟨⟩), ?_, hresponded.inOrder, by rintro ⟨⟩⟩
  · rw [hstage, hlatest, hresponded.runs]
    exact h.persisted
  · rw [hlatest]
    exact h.latest_le
  · rw [hlatest, hchecked]
    exact h.checked_le
  · rw [hstage]
    exact h.result
  · intro other
    have hafter := h.kept_set hcrew hw (.polling k) other
    have hheld := hresponded.held other
    simp only [handing] at hafter
    simp only [Running.crew, put, Option.getD_some]
    omega
  · rw [hstage]
    exact fun hnot => absurd hworking hnot
  · rw [hstage]
    intro hflushed
    cases hs : x.service.stage <;> simp [hs, Stage.Working, Stage.Unflushed] at hworking hflushed

/-- A snapshot passes its check, or is left. -/
theorem Tracked.snap {x : Running γ κ} (h : Tracked runId x) {crew : List (Worker κ)} (hcrew : x.workers = some crew)
    {i : Nat} {metrics : Metrics} {k : κ} (hw : crew[i]? = some (.snapping metrics k)) {service : Execution}
    (hstep : x.service.step runId (.checkSnapshot metrics) = some service) :
    Tracked runId { x.put crew i (if service.checked.isSome then .writing k else .own k) with service := service } := by
  have hplaced : Tracked runId (x.put crew i (if service.checked.isSome then .writing k else .own k)) := by
    refine h.place hcrew hw rfl ?_ ?_ ?_ x.shared
    · intro item
      split <;> rfl
    · intro snapped j hj
      split at hj <;> cases hj
    · split <;> simp
  have hle : metrics.totalRequests ≤ x.metrics.totalRequests :=
    h.snapping_le _ (by rw [Running.crew, hcrew]; exact List.mem_of_getElem? hw) metrics k rfl
  have hsteady := h.steady.step hstep
  simp only [Execution.step] at hstep
  split at hstep
  · obtain rfl := Option.some.inj hstep
    unfold Execution.checkSnapshot at hsteady hplaced ⊢
    split at hplaced
    · next hleft =>
      simp only [if_pos hleft]
      exact hplaced
    · next hpasses =>
      simp only [if_neg hpasses] at hsteady ⊢
      refine { hplaced with steady := hsteady, checked_le := ?_ }
      rintro checked ⟨⟩
      exact ⟨by simpa using (not_or.mp hpasses).2, hle⟩
  · cases hstep

/-- A snapshot is written: it becomes the latest. -/
theorem Tracked.write {x : Running γ κ} (h : Tracked runId x) {crew : List (Worker κ)} (hcrew : x.workers = some crew)
    {i : Nat} {k : κ} (hw : crew[i]? = some (.writing k)) {service : Execution}
    (hstep : x.service.step runId .writeSnapshot = some service) :
    Tracked runId { x.put crew i (if x.service.snapshotRaises runId then .escaped .exception else .own k) with
      service := service } := by
  obtain ⟨hworking, run, hrun, hrunning⟩ := h.open_at hcrew hw rfl
  have hplaced : Tracked runId (x.put crew i (.own k)) := by
    have hsame : ∀ item, handing item (.own k) = handing item (.writing k) := fun _ => rfl
    refine h.place hcrew hw rfl hsame ?_ ?_ x.shared
    · rintro snapped j ⟨⟩
    · rintro ⟨⟩
  have hsteady := h.steady.step hstep
  rw [Execution.snapshotRaises_stored hrun, if_neg Bool.false_ne_true]
  simp only [Execution.step] at hstep
  split at hstep
  · next metrics _ hchecked =>
    obtain rfl := Option.some.inj hstep
    obtain ⟨-, hle⟩ := h.checked_le metrics hchecked
    unfold Execution.writeSnapshot at hsteady ⊢
    rw [Execution.updateRun_running hrun hrunning] at hsteady ⊢
    refine { hplaced with steady := hsteady, persisted := ?_, latest_le := hle, checked_le := ?_ }
    · intro _ stored hstored
      obtain rfl := Option.some.inj ((Dict.get?_set_self _ _ _).symm.trans hstored)
      rfl
    · rintro checked ⟨⟩
  · cases hstep

theorem Tracked.move {x y : Running γ κ} (h : Tracked runId x) {m : Move ι}
    (hreliable : Label.Reliable control (.worker m)) (hmove : x.move control runId m = some y) :
    Tracked runId y := by
  obtain ⟨crew, w, hcrew, hw, hmoved⟩ := move_cases hmove
  cases hmoved with
  | @own k shared next hstep =>
    refine h.place hcrew hw rfl ?_ ?_ ?_ shared
    · intro item
      cases next <;> rfl
    · intro metrics j hj
      cases next <;> cases hj
    · intro hbad
      cases next with
      | escape e =>
        obtain rfl := Worker.escaped.inj hbad
        exact hreliable _ _ _ _ _ hstep
      | _ => cases hbad
  | count target answer k metrics hmetrics => exact h.count hcrew hw hmetrics
  | respond item k service hstep => exact h.respond hcrew hw hstep
  | close success k =>
    have hsame : ∀ item, handing item (.polling k) = handing item (.closing success k) := fun _ => rfl
    have hplaced := h.place hcrew hw rfl hsame (by rintro metrics j ⟨⟩) (by rintro ⟨⟩) x.shared
    exact ⟨hplaced.steady, hplaced.persisted, hplaced.latest_le, hplaced.checked_le, hplaced.snapping_le,
      hplaced.result, hplaced.sequences, hplaced.kept, hplaced.settled, hplaced.handled, hplaced.emptied,
      hplaced.inOrder, hplaced.unmanned⟩
  | poll k =>
    refine h.place hcrew hw rfl ?_ ?_ ?_ x.shared
    · intro item
      split <;> rfl
    · intro metrics j hj
      split at hj
      · obtain ⟨rfl, -⟩ := Worker.snapping.inj hj
        exact le_rfl
      · cases hj
    · split <;> simp
  | snap metrics k service hstep => exact h.snap hcrew hw hstep
  | write k service hstep => exact h.write hcrew hw hstep

/-! ## The other steps -/

theorem Tracked.launch {x : Running γ κ} (h : Tracked runId x) (hstage : x.service.stage = .executing)
    (hworkers : x.workers = none) :
    Tracked runId { x with workers := some (List.replicate workers (.own control.start)) } := by
  have hfresh : ∀ w ∈ List.replicate workers (Worker.own control.start), w = .own control.start := by
    intro w hw
    exact List.eq_of_mem_replicate hw
  refine { h with
    snapping_le := ?_
    kept := ?_
    settled := ?_
    handled := ?_
    unmanned := by rintro ⟨⟩ }
  · intro w hw metrics k hk
    rw [hfresh w hw] at hk
    cases hk
  · intro item
    have hbefore := h.kept item
    simp only [Running.crew, hworkers, Option.getD_none] at hbefore
    simpa [Running.crew, crewSum_replicate, handing, crewSum] using hbefore
  · simp [hstage, Stage.Working]
  · intro w hw
    rw [hfresh w hw]
    rintro ⟨⟩

/-- Nothing is pending where nothing was recorded. -/
theorem Tracked.pending_of_unmanned {x : Running γ κ} (h : Tracked runId x) (hworkers : x.workers = none) :
    x.service.pending = [] := by
  rw [List.eq_nil_iff_forall_not_mem]
  intro item hitem
  have hkept := h.kept item
  rw [h.unmanned hworkers, List.count_nil] at hkept
  have hpos := List.count_pos_iff.mpr hitem
  unfold Execution.held at hkept
  omega

/-- The service goes on, with the same responses and the same record of the run. -/
theorem Tracked.serve {x : Running γ κ} (h : Tracked runId x) {service : Execution}
    (hsteady : Execution.Steady runId service) (hruns : service.repo.runs = x.service.repo.runs)
    (hlatest : service.latest = x.service.latest) (hchecked : service.checked = x.service.checked)
    (hheld : ∀ item, service.held runId item = x.service.held runId item) (horder : service.InOrder runId)
    (hearly : service.stage.Early → x.service.stage.Early)
    (hresult : ∀ metrics, service.stage.result = some metrics → metrics.totalRequests = x.metrics.totalRequests)
    (hsettled : ¬ service.stage.Working → ∀ w ∈ x.crew, ended w = true)
    (hemptied : ¬ service.stage.Unflushed → service.pending = []) : Tracked runId { x with service := service } := by
  refine ⟨hsteady, ?_, ?_, ?_, h.snapping_le, hresult, h.sequences, ?_, hsettled, h.handled, hemptied, horder,
    h.unmanned⟩
  · intro hstage
    rw [hruns, hlatest]
    exact h.persisted (hearly hstage)
  · rw [hlatest]
    exact h.latest_le
  · rw [hlatest, hchecked]
    exact h.checked_le
  · intro item
    rw [hheld item]
    exact h.kept item

/-- A step of `cancel_run`: nothing of the run changes. -/
theorem Tracked.cancel {x : Running γ κ} (h : Tracked runId x) {service : Execution}
    (hsteady : Execution.Steady runId service)
    (hsame : service.repo = x.service.repo ∧ service.latest = x.service.latest ∧
      service.checked = x.service.checked ∧ service.pending = x.service.pending ∧
      service.stage = x.service.stage) : Tracked runId { x with service := service } := by
  obtain ⟨hrepo, hlatest, hchecked, hpending, hstage⟩ := hsame
  have hstored : service.stored runId = x.service.stored runId := by
    unfold Execution.stored
    rw [hrepo]
  refine h.serve hsteady (by rw [hrepo]) hlatest hchecked ?_ ?_ ?_ ?_ ?_ ?_
  · intro item
    unfold Execution.held
    rw [hstored, hpending]
  · unfold Execution.InOrder
    rw [hstored]
    exact h.inOrder
  · rw [hstage]
    exact id
  · rw [hstage]
    exact h.result
  · rw [hstage]
    exact h.settled
  · rw [hstage, hpending]
    exact h.emptied

/-- The executor ends: with every worker, or before there are any. -/
theorem Tracked.finish {x y : Running γ κ} (h : Tracked runId x) {outcome : Except Raised Metrics}
    (hended : ∀ w ∈ x.crew, ended w = true)
    (houtcome : ∀ metrics, outcome = .ok metrics → metrics = x.metrics)
    (hhandled : outcome = .error .baseException → x.service.pending = [])
    (hstep : x.onService runId (.finish outcome) = some y) : Tracked runId y := by
  simp only [onService, Option.map_eq_some_iff] at hstep
  obtain ⟨service, hservice, rfl⟩ := hstep
  have hsteady := h.steady.step hservice
  simp only [Execution.step] at hservice
  split at hservice
  · next hstage hchecked =>
    obtain rfl := Option.some.inj hservice
    have hearly : x.service.stage.Early := by simp [hstage, Stage.Early]
    refine h.serve hsteady rfl rfl rfl (fun _ => rfl) h.inOrder (fun _ => hearly) ?_ (fun _ => hended) ?_
    · intro metrics hresult
      cases outcome with
      | ok final =>
        obtain rfl := Option.some.inj hresult
        rw [houtcome _ rfl]
      | error e => cases e <;> cases hresult
    · intro hflushed
      cases outcome with
      | ok final => exact absurd trivial hflushed
      | error e =>
        cases e with
        | baseException => exact hhandled rfl
        | _ => exact absurd trivial hflushed
  · cases hservice

theorem Tracked.flush {x : Running γ κ} (h : Tracked runId x) {service : Execution}
    (hstep : x.service.step runId (.flush false) = some service) :
    Tracked runId { x with service := service } := by
  have hsteady := h.steady.step hstep
  obtain ⟨run, hrun⟩ := h.steady.exists_run
  obtain ⟨hok, hflushed⟩ := Execution.flush_flushed hrun h.inOrder
  obtain ⟨hlatest, hchecked, -⟩ := hflushed.rest
  simp only [Execution.step] at hstep
  split at hstep
  · next metrics hstage =>
    have hended := h.settled (by simp [hstage, Stage.Working])
    have hresult := h.result metrics (by simp [hstage, Stage.result])
    split at hstep
    · next flushed heq =>
      obtain rfl := Option.some.inj hstep
      rw [heq] at hflushed hlatest hchecked
      refine h.serve hsteady hflushed.runs hlatest hchecked hflushed.held hflushed.inOrder ?_ ?_ (fun _ => hended)
        (fun _ => hflushed.pending)
      · simp [hstage, Stage.Early]
      · rintro m ⟨⟩
        exact hresult
    · next heq =>
      rw [heq] at hok
      cases hok
  · next message hstage =>
    have hended := h.settled (by simp [hstage, Stage.Working])
    split at hstep
    · next flushed heq =>
      obtain rfl := Option.some.inj hstep
      rw [heq] at hflushed hlatest hchecked
      refine h.serve hsteady hflushed.runs hlatest hchecked hflushed.held hflushed.inOrder ?_ ?_ (fun _ => hended)
        (fun _ => hflushed.pending)
      · simp [hstage, Stage.Early]
      · rintro m ⟨⟩
    · next heq =>
      rw [heq] at hok
      cases hok
  · cases hstep

/-- The last update: the record has the result, or the latest snapshot. -/
theorem Tracked.update {x : Running γ κ} (h : Tracked runId x) {now : Instant} {service : Execution}
    (hstep : x.service.step runId (.update now) = some service) :
    Tracked runId { x with service := service } := by
  have hsteady := h.steady.step hstep
  have hupdated : ∀ (status : LoadTestRunStatus) (metrics : Metrics) (message : Option String) (otherwise : Stage),
      x.service.stage.Early → ¬ x.service.stage.Unflushed → ¬ x.service.stage.Working →
      service = x.service.update runId status metrics message now otherwise →
      Tracked runId { x with service := service } := by
    intro status metrics message otherwise hearly hflushed hworking heq
    obtain ⟨run, hrun, hrunning⟩ := h.steady.early hearly
    unfold Execution.update at heq
    rw [Execution.updateRun_running hrun hrunning] at heq
    subst heq
    refine { h with
      steady := hsteady
      persisted := fun hstored => hstored.elim
      result := by rintro m ⟨⟩
      settled := fun _ => h.settled hworking
      emptied := fun _ => h.emptied hflushed }
  simp only [Execution.step] at hstep
  split at hstep
  · next metrics status message hstage =>
    have hearly : x.service.stage.Early := by
      rcases h.steady.placed with hearly | hlater
      · exact hearly
      · simp [hstage] at hlater
    exact hupdated _ _ _ _ hearly (by simp [hstage, Stage.Unflushed]) (by simp [hstage, Stage.Working])
      (Option.some.inj hstep).symm
  · next message hstage =>
    exact hupdated _ _ _ _ (by simp [hstage, Stage.Early]) (by simp [hstage, Stage.Unflushed])
      (by simp [hstage, Stage.Working]) (Option.some.inj hstep).symm
  · cases hstep

/-- A step of `_execute` or of `cancel_run`. -/
theorem Tracked.main {x : Running γ κ} (h : Tracked runId x) {e : Event} (hown : e.own = true)
    (hreliable : Label.Reliable control (.main e)) {service : Execution}
    (hstep : x.service.step runId e = some service) : Tracked runId { x with service := service } := by
  have hsteady := h.steady.step hstep
  cases e with
  | getRun fails =>
    obtain rfl : fails = false := hreliable
    simp only [Execution.step] at hstep
    split at hstep
    · next hstage =>
      have hearly : x.service.stage.Early := by simp [hstage, Stage.Early]
      obtain ⟨run, hrun, -⟩ := h.steady.early hearly
      have hget : x.service.repo.getRun runId = .ok run := by rw [LoadTestRepository.getRun, hrun]
      simp only [hget, Bool.false_eq_true, if_false, Option.some.injEq] at hstep
      subst hstep
      have htotal := h.persisted hearly run hrun
      refine { h with
        steady := hsteady
        persisted := ?_
        latest_le := htotal.le.trans h.latest_le
        checked_le := ?_
        result := by rintro m ⟨⟩
        settled := fun hnot => absurd trivial hnot
        emptied := fun hnot => absurd trivial hnot }
      · intro _ stored hstored
        obtain rfl := Option.some.inj (hrun.symm.trans hstored)
        rfl
      · intro metrics hchecked
        obtain ⟨hlt, hle⟩ := h.checked_le metrics hchecked
        exact ⟨htotal.trans_lt hlt, hle⟩
    · cases hstep
  | flush fails =>
    obtain rfl : fails = false := hreliable
    exact h.flush hstep
  | readStatus =>
    simp only [Execution.step] at hstep
    split at hstep
    · next metrics hstage =>
      obtain rfl := Option.some.inj hstep
      have hresult := h.result metrics (by simp [hstage, Stage.result])
      refine h.serve hsteady rfl rfl rfl (fun _ => rfl) h.inOrder (fun _ => by simp [hstage, Stage.Early]) ?_
        (fun _ => h.settled (by simp [hstage, Stage.Working])) (fun _ => h.emptied (by simp [hstage, Stage.Unflushed]))
      rintro m ⟨⟩
      exact hresult
    · cases hstep
  | readMessage =>
    simp only [Execution.step] at hstep
    split at hstep
    · next metrics status hstage =>
      obtain rfl := Option.some.inj hstep
      have hresult := h.result metrics (by simp [hstage, Stage.result])
      refine h.serve hsteady rfl rfl rfl (fun _ => rfl) h.inOrder ?_ ?_
        (fun _ => h.settled (by simp [hstage, Stage.Working])) (fun _ => h.emptied (by simp [hstage, Stage.Unflushed]))
      · intro hworded
        rw [hstage]
        exact hworded
      · rintro m ⟨⟩
        exact hresult
    · cases hstep
  | update now => exact h.update hstep
  | leave =>
    have hleft : ∀ stage, x.service.stage = stage → stage = .stored ∨ stage = .raised →
        some { x.service with registered := false, stage := .ended } = some service →
        Tracked runId { x with service := service } := by
      intro stage hstage hlast heq
      obtain rfl := Option.some.inj heq
      refine h.serve hsteady rfl rfl rfl (fun _ => rfl) h.inOrder (fun hended => hended.elim) (by rintro m ⟨⟩)
        (fun _ => h.settled ?_) (fun _ => h.emptied ?_)
      · rcases hlast with rfl | rfl <;> simp [hstage, Stage.Working]
      · rcases hlast with rfl | rfl <;> simp [hstage, Stage.Unflushed]
    simp only [Execution.step] at hstep
    split at hstep
    · next hstage => exact hleft _ hstage (.inl rfl) hstep
    · next hstage => exact hleft _ hstage (.inr rfl) hstep
    · cases hstep
  | askCancel =>
    have hsame : service.repo = x.service.repo ∧ service.latest = x.service.latest ∧
        service.checked = x.service.checked ∧ service.pending = x.service.pending ∧
        service.stage = x.service.stage := by
      simp only [Execution.step] at hstep
      split at hstep
      · split at hstep <;> obtain rfl := Option.some.inj hstep <;> exact ⟨rfl, rfl, rfl, rfl, rfl⟩
      · obtain rfl := Option.some.inj hstep
        exact ⟨rfl, rfl, rfl, rfl, rfl⟩
    exact h.cancel hsteady hsame
  | setCancel =>
    have hsame : service.repo = x.service.repo ∧ service.latest = x.service.latest ∧
        service.checked = x.service.checked ∧ service.pending = x.service.pending ∧
        service.stage = x.service.stage := by
      simp only [Execution.step] at hstep
      split at hstep
      · cases hstep
      · obtain rfl := Option.some.inj hstep
        exact ⟨rfl, rfl, rfl, rfl, rfl⟩
    exact h.cancel hsteady hsame
  | _ => simp [Event.own] at hown

/-- Every step keeps track. -/
theorem Tracked.step {x y : Running γ κ} (h : Tracked runId x) {label : Label ι}
    (hreliable : label.Reliable control) (hstep : x.step control runId workers label = some y) : Tracked runId y := by
  cases label with
  | launch =>
    simp only [Running.step] at hstep
    split at hstep
    · next hstage hworkers =>
      obtain rfl := Option.some.inj hstep
      exact h.launch hstage hworkers
    · cases hstep
  | worker m => exact h.move hreliable hstep
  | fail e =>
    simp only [Running.step] at hstep
    split at hstep
    · next hnone =>
      have hworkers : x.workers = none := Option.isNone_iff_eq_none.mp hnone
      refine h.finish ?_ (by rintro metrics ⟨⟩) (fun _ => h.pending_of_unmanned hworkers) hstep
      intro w hw
      simp [Running.crew, hworkers] at hw
    · cases hstep
  | join =>
    simp only [Running.step, Option.bind_eq_bind, Option.bind_eq_some_iff] at hstep
    obtain ⟨crew, hcrew, hstep⟩ := hstep
    split at hstep
    · next hall =>
      have hended : ∀ w ∈ x.crew, ended w = true := by
        rw [Running.crew, hcrew]
        exact List.all_eq_true.mp hall
      refine h.finish hended ?_ ?_ hstep
      · intro metrics houtcome
        unfold outcome at houtcome
        split at houtcome
        · cases houtcome
        · exact (Except.ok.inj houtcome).symm
      · intro houtcome
        unfold outcome at houtcome
        split at houtcome
        · next e hfound =>
          obtain ⟨w, hw, hescaped⟩ := List.exists_of_findSome?_eq_some hfound
          obtain rfl := Except.error.inj houtcome
          refine absurd ?_ (h.handled w (by rw [Running.crew, hcrew]; exact hw))
          cases w <;> simp at hescaped
          rw [hescaped]
        · cases houtcome
    · cases hstep
  | main e =>
    simp only [Running.step] at hstep
    split at hstep
    · next hown =>
      simp only [onService, Option.map_eq_some_iff] at hstep
      obtain ⟨service, hservice, rfl⟩ := hstep
      exact h.main hown hreliable hservice
    · cases hstep

/-! ## The record of the run -/

/-- Later, the record has no smaller total, and is the same if it was final. -/
def Follows (runId : UUID) (x y : Execution) : Prop :=
  ∀ run, x.repo.runs.get? runId = some run → ∃ run', y.repo.runs.get? runId = some run' ∧
    run.metrics.totalRequests ≤ run'.metrics.totalRequests ∧ (run.status ≠ .running → run' = run)

theorem Follows.of_runs {x y : Execution} (h : y.repo.runs = x.repo.runs) : Follows runId x y := by
  intro run hrun
  exact ⟨run, by rw [h]; exact hrun, le_rfl, fun _ => rfl⟩

theorem Follows.trans {x y z : Execution} (h : Follows runId x y) (h' : Follows runId y z) : Follows runId x z := by
  intro run hrun
  obtain ⟨run', hrun', hle, hsame⟩ := h run hrun
  obtain ⟨run'', hrun'', hle', hsame'⟩ := h' run' hrun'
  refine ⟨run'', hrun'', hle.trans hle', ?_⟩
  intro hfinal
  obtain rfl := hsame hfinal
  exact hsame' hfinal

/-- A running run is written with a total that is no smaller. -/
theorem Follows.of_update {x y : Execution} {run : LoadTestRunRecord} (hrun : x.repo.runs.get? runId = some run)
    (hrunning : run.status = .running) {run' : LoadTestRunRecord}
    (hrun' : y.repo.runs.get? runId = some run')
    (hle : run.metrics.totalRequests ≤ run'.metrics.totalRequests) : Follows runId x y := by
  intro other hother
  obtain rfl := Option.some.inj (hrun.symm.trans hother)
  exact ⟨run', hrun', hle, fun hfinal => absurd hrunning hfinal⟩

theorem Tracked.follows {x : Running γ κ} (h : Tracked runId x) {e : Event} {service : Execution}
    (hstep : x.service.step runId e = some service) : Follows runId x.service service := by
  obtain ⟨run, hrun⟩ := h.steady.exists_run
  cases Execution.step_effect hrun h.steady.placed hstep with
  | quiet hruns | onward hruns | strands hruns | leave hruns => exact .of_runs hruns
  | snapshot metrics hx hy hrepo =>
    obtain ⟨run, hrun, hrunning⟩ := h.steady.early hx
    have hpersisted := h.persisted hx run hrun
    simp only [Execution.step] at hstep
    split at hstep
    · next checked _ hchecked =>
      obtain rfl := Option.some.inj hstep
      obtain ⟨hlt, -⟩ := h.checked_le checked hchecked
      unfold Execution.writeSnapshot
      rw [Execution.updateRun_running hrun hrunning]
      refine .of_update hrun hrunning (Dict.get?_set_self _ _ _) ?_
      exact hpersisted.le.trans hlt.le
    · cases hstep
  | update now status metrics message hx otherwise hy hstatus =>
    obtain ⟨run, hrun, hrunning⟩ := h.steady.early hx
    have hpersisted := h.persisted hx run hrun
    have hupdated : ∀ (status : LoadTestRunStatus) (metrics : Metrics) (message : Option String) (otherwise : Stage),
        x.service.latest.totalRequests ≤ metrics.totalRequests →
        Follows runId x.service (x.service.update runId status metrics message now otherwise) := by
      intro status metrics message otherwise hle
      unfold Execution.update
      rw [Execution.updateRun_running hrun hrunning]
      exact .of_update hrun hrunning (Dict.get?_set_self _ _ _) (hpersisted.le.trans hle)
    simp only [Execution.step] at hstep
    split at hstep
    · next result status message hstage =>
      obtain rfl := Option.some.inj hstep
      have hresult := h.result result (by simp [hstage, Stage.result])
      exact hupdated _ _ _ _ (hresult ▸ h.latest_le)
    · obtain rfl := Option.some.inj hstep
      exact hupdated _ _ _ _ le_rfl
    · cases hstep

/-- What the service does in a step of the whole is nothing, or one of its steps. -/
theorem step_service {x y : Running γ κ} {label : Label ι} (hstep : x.step control runId workers label = some y) :
    y.service = x.service ∨ ∃ e, x.service.step runId e = some y.service := by
  have hserved : ∀ e, x.onService runId e = some y → ∃ e, x.service.step runId e = some y.service := by
    intro e he
    simp only [onService, Option.map_eq_some_iff] at he
    obtain ⟨service, hservice, rfl⟩ := he
    exact ⟨e, hservice⟩
  cases label with
  | launch =>
    simp only [Running.step] at hstep
    split at hstep
    · obtain rfl := Option.some.inj hstep
      exact .inl rfl
    · cases hstep
  | worker m =>
    obtain ⟨crew, w, hcrew, hw, hmoved⟩ := move_cases hstep
    cases hmoved with
    | respond item k service h | snap metrics k service h | write k service h => exact .inr ⟨_, h⟩
    | own h | count | close | poll => exact .inl rfl
  | fail e =>
    simp only [Running.step] at hstep
    split at hstep
    · exact .inr (hserved _ hstep)
    · cases hstep
  | join =>
    simp only [Running.step, Option.bind_eq_bind, Option.bind_eq_some_iff] at hstep
    obtain ⟨crew, -, hstep⟩ := hstep
    split at hstep
    · exact .inr (hserved _ hstep)
    · cases hstep
  | main e =>
    simp only [Running.step] at hstep
    split at hstep
    · exact .inr (hserved _ hstep)
    · cases hstep

/-! ## Every run -/

/-- In a run in which the repository does not fail. -/
theorem Tracked.run {labels : List (Label ι)} (hlabels : ∀ label ∈ labels, label.Reliable control)
    {x y : Running γ κ} (hx : Tracked runId x) (hrun : runSteps (Running.step control runId workers) x labels = some y) :
    Tracked runId y ∧ Follows runId x.service y.service := by
  induction labels generalizing x with
  | nil =>
    obtain rfl := Option.some.inj hrun
    exact ⟨hx, .of_runs rfl⟩
  | cons label labels ih =>
    obtain ⟨hlabel, hlater⟩ := List.forall_mem_cons.mp hlabels
    obtain ⟨z, hz, hrun⟩ := runSteps_cons.mp hrun
    obtain ⟨hy, hfollows⟩ := ih hlater (hx.step hlabel hz) hrun
    refine ⟨hy, .trans ?_ hfollows⟩
    rcases step_service hz with hsame | ⟨e, he⟩
    · rw [hsame]
      exact .of_runs rfl
    · exact hx.follows he

/-- `_execute` as `start_run` submits it. -/
def submitted (repo : LoadTestRepository) (shared : γ) (definition : LoadTestRecord) : Running γ κ where
  service := .begin repo
  shared := shared
  metrics := .empty definition.targetNames
  workers := none
  recorded := []

theorem Tracked.submitted {before repo : LoadTestRepository} {loadTestId : UUID} {run : LoadTestRunRecord}
    (hcreated : before.createRun runId loadTestId = .ok (run, repo)) (shared : γ) (definition : LoadTestRecord) :
    Tracked runId (submitted repo shared definition : Running γ κ) := by
  simp only [LoadTestRepository.createRun, bind_eq_ok_iff, pure_eq_ok_iff, error_bind, ite_error_eq_ok_iff] at hcreated
  obtain ⟨created, -, -, hcreated⟩ := hcreated
  obtain ⟨rfl, rfl⟩ := Prod.mk.inj hcreated
  refine ⟨?_, ?_, Nat.zero_le _, by rintro metrics ⟨⟩, by rintro w ⟨⟩, by rintro metrics ⟨⟩, rfl, ?_, by rintro hnot w ⟨⟩,
    by rintro w ⟨⟩, fun _ => rfl, ?_, fun _ => rfl⟩
  · exact (Execution.begin_promising (Dict.get?_set_self _ _ _) rfl).toSteady
  · intro _ run hrun
    obtain rfl := Option.some.inj ((Dict.get?_set_self _ _ _).symm.trans hrun)
    rfl
  · intro item
    simp [Running.submitted, Execution.held, Execution.stored, Execution.begin, Running.crew, crewSum]
  · simp [Running.submitted, Execution.InOrder, Execution.stored, Execution.begin]

/-- The repository before the run. -/
def pingBefore : LoadTestRepository := { Execution.pingRepo with runs := .empty, responses := .empty }

end Running

end SmartTest.Load
