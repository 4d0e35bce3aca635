import SmartTest.Load.Calls

/-!
# The load test repository over any sequence of calls

The dictionaries stay consistent whatever is called and whatever raises, and a call that
raises leaves everything as it was unless the copy of its answer is what raises.
-/

open SmartTest.Lib SmartTest.Run

namespace SmartTest.Load

namespace LoadTestCall

variable {repo repo' : LoadTestRepository} {call : LoadTestCall}

/-! ## What a call keeps -/

theorem Writes.consistent (hcall : call.Writes repo repo') (h : repo.Consistent)
    (hfresh : ∀ id, call.draws = some id → repo.definitions.get? id = none) : repo'.Consistent := by
  cases call with
  | createLoadTest newId projectId body =>
    obtain ⟨b, -, hcall⟩ := hcall
    exact h.createLoadTest (hfresh newId rfl) hcall
  | updateLoadTest loadTestId body expectedVersion =>
    obtain ⟨b, -, hcall⟩ := hcall
    exact h.updateLoadTest hcall
  | deleteLoadTest loadTestId => exact h.deleteLoadTest hcall
  | createRun newId loadTestId =>
    obtain ⟨run, hcall⟩ := hcall
    exact h.createRun hcall
  | addRunResponses runId responses =>
    obtain ⟨records, -, hcall⟩ := hcall
    exact h.addRunResponses hcall
  | updateRun runId status metrics nesting errorMessage finishedAt => exact h.updateRun hcall
  | recoverRunningRuns message now =>
    obtain ⟨ids, -, rfl⟩ := hcall
    exact h.recovered message now ids

/-- A run is new, or was there, and is the same if it was final. -/
theorem Writes.runs (hcall : call.Writes repo repo') {id : UUID} {run' : LoadTestRunRecord}
    (hrun' : repo'.runs.get? id = some run') :
    call.draws = some id ∨ ∃ run, repo.runs.get? id = some run ∧ (run.status ≠ .running → run' = run) := by
  cases call with
  | createLoadTest newId projectId body =>
    obtain ⟨b, -, hcall⟩ := hcall
    simp only [LoadTestRepository.createLoadTest, error_bind, ite_error_eq_ok_iff, pure_eq_ok_iff] at hcall
    obtain ⟨-, rfl⟩ := hcall
    exact .inr ⟨run', hrun', fun _ => rfl⟩
  | updateLoadTest loadTestId body expectedVersion =>
    obtain ⟨b, -, hcall⟩ := hcall
    simp only [LoadTestRepository.updateLoadTest, bind_eq_ok_iff, error_bind, ite_error_eq_ok_iff,
      pure_eq_ok_iff] at hcall
    obtain ⟨current, -, -, -, rfl⟩ := hcall
    exact .inr ⟨run', hrun', fun _ => rfl⟩
  | deleteLoadTest loadTestId =>
    exact .inr ⟨run', (LoadTestRepository.deleteLoadTest_runs hcall hrun').1, fun _ => rfl⟩
  | createRun newId loadTestId =>
    obtain ⟨run, hcall⟩ := hcall
    simp only [LoadTestRepository.createRun, bind_eq_ok_iff, error_bind, ite_error_eq_ok_iff, pure_eq_ok_iff,
      Prod.mk.injEq] at hcall
    obtain ⟨definition, -, -, -, rfl⟩ := hcall
    rw [Dict.get?_set] at hrun'
    split at hrun'
    · next heq => exact .inl (congrArg some heq.symm)
    · exact .inr ⟨run', hrun', fun _ => rfl⟩
  | addRunResponses runId responses =>
    obtain ⟨records, -, hcall⟩ := hcall
    simp only [LoadTestRepository.addRunResponses, bind_eq_ok_iff, pure_eq_ok_iff] at hcall
    obtain ⟨_, -, rfl⟩ := hcall
    exact .inr ⟨run', hrun', fun _ => rfl⟩
  | updateRun runId status metrics nesting errorMessage finishedAt =>
    rcases LoadTestRepository.updateRun_runs hcall with rfl | ⟨current, hcurrent, hrunning, rfl⟩
    · exact .inr ⟨run', hrun', fun _ => rfl⟩
    · rw [Dict.get?_set] at hrun'
      split at hrun'
      · next heq => exact .inr ⟨current, by rw [heq]; exact hcurrent, fun hfinal => absurd hrunning hfinal⟩
      · exact .inr ⟨run', hrun', fun _ => rfl⟩
  | recoverRunningRuns message now =>
    obtain ⟨ids, hids, rfl⟩ := hcall
    rw [LoadTestRepository.recovered_runs] at hrun'
    obtain ⟨run, hrun, rfl⟩ := Option.map_eq_some_iff.mp hrun'
    refine .inr ⟨run, hrun, ?_⟩
    intro hfinal
    have hnot : id ∉ ids := by
      intro hmem
      obtain ⟨found, hfound, hrunning⟩ := LoadTestRepository.mem_runningIds.mp (hids id hmem)
      obtain rfl := Option.some.inj (hrun.symm.trans hfound)
      exact hfinal hrunning
    exact if_neg hnot

theorem Writes.definitions (hcall : call.Writes repo repo') {id : UUID}
    (hdefined : (repo'.definitions.get? id).isSome) : call.draws = some id ∨ (repo.definitions.get? id).isSome := by
  cases call with
  | createLoadTest newId projectId body =>
    obtain ⟨b, -, hcall⟩ := hcall
    simp only [LoadTestRepository.createLoadTest, error_bind, ite_error_eq_ok_iff, pure_eq_ok_iff] at hcall
    obtain ⟨-, rfl⟩ := hcall
    rw [Dict.get?_set] at hdefined
    split at hdefined
    · next heq => exact .inl (congrArg some heq.symm)
    · exact .inr hdefined
  | updateLoadTest loadTestId body expectedVersion =>
    obtain ⟨b, -, hcall⟩ := hcall
    simp only [LoadTestRepository.updateLoadTest, bind_eq_ok_iff, error_bind, ite_error_eq_ok_iff,
      pure_eq_ok_iff] at hcall
    obtain ⟨current, hcurrent, -, -, rfl⟩ := hcall
    rw [LoadTestRepository.getLoadTest_eq_ok] at hcurrent
    rw [Dict.get?_set] at hdefined
    split at hdefined
    · next heq => exact .inr (by rw [heq, hcurrent]; rfl)
    · exact .inr hdefined
  | deleteLoadTest loadTestId =>
    simp only [Writes, LoadTestRepository.deleteLoadTest, bind_eq_ok_iff, error_bind, ite_error_eq_ok_iff,
      pure_eq_ok_iff] at hcall
    obtain ⟨current, -, -, rfl⟩ := hcall
    rw [Dict.get?_erase] at hdefined
    split at hdefined
    · cases hdefined
    · exact .inr hdefined
  | createRun newId loadTestId =>
    obtain ⟨run, hcall⟩ := hcall
    simp only [LoadTestRepository.createRun, bind_eq_ok_iff, error_bind, ite_error_eq_ok_iff, pure_eq_ok_iff,
      Prod.mk.injEq] at hcall
    obtain ⟨definition, -, -, -, rfl⟩ := hcall
    exact .inr hdefined
  | addRunResponses runId responses =>
    obtain ⟨records, -, hcall⟩ := hcall
    simp only [LoadTestRepository.addRunResponses, bind_eq_ok_iff, pure_eq_ok_iff] at hcall
    obtain ⟨_, -, rfl⟩ := hcall
    exact .inr hdefined
  | updateRun runId status metrics nesting errorMessage finishedAt =>
    rcases LoadTestRepository.updateRun_runs hcall with rfl | ⟨current, -, -, rfl⟩
    · exact .inr hdefined
    · exact .inr hdefined
  | recoverRunningRuns message now =>
    obtain ⟨ids, -, rfl⟩ := hcall
    rw [(LoadTestRepository.recovered_rest _ message now ids).1] at hdefined
    exact .inr hdefined

end LoadTestCall

/-! ## Any sequence of calls -/

/-- The store with the ids that were drawn for it. -/
structure LoadTestHistory where
  store : LoadTestStore
  drawn : List UUID

namespace LoadTestHistory

def start : LoadTestHistory := ⟨.empty, []⟩

/-- One call, with what the stack has room for; an id is not drawn twice. -/
def step (x : LoadTestHistory) (label : Stack × LoadTestCall) : Option LoadTestHistory :=
  if label.2.draws.any (· ∈ x.drawn) then none
  else some ⟨(label.2.on label.1 x.store).2, x.drawn ++ label.2.draws.toList⟩

/-- The repository is consistent, and has only ids that were drawn. -/
structure Known (x : LoadTestHistory) : Prop where
  consistent : x.store.repo.Consistent
  definitions : ∀ id, (x.store.repo.definitions.get? id).isSome → id ∈ x.drawn
  runs : ∀ id, (x.store.repo.runs.get? id).isSome → id ∈ x.drawn

/-- Of the runs drawn so far, those that are still there were there, and are the same if they were final. -/
def Final (x y : LoadTestHistory) : Prop :=
  ∀ id ∈ x.drawn, id ∈ y.drawn ∧ ∀ run', y.store.repo.runs.get? id = some run' →
    ∃ run, x.store.repo.runs.get? id = some run ∧ (run.status ≠ .running → run' = run)

theorem Final.refl (x : LoadTestHistory) : Final x x :=
  fun _ hid => ⟨hid, fun run' hrun' => ⟨run', hrun', fun _ => rfl⟩⟩

theorem Final.trans {x y z : LoadTestHistory} (h : Final x y) (h' : Final y z) : Final x z := by
  intro id hid
  obtain ⟨hy, hbefore⟩ := h id hid
  obtain ⟨hz, hafter⟩ := h' id hy
  refine ⟨hz, ?_⟩
  intro run'' hrun''
  obtain ⟨run', hrun', hsame'⟩ := hafter run'' hrun''
  obtain ⟨run, hrun, hsame⟩ := hbefore run' hrun'
  refine ⟨run, hrun, ?_⟩
  intro hfinal
  obtain rfl := hsame hfinal
  exact hsame' hfinal

theorem Known.step {x y : LoadTestHistory} (h : Known x) {label : Stack × LoadTestCall}
    (hstep : x.step label = some y) : Known y ∧ Final x y := by
  obtain ⟨stack, call⟩ := label
  unfold LoadTestHistory.step at hstep
  split at hstep
  · cases hstep
  · next hundrawn =>
    obtain rfl := Option.some.inj hstep
    have hnew : ∀ id, call.draws = some id → id ∉ x.drawn := by
      intro id hid hmem
      exact hundrawn (by simp [hid, hmem])
    have hdrawn : ∀ id, call.draws = some id ∨ id ∈ x.drawn → id ∈ x.drawn ++ call.draws.toList := by
      rintro id (hid | hid)
      · simp [hid]
      · simp [hid]
    rcases call.leaves stack x.store with hkept | hwrites
    · refine ⟨⟨by rw [hkept]; exact h.consistent, ?_, ?_⟩, ?_⟩
      · intro id hid
        rw [hkept] at hid
        exact hdrawn id (.inr (h.definitions id hid))
      · intro id hid
        rw [hkept] at hid
        exact hdrawn id (.inr (h.runs id hid))
      · refine fun id hid => ⟨hdrawn id (.inr hid), ?_⟩
        rw [hkept]
        exact fun run' hrun' => ⟨run', hrun', fun _ => rfl⟩
    · refine ⟨⟨?_, ?_, ?_⟩, ?_⟩
      · apply hwrites.consistent h.consistent
        intro id hid
        by_contra hsome
        exact hnew id hid (h.definitions id (Option.isSome_iff_ne_none.mpr hsome))
      · intro id hid
        apply hdrawn id
        exact (hwrites.definitions hid).imp_right (h.definitions id)
      · intro id hid
        apply hdrawn id
        obtain ⟨run', hrun'⟩ := Option.isSome_iff_exists.mp hid
        rcases hwrites.runs hrun' with hdraws | ⟨run, hrun, -⟩
        · exact .inl hdraws
        · exact .inr (h.runs id (by rw [hrun]; rfl))
      · intro id hid
        refine ⟨hdrawn id (.inr hid), ?_⟩
        intro run' hrun'
        rcases hwrites.runs hrun' with hdraws | hkept
        · exact absurd hid (hnew id hdraws)
        · exact hkept

theorem Known.start : Known .start := by
  refine ⟨.empty, ?_, ?_⟩
  · simp [LoadTestHistory.start, LoadTestStore.empty, LoadTestRepository.empty]
  · simp [LoadTestHistory.start, LoadTestStore.empty, LoadTestRepository.empty]

theorem Known.run {x y : LoadTestHistory} (h : Known x) {calls : List (Stack × LoadTestCall)}
    (hrun : runSteps LoadTestHistory.step x calls = some y) : Known y ∧ Final x y :=
  runSteps_keeps (I := fun z => Known z ∧ Final x z)
    (fun _ _ _ ⟨hz, hfinal⟩ hstep => ⟨(hz.step hstep).1, hfinal.trans (hz.step hstep).2⟩) ⟨h, .refl x⟩ hrun

/-- After any calls, those that raise included, the dictionaries are consistent, and between any two states of a history
the final runs that are not deleted stay as they are. A call that raises changes nothing exactly as long as it is not
torn. -/
theorem repository_consistent_atomic_iff {first rest : List (Stack × LoadTestCall)} {x y : LoadTestHistory}
    (hfirst : runSteps step start first = some x) (hrest : runSteps step x rest = some y) :
    y.store.repo.Consistent ∧
    (∀ a b record record', y.store.repo.definitions.get? a = some record →
      y.store.repo.definitions.get? b = some record' →
      record.projectId = record'.projectId → record.name = record'.name → a = b) ∧
    (∀ id run run', x.store.repo.runs.get? id = some run → run.status ≠ .running →
      y.store.repo.runs.get? id = some run' → run' = run) ∧
    (∀ stack (call : LoadTestCall), call.Atomic stack y.store ↔ ¬ call.Torn stack y.store) := by
  obtain ⟨hx, -⟩ := Known.start.run hfirst
  obtain ⟨hy, hfinal⟩ := hx.run hrest
  refine ⟨hy.consistent, ?_, ?_, ?_⟩
  · intro a b record record' ha hb hproject hname
    exact hy.consistent.indexed.unique ha hb (Prod.ext hproject hname)
  · intro id run run' hrun hstatus hrun'
    obtain ⟨found, hfound, hsame⟩ := (hfinal id (hx.runs id (by rw [hrun]; rfl))).2 run' hrun'
    obtain rfl := Option.some.inj (hrun.symm.trans hfound)
    exact hsame hstatus
  · intro stack call
    exact call.torn_iff stack y.store

/-- Room for 480 levels. -/
def shallowStack : Stack := ⟨480, 479, by decide⟩

/-- A test, and a run of it. -/
def pongFirst : List (Stack × LoadTestCall) :=
  [(shallowStack, .createLoadTest ⟨"t"⟩ ⟨"p"⟩ (.ok pongBody)), (shallowStack, .createRun ⟨"r"⟩ ⟨"t"⟩)]

/-- Metrics that nest as deep as the stack has room for. -/
def deepUpdate : LoadTestCall := .updateRun ⟨"r"⟩ .succeeded (.empty ["pong"]) 480 none (some 3)

/-- The metrics are copied and stored, and the record with them in it cannot be copied. -/
theorem deep_update_torn : ∃ x run run', runSteps step start pongFirst = some x ∧
    (deepUpdate.on shallowStack x.store).1 = .error LoadTestStore.recursionError ∧
    x.store.repo.runs.get? ⟨"r"⟩ = some run ∧ run.status = .running ∧
    (deepUpdate.on shallowStack x.store).2.repo.runs.get? ⟨"r"⟩ = some run' ∧ run'.status = .succeeded :=
  ⟨_, _, _, rfl, rfl, rfl, rfl, rfl, rfl⟩

/-- A name that is taken. -/
def pongAgain : LoadTestCall := .createLoadTest ⟨"u"⟩ ⟨"p"⟩ (.ok pongBody)

/-- The run succeeds, and then calls that come too late for it. -/
def pongRest : List (Stack × LoadTestCall) :=
  [(shallowStack, .updateRun ⟨"r"⟩ .succeeded (.empty ["pong"]) 6 none (some 3)), (shallowStack, deepUpdate),
    (shallowStack, .recoverRunningRuns "restarted" 5)]

theorem pong_history_consistent : ∃ x y, runSteps step start pongFirst = some x ∧
    runSteps step x pongRest = some y ∧ y.store.repo.Consistent ∧
    (∃ e, (pongAgain.on shallowStack y.store).1 = .error e) ∧ (pongAgain.on shallowStack y.store).2 = y.store := by
  obtain ⟨x, hfirst, y, hrest, hname, e, hraises⟩ : ∃ x, runSteps step start pongFirst = some x ∧
      ∃ y, runSteps step x pongRest = some y ∧ y.store.repo.names.get? (⟨"p"⟩, "ping") = some ⟨"t"⟩ ∧
      ∃ e, (pongAgain.on shallowStack y.store).1 = .error e :=
    ⟨_, rfl, _, rfl, rfl, _, rfl⟩
  obtain ⟨hconsistent, -, -, hatomic⟩ := repository_consistent_atomic_iff hfirst hrest
  refine ⟨x, y, hfirst, hrest, hconsistent, ⟨e, hraises⟩, (hatomic shallowStack pongAgain).mpr ?_ ⟨e, hraises⟩⟩
  rintro ⟨b, hbody, hfree, -⟩
  obtain rfl := Except.ok.inj hbody
  exact absurd (hname.symm.trans hfree) (by simp)

end LoadTestHistory

end SmartTest.Load
