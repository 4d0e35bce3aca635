import SmartTest.System.Rules

/-!
# Dispatching keeps the rules

The single operations under the rules of the calls, and from them the coordinator, the
dispatchers and the worker tasks.
-/

open SmartTest.Lib SmartTest.Lib.Prog SmartTest.Run SmartTest.Run.RunRepository SmartTest.Plan

namespace SmartTest.System

variable {pid : Nat} {call : Call} {P : World × History → Prop}

/-! ## Steps that are not noted -/

theorem endedRuns_same (label : Label) (w : World) : endedRuns ⟨label, w, w⟩ = [] := by
  simp only [endedRuns, List.filter_eq_nil_iff]
  intro r _
  cases isTerminal w r <;> simp

/-- The labels of steps that leave no trace in the history when they change nothing. -/
def Label.mute : Label → Bool
  | .read | .send _ | .schedule _ _ => true
  | _ => false

theorem observe_mute {label : Label} (hmute : label.mute = true) (history : History) (w : World) :
    history.observe pid ⟨label, w, w⟩ = history := by
  have hnotes : (history.notes pid).observe ⟨label, w, w⟩ = history.notes pid := by
    cases label <;> cases hmute <;>
      simp [Notes.observe, Notes.nextBegun, Notes.nextConverging, Notes.nextDuty, Notes.nextUnreported,
        Notes.nextOwed, Notes.nextExcused, endedRuns_same]
  simp only [History.observe, hnotes, Function.update_eq_self]
  cases label <;> cases hmute <;> simp [claimedRuns, History.nextRetried]

theorem change_same {who : Notes} {label : Label} (hlabel : ∀ name r, label ≠ .submit name r false) (w : World) :
    Change who label w w := .quiet rfl rfl rfl rfl (.of_services rfl hlabel)

/-! ## Operations -/

theorem op_acts {α : Type} {label : Label} {f : World → Except Exn α × World} {Q : α → World × History → Prop}
    {E : Exn → World × History → Prop} (hP : Stable (rules pid call) P)
    (h : ∀ w history, Invariant (w, history) → P (w, history) →
      Change (history.notes pid) label w (f w).2 ∧ Knows call (history.notes pid) history w label ∧
      Meets Q E (f w).1 ((f w).2, history.observe pid ⟨label, w, (f w).2⟩)) :
    Triple (rules pid call) P (.op label f) Q E := by
  refine Triple.op hP ?_
  rintro ⟨w, history⟩ hinv hPx -
  obtain ⟨hchange, hknows, hmeets⟩ := h w history hinv hPx
  exact ⟨⟨hchange, rfl, hknows⟩, hmeets⟩

/-- An operation that changes nothing and is not noted. -/
theorem mute_acts {α : Type} {label : Label} {f : World → Except Exn α} {Q : α → World × History → Prop}
    {E : Exn → World × History → Prop} (hmute : label.mute = true) (hP : Stable (rules pid call) P)
    (h : ∀ x, Invariant x → P x → Meets Q E (f x.1) x) :
    Triple (rules pid call) P (.op label (World.reading f)) Q E := by
  refine op_acts hP fun w history hinv hPx => ⟨change_same ?_ w, ?_, ?_⟩
  · rintro name r rfl
    cases hmute
  · cases label <;> cases hmute <;> trivial
  · simpa only [World.reading, observe_mute hmute] using h (w, history) hinv hPx

/-- A read. -/
theorem read_acts {α : Type} {f : World → Except Exn α} {Q : α → World × History → Prop}
    {E : Exn → World × History → Prop} (hP : Stable (rules pid call) P)
    (h : ∀ x, Invariant x → P x → Meets Q E (f x.1) x) :
    Triple (rules pid call) P (.op .read (World.reading f)) Q E := mute_acts rfl hP h

/-- A read of which nothing is learned. -/
theorem read_skip {α : Type} {f : World → Except Exn α} (hP : Stable (rules pid call) P) :
    Triple (rules pid call) P (.op .read (World.reading f)) (fun _ => P) fun _ => P := by
  refine read_acts hP fun x _ hx => ?_
  cases f x.1 <;> exact hx

theorem get_acts {r : UUID} {Q : RunRecord → World × History → Prop} {E : Exn → World × History → Prop}
    (hP : Stable (rules pid call) P)
    (hok : ∀ x run, Invariant x → P x → x.1.runs.runs.get? r = some run → Q run x)
    (herr : ∀ x e, Invariant x → P x → x.1.runs.runs.get? r = none → E e x) :
    Triple (rules pid call) P (get r) Q E := by
  refine read_acts hP fun x hinv hx => ?_
  cases hget : x.1.runs.runs.get? r with
  | some run =>
    simp only [RunRepository.get, getLocked_ok_iff.mpr hget]
    exact hok x run hinv hx hget
  | none =>
    cases hres : x.1.runs.get r with
    | ok run =>
      rw [RunRepository.get, getLocked_ok_iff, hget] at hres
      cases hres
    | error e => exact herr x e hinv hx hget

/-- The history after a step. -/
def noting (pid : Nat) (label : Label) (history : History) (w w' : World) : History :=
  history.observe pid ⟨label, w, w'⟩

/-- The state after a run transition. -/
def World.movedRun (w : World) (r : UUID) (run : RunRecord) (target : RunState) : World :=
  { w with runs := { w.runs with runs := w.runs.runs.set r (run.moved target) } }

/-- A transition is refused for a run that is not there or not in the right state. -/
def Refused (w : World) (r : UUID) (target : RunState) (e : Exn) : Prop :=
  ∀ run, w.runs.runs.get? r = some run → target ∉ RUN_TRANSITIONS run.state ∧ e.kind = .invalidTransition

theorem transition_acts {site : Site} {r : UUID} {target : RunState} {Q : RunRecord → World × History → Prop}
    {E : Exn → World × History → Prop} (hP : Stable (rules pid call) P) (hasks : site.asks target = true)
    (hknows : ∀ x, Invariant x → P x → KnowsRun call (x.2.notes pid) x.2 x.1 r target site)
    (hguard : ∀ x run, Invariant x → P x → x.1.runs.runs.get? r = some run →
      target ∈ RUN_TRANSITIONS run.state → MoveGuard (x.2.notes pid) x.1 r run target)
    (hok : ∀ x run, Invariant x → P x → x.1.runs.runs.get? r = some run →
      target ∈ RUN_TRANSITIONS run.state → Q (run.moved target) (x.1.movedRun r run target,
        noting pid (.transition site r target) x.2 x.1 (x.1.movedRun r run target)))
    (herr : ∀ x e, Invariant x → P x → Refused x.1 r target e →
      E e (x.1, noting pid (.transition site r target) x.2 x.1 x.1)) :
    Triple (rules pid call) P (transition site r target) Q E := by
  refine op_acts hP fun w history hinv hPx => ?_
  refine and_left_comm.mp ⟨⟨hasks, hknows _ hinv hPx⟩, ?_⟩
  rcases World.onRuns_cases (fun w => w.runs.transition r target) w with ⟨e, herror, heq⟩ | ⟨run', runs, hres, heq⟩
  · rw [heq]
    refine ⟨change_same (by simp) w, herr (w, history) e hinv hPx fun run hget => ?_⟩
    by_cases hmem : target ∈ RUN_TRANSITIONS run.state
    · simp only [transition_eq hget hmem] at herror
      cases herror
    · simp only [transition_error hget hmem] at herror
      cases herror
      exact ⟨hmem, rfl⟩
  · obtain ⟨run, hget, hmem, rfl, rfl⟩ := transition_ok hres
    rw [heq]
    exact ⟨.move r run target (.inr ⟨site, rfl⟩) hget hmem (hguard (w, history) run hinv hPx hget hmem),
      hok (w, history) run hinv hPx hget hmem⟩

/-- A transition to a state that needs no knowledge of attempts. -/
theorem moveGuard_plain {who : Notes} {w : World} {r : UUID} {run : RunRecord} {target : RunState}
    (h : target ≠ .running ∧ target ≠ .queued ∧ target ≠ .succeeded ∧ target ≠ .retryWait) :
    MoveGuard who w r run target :=
  ⟨h.1, fun hq => absurd hq h.2.1, fun hs => absurd hs h.2.2.1, fun hr => absurd hr h.2.2.2⟩

theorem stable_true : Stable (rules pid call) fun _ => True := fun _ _ _ _ _ _ => trivial

theorem stable_and {P Q : World × History → Prop} (hP : Stable (rules pid call) P)
    (hQ : Stable (rules pid call) Q) : Stable (rules pid call) fun x => P x ∧ Q x :=
  fun x y hx hy hrely h => ⟨hP x y hx hy hrely h.1, hQ x y hx hy hrely h.2⟩

/-! ## Dispatchers -/

/-- The run is not in `QUEUED`, or it was in `RETRY_WAIT` once. -/
def LeftQueue (r : UUID) (x : World × History) : Prop :=
  Started r x.1 ∧ ((∀ run, x.1.runs.runs.get? r = some run → run.state ≠ .queued) ∨ r ∈ x.2.retried)

theorem leftQueue_stable (r : UUID) : Stable (rules pid call) (LeftQueue r) := by
  refine stable_of_foreign fun x y h hx => ⟨(lasting_started r).foreign h hx.1, ?_⟩
  obtain ⟨⟨run, hget, hcreated⟩, hleft⟩ := hx
  rcases hleft with hleft | hleft
  · obtain ⟨who, label, hchange, -⟩ := h.change
    obtain ⟨run', hget', hstep⟩ := hchange.run_cases h.before.consistent.filed hget
    by_cases hretry : run.state = .retryWait
    · exact .inr (h.retried r (h.before.linked.retried r run hget hretry))
    · refine .inl fun run'' hget'' hqueued => ?_
      rw [hget'] at hget''
      cases hget''
      rcases hstep.mem with rfl | hmem
      · exact hleft _ hget hqueued
      · rw [hqueued] at hmem
        revert hmem hcreated hretry
        cases run.state <;> simp [RUN_TRANSITIONS]
  · exact .inr (h.retried r hleft)

/-- `DISPATCHING` is asked for once the run is in `QUEUED`; a run that was queued makes it fail only if it
was retried meanwhile. -/
theorem advance_triple {site : Site} (hsite : site = .dispatcher ∨ site = .worker) (message : String) (r : UUID)
    (φ : Prop) : Triple (rules pid call) (fun x => φ → Started r x.1) (advance site message r)
      (fun _ _ => True) fun _ x => φ → r ∈ x.2.retried := by
  have hstarted : Stable (rules pid call) fun x => φ → Started r x.1 := (lasting_started r).imp.stable
  refine Triple.bind (Q := fun run x => (φ → Started r x.1) ∧ (φ → run.state ≠ .created))
    (get_acts hstarted ?_ ?_) fun current => ?_
  · intro x run _ hx hget
    refine ⟨hx, fun hφ => ?_⟩
    obtain ⟨run', hget', hcreated⟩ := hx hφ
    rw [hget] at hget'
    cases hget'
    exact hcreated
  · intro x e _ hx hnone hφ
    obtain ⟨run', hget', -⟩ := hx hφ
    rw [hnone] at hget'
    cases hget'
  · split
    · next hcreated => exact Triple.raise fun x _ hx hφ => absurd hcreated (hx.2 hφ)
    · split
      · exact Triple.ret fun _ _ _ => trivial
      · refine Triple.handle (E := fun e x => φ → LeftQueue r x ∧ e.kind = .invalidTransition) ?_ fun e => ?_
        · refine Triple.weaken (P := fun x => φ → Started r x.1) ?_ (fun _ _ h => h.1) (fun _ _ _ h => h)
            fun _ _ _ h => h
          refine transition_acts hstarted (by rcases hsite with rfl | rfl <;> rfl) ?_ ?_
            (fun _ _ _ _ _ _ => trivial) ?_
          · rcases hsite with rfl | rfl <;> exact fun _ _ _ => trivial
          · exact fun _ _ _ _ _ _ => moveGuard_plain (by simp)
          · intro x e _ hx hrefused hφ
            obtain ⟨run, hget, -⟩ := hx hφ
            refine ⟨⟨hx hφ, .inl fun run' hget' hqueued => (hrefused run' hget').1 ?_⟩, (hrefused run hget).2⟩
            simp [hqueued, RUN_TRANSITIONS]
        · have hleft : Stable (rules pid call) fun x => φ → LeftQueue r x :=
            fun x y hx hy hrely h hφ => leftQueue_stable r x y hx hy hrely (h hφ)
          have hretried : ∀ x run, (φ → LeftQueue r x) → x.1.runs.runs.get? r = some run →
              run.state = .queued → φ → r ∈ x.2.retried := by
            intro x run hx hget hqueued hφ
            exact (hx hφ).2.resolve_left fun h => h run hget hqueued
          split
          · next hkind => exact Triple.raise fun x _ hx hφ => absurd (hx hφ).2 hkind
          · refine Triple.weaken (P := fun x => φ → LeftQueue r x) ?_ (fun _ _ h hφ => (h hφ).1)
              (fun _ _ _ h => h) fun _ _ _ h => h
            refine Triple.bind (Q := fun run x => run.state = .queued → φ → r ∈ x.2.retried)
              (get_acts hleft (fun x run _ hx hget hqueued => hretried x run hx hget hqueued) ?_) fun run => ?_
            · intro x e _ hx hnone hφ
              obtain ⟨run', hget', -⟩ := (hx hφ).1
              rw [hnone] at hget'
              cases hget'
            · split
              · exact Triple.ret fun _ _ _ => trivial
              · next hqueued => exact Triple.raise fun x _ hx => hx (not_not.mp hqueued)

/-! ## The coordinator -/

/-- The call keeps the rules from `P` on, however the program ends. -/
def Keeps {α : Type} (pid : Nat) (call : Call) (P : World × History → Prop) (p : Proc α) : Prop :=
  Triple (rules pid call) P p (fun _ _ => True) fun _ _ => True

/-- The claimed runs are in `QUEUED`. -/
theorem claimed_queued {w : World} {batchId : UUID} {claimed : List UUID} {size : Nat} {runs : RunRepository}
    (hf : Filed w.runs) (h : claimRuns w batchId = .ok ((claimed, size), runs)) {r : UUID} (hr : r ∈ claimed) :
    ∃ run, w.runs.runs.get? r = some run ∧ run.state = .created ∧ runs.runs.get? r = some (run.moved .queued) := by
  obtain ⟨batch, records, -, hrecords, hanswer, rfl⟩ := claimRuns_ok h
  cases hanswer
  have hfiled : ∀ record ∈ chosen (room batch records) records, w.runs.runs.get? record.id = some record := by
    intro record hrec
    obtain ⟨runId, hget⟩ := hrecords record (mem_chosen hrec).1
    rwa [hf runId record hget]
  obtain ⟨record, hrec, rfl⟩ := List.mem_map.mp hr
  refine ⟨record, hfiled record hrec, (mem_chosen hrec).2, ?_⟩
  simp only [queueAll_get? hfiled, if_pos hr, hfiled record hrec, Option.map_some]

theorem claimAvailableRuns_acts {batchId : UUID} {Q : List UUID × Nat → World × History → Prop}
    {E : Exn → World × History → Prop} (hP : Stable (rules pid call) P)
    (hok : ∀ w history answer runs, Invariant (w, history) → P (w, history) →
      claimRuns w batchId = .ok (answer, runs) → Q answer ({ w with runs := runs },
        noting pid (.claim batchId) history w { w with runs := runs }))
    (herr : ∀ w history e, Invariant (w, history) → P (w, history) → claimRuns w batchId = .error e →
      E e (w, noting pid (.claim batchId) history w w)) :
    Triple (rules pid call) P (claimAvailableRuns batchId) Q E := by
  refine op_acts hP fun w history hinv hPx => ?_
  rcases World.onRuns_cases (fun w => claimRuns w batchId) w with ⟨e, herror, heq⟩ | ⟨answer, runs, hres, heq⟩
  · rw [heq]
    exact ⟨change_same (by simp) w, trivial, herr w history e hinv hPx herror⟩
  · rw [heq]
    exact ⟨.claim batchId rfl hres, trivial, hok w history answer runs hinv hPx hres⟩

theorem claimAvailableRuns_started (batchId : UUID) : Triple (rules pid call) (fun _ => True)
    (claimAvailableRuns batchId) (fun answer x => ∀ r ∈ answer.1, Started r x.1) fun _ _ => True := by
  refine claimAvailableRuns_acts stable_true ?_ fun _ _ _ _ _ _ => trivial
  intro w history answer runs hinv _ hclaim r hr
  obtain ⟨run, -, -, hget⟩ := claimed_queued hinv.consistent.filed hclaim hr
  exact ⟨_, hget, by simp [RunRecord.moved]⟩

section Coordinator

variable {dispatcher : Dispatcher} (hcelery : dispatcher.isCelery = true → call.usesCelery = true)

include hcelery

theorem dispatch_triple (r : UUID) : Triple (rules pid call) (fun x => Started r x.1) (dispatch dispatcher r)
    (fun _ _ => True) fun _ x => call.usesCelery = true ∨ r ∈ x.2.retried := by
  cases dispatcher with
  | database =>
    refine Triple.bind (Q := fun _ _ => True) ?_ fun _ => Triple.ret fun _ _ _ => trivial
    refine (advance_triple (.inl rfl) _ r True).weaken (fun _ _ h _ => h) (fun _ _ _ h => h) ?_
    exact fun _ x _ h => .inr (h trivial)
  | celery fails =>
    refine mute_acts rfl (lasting_started r).stable fun x _ _ => ?_
    cases fails r with
    | none => trivial
    | some e => exact .inl (hcelery rfl)

theorem dispatchOne_keeps (r : UUID) : Keeps pid call (fun x => Started r x.1) (dispatchOne dispatcher r) := by
  refine Triple.handle ((dispatch_triple hcelery r).bind fun _ => Triple.ret fun _ _ _ => trivial) fun e => ?_
  refine Triple.bind (Q := fun _ _ => True) ?_ fun _ => Triple.ret fun _ _ _ => trivial
  refine transition_acts ?_ rfl (fun x _ h => h) (fun _ _ _ _ _ _ => moveGuard_plain (by simp))
    (fun _ _ _ _ _ _ => trivial) fun _ _ _ _ _ => trivial
  refine stable_of_foreign fun x y h hx => ?_
  exact hx.imp id (h.retried r)

theorem dispatchClaimed_keeps (claimed : List UUID) :
    Keeps pid call (fun x => ∀ r ∈ claimed, Started r x.1) (dispatchClaimed dispatcher claimed) := by
  induction claimed with
  | nil => exact Triple.ret fun _ _ _ => trivial
  | cons r rest ih =>
    have hrest : Lasting fun w => ∀ r ∈ rest, Started r w := Lasting.all fun r => (lasting_started r).imp
    have hone : Keeps pid call (fun x => Started r x.1) (dispatchOne dispatcher r) := dispatchOne_keeps hcelery r
    have hboth := hone.frame (F := fun x => ∀ r ∈ rest, Started r x.1) (All.any _) hrest.stable
      fun label act _ y hinv _ hguar hy => hrest.acts hinv hguar hy
    refine Triple.bind (hboth.weaken ?_ (fun _ _ _ h => h.2) fun _ _ _ _ => trivial) fun sent =>
      Triple.bind ih fun result => ?_
    · exact fun x _ h => ⟨h r (by simp), fun r' hr' => h r' (by simp [hr'])⟩
    · split <;> exact Triple.ret fun _ _ _ => trivial

theorem dispatchRounds_keeps (batchId : UUID) (rounds : Nat) (claimed dispatched failed : List UUID) :
    Keeps pid call (fun x => ∀ r ∈ claimed, Started r x.1)
      (dispatchRounds dispatcher batchId rounds claimed dispatched failed) := by
  induction rounds generalizing claimed dispatched failed with
  | zero =>
    cases claimed with
    | nil => exact Triple.ret fun _ _ _ => trivial
    | cons r rest => exact Triple.raise fun _ _ _ => trivial
  | succ rounds ih =>
    cases claimed with
    | nil => exact Triple.ret fun _ _ _ => trivial
    | cons r rest =>
      refine Triple.bind (dispatchClaimed_keeps hcelery _) fun result => ?_
      split
      · exact Triple.ret fun _ _ _ => trivial
      · exact (claimAvailableRuns_started batchId).bind fun ⟨claimed, size⟩ => ih claimed _ _

theorem dispatchAvailable_keeps (batchId : UUID) :
    Keeps pid call (fun _ => True) (dispatchAvailable dispatcher batchId) := by
  refine (claimAvailableRuns_started batchId).bind fun ⟨claimed, size⟩ => ?_
  exact dispatchRounds_keeps hcelery batchId size claimed _ _

theorem onRunFinished_keeps (r : UUID) : Keeps pid call (fun _ => True) (onRunFinished dispatcher r) := by
  refine Triple.bind (Q := fun _ _ => True) ?_ fun spec => dispatchAvailable_keeps hcelery _
  refine op_acts stable_true fun w history _ _ => ⟨change_same (by simp) w, trivial, ?_⟩
  dsimp only [World.reading]
  cases w.plans.getRunSpec r <;> trivial

end Coordinator

/-- What a coordinator does not touch in the notes. -/
structure SameTask (notes notes' : Notes) : Prop where
  begun : notes'.begun = notes.begun
  duty : notes'.duty = notes.duty
  completed : notes'.completed = notes.completed

/-- A label that does not touch the task of the call. -/
def Label.plain : Label → Bool
  | .read | .send _ | .schedule _ _ | .claim _ | .finished _ | .transitionAttempt _ _ | .renewAttemptLease _
  | .appendEvent _ | .unmark _ _ | .converge _ | .executePlan _ | .createOrGet _ | .cancel _ | .expireAttemptLeases _ => true
  | .transition _ _ target => target ≠ .cancelling
  | _ => false

theorem sameTask_observe {label : Label} (h : label.plain = true) (notes : Notes) (w w' : World) :
    SameTask notes (notes.observe ⟨label, w, w'⟩) := by
  cases label with
  | transition site runId target =>
    refine ⟨rfl, ?_, Bool.or_false _⟩
    cases site <;> cases target <;> first | rfl | cases h
  | _ => first | exact ⟨rfl, rfl, Bool.or_false _⟩ | cases h

theorem sameTask_noting {label : Label} (h : label.plain = true) (history : History) (w w' : World) :
    SameTask (history.notes pid) ((history.observe pid ⟨label, w, w'⟩).notes pid) := by
  rw [notes_observe_self]
  exact sameTask_observe h _ _ _

/-- A program with steps that do not touch the task. -/
def Plain {α : Type} (p : Proc α) : Prop := All (fun label _ => label.plain = true) p

theorem plain_of_coordinator {label : Label} {act : World → World} (h : CoordinatorStep label act) :
    label.plain = true := by
  cases h with
  | move site hsite runId target htarget => rcases htarget with rfl | rfl <;> rfl
  | _ => rfl

/-- A condition that steps of the call keep as long as they do not touch its task. -/
def Aside (pid : Nat) (call : Call) (F : World × History → Prop) : Prop :=
  Stable (rules pid call) F ∧ ∀ label x y, Invariant x → Acts pid call label x y →
    SameTask (x.2.notes pid) (y.2.notes pid) → F x → F y

/-- A program that does not touch the task, in the middle of one that has it. -/
theorem Keeps.aside {α : Type} {p : Proc α} {F : World × History → Prop} (h : Keeps pid call P p)
    (hplain : Plain p) (hF : Aside pid call F) :
    Triple (rules pid call) (fun x => P x ∧ F x) p (fun _ => F) fun _ => F := by
  have hframe := h.frame hplain hF.1 ?_
  · exact hframe.weaken (fun _ _ h => h) (fun _ _ _ h => h.2) fun _ _ _ h => h.2
  · intro label act hlabel x hinv _ hguar hx
    refine hF.2 label x _ hinv hguar ?_ hx
    rw [hguar.noted, notes_observe_self]
    exact sameTask_observe hlabel _ _ _

theorem onRunFinished_aside {dispatcher : Dispatcher}
    (hcelery : dispatcher.isCelery = true → call.usesCelery = true) (r : UUID) {F : World × History → Prop}
    (hF : Aside pid call F) :
    Triple (rules pid call) F (onRunFinished dispatcher r) (fun _ => F) fun _ => F := by
  have hplain : Plain (onRunFinished dispatcher r) :=
    (onRunFinished_all dispatcher r).mono fun _ _ => plain_of_coordinator
  exact ((onRunFinished_keeps hcelery r).aside hplain hF).weaken (fun _ _ h => ⟨trivial, h⟩) (fun _ _ _ h => h)
    fun _ _ _ h => h

end SmartTest.System
