import SmartTest.Runner.Agent

/-!
# The numbers and the end of an event stream

Whatever threads emit and whatever the sink refuses, what is delivered is numbered from zero
without gaps, and begins with `STARTED`. The flag that stops the heartbeat is set only after
`FINISHED`, so a heartbeat that wakes up in between is delivered after it.
-/

open SmartTest.Lib SmartTest.Run

namespace SmartTest.Runner

variable {streamed : Bool} {engine : Engine} {s s' : Agent}

/-! ## What a step outside `_emit` leaves alone -/

/-- The main flow is between `STARTED` and the end of `run`. -/
def Main.busy : Main → Bool
  | .starting => false
  | .over _ => false
  | _ => true

/-- A step that neither enters nor leaves `_emit`. -/
def AgentAct.silent : AgentAct → Bool
  | .enter _ => false
  | .sink _ => false
  | _ => true

theorem step_silent {a : AgentAct} (ha : a.silent = true) (h : s.step streamed engine a = some s') :
    s'.seq = s.seq ∧ s'.holder = s.holder ∧ s'.delivered = s.delivered ∧
      (s.main.busy = true ∨ s.beat = .waiting) := by
  cases a with
  | enter thread => cases ha
  | sink ok => cases ha
  | elapse =>
    simp only [Agent.step, Option.ite_none_right_eq_some, Option.some.injEq] at h
    obtain ⟨⟨hbeat, -⟩, rfl⟩ := h
    exact ⟨rfl, rfl, rfl, .inr hbeat⟩
  | notice =>
    simp only [Agent.step, Option.ite_none_right_eq_some, Option.some.injEq] at h
    obtain ⟨⟨hbeat, -⟩, rfl⟩ := h
    exact ⟨rfl, rfl, rfl, .inr hbeat⟩
  | _ =>
    simp only [Agent.step] at h
    split at h
    · next hmain =>
      cases h
      exact ⟨rfl, rfl, rfl, .inl (by simp only [hmain, Main.busy])⟩
    · cases h

theorem resume_frame (s : Agent) (ok : Bool) (thread : Thread) :
    (s.resume ok thread).seq = s.seq ∧ (s.resume ok thread).holder = s.holder ∧
      (s.resume ok thread).delivered = s.delivered := by
  cases thread with
  | main =>
    simp only [Agent.resume]
    split
    · split <;> exact ⟨rfl, rfl, rfl⟩
    · exact ⟨rfl, rfl, rfl⟩
    · exact ⟨rfl, rfl, rfl⟩
  | heartbeat =>
    simp only [Agent.resume]
    split <;> exact ⟨rfl, rfl, rfl⟩
  | worker index =>
    simp only [Agent.resume]
    split <;> exact ⟨rfl, rfl, rfl⟩

theorem step_enter {thread : Thread} (h : s.step streamed engine (.enter thread) = some s') :
    s.holder = none ∧ ∃ type payload, s.next engine thread = some (type, payload) ∧
      s' = { s with holder := some (thread, ⟨s.seq, type, payload⟩) } := by
  simp only [Agent.step] at h
  split at h
  · next type payload hholder hnext =>
    cases h
    exact ⟨hholder, type, payload, hnext, rfl⟩
  · cases h

theorem step_sink {ok : Bool} (h : s.step streamed engine (.sink ok) = some s') :
    ∃ thread event, s.holder = some (thread, event) ∧ s' = (s.settle ok event).resume ok thread := by
  simp only [Agent.step] at h
  split at h
  · next thread event hholder =>
    cases h
    exact ⟨thread, event, hholder, rfl⟩
  · cases h

/-! ## Numbers -/

/-- Nothing but `STARTED` can be delivered first. -/
structure Unstarted (s : Agent) : Prop where
  main : s.main.busy = false
  beat : s.beat = .unborn
  workers : s.workers = []
  held : ∀ thread event, s.holder = some (thread, event) → thread = .main ∧ event.type = .started

structure Numbered (s : Agent) : Prop where
  seqs : s.delivered.map (·.seq) = List.range s.seq
  held : ∀ thread event, s.holder = some (thread, event) → event.seq = s.seq
  first : ∀ event, s.delivered.head? = some event → event.type = .started
  unstarted : s.delivered = [] → Unstarted s

theorem numbered_init : Numbered .init where
  seqs := rfl
  held := by simp [Agent.init]
  first := by simp [Agent.init]
  unstarted _ := ⟨rfl, rfl, rfl, by simp [Agent.init]⟩

theorem Unstarted.next (h : Unstarted s) {thread : Thread} {type : EventType} {payload : Dict String Json}
    (hnext : s.next engine thread = some (type, payload)) : thread = .main ∧ type = .started := by
  cases thread with
  | main =>
    simp only [Agent.next] at hnext
    split at hnext
    · cases hnext
      exact ⟨rfl, rfl⟩
    · next hmain =>
      have := h.main
      rw [hmain] at this
      cases this
    · cases hnext
  | heartbeat => simp [Agent.next, h.beat] at hnext
  | worker index => simp [Agent.next, h.workers] at hnext

/-- `STARTED` was refused: `run` raises, and no thread was started. -/
theorem Unstarted.refused (h : Unstarted s) {thread : Thread} {event : Event}
    (hholder : s.holder = some (thread, event)) : Unstarted ((s.settle false event).resume false thread) := by
  obtain ⟨rfl, -⟩ := h.held thread event hholder
  simp only [Agent.settle, Agent.resume, Bool.false_eq_true, if_false]
  split
  · exact ⟨rfl, h.beat, h.workers, by simp⟩
  · next hmain =>
    have := h.main
    rw [hmain] at this
    cases this
  · exact ⟨h.main, h.beat, h.workers, by simp⟩

theorem Numbered.sink {ok : Bool} {thread : Thread} {event : Event} (h : Numbered s)
    (hholder : s.holder = some (thread, event)) : Numbered ((s.settle ok event).resume ok thread) := by
  obtain ⟨hseq, hholder', hdelivered⟩ := resume_frame (s.settle ok event) ok thread
  cases ok with
  | false =>
    have hsame : (s.settle false event).delivered = s.delivered := rfl
    refine ⟨?_, ?_, ?_, ?_⟩
    · rw [hdelivered, hseq]
      exact h.seqs
    · rw [hholder']
      simp [Agent.settle]
    · rw [hdelivered]
      exact h.first
    · intro hnil
      rw [hdelivered, hsame] at hnil
      exact (h.unstarted hnil).refused hholder
  | true =>
    refine ⟨?_, ?_, ?_, ?_⟩
    · rw [hdelivered, hseq]
      simp only [Agent.settle, if_true, List.map_append, List.map_cons, List.map_nil, h.seqs,
        h.held thread event hholder, List.range_succ]
    · rw [hholder']
      simp [Agent.settle]
    · rw [hdelivered]
      simp only [Agent.settle, if_true]
      intro e he
      cases hlog : s.delivered with
      | nil =>
        rw [hlog] at he
        cases he
        exact ((h.unstarted hlog).held thread event hholder).2
      | cons first rest =>
        rw [hlog] at he
        cases he
        exact h.first e (by rw [hlog]; rfl)
    · intro hnil
      rw [hdelivered] at hnil
      simp [Agent.settle] at hnil

theorem Numbered.step {a : AgentAct} (h : Numbered s) (hstep : s.step streamed engine a = some s') : Numbered s' := by
  cases a with
  | enter thread =>
    obtain ⟨-, type, payload, hnext, rfl⟩ := step_enter hstep
    refine ⟨h.seqs, ?_, h.first, ?_⟩
    · rintro _ _ ⟨⟩
      rfl
    · intro hnil
      have hunstarted := h.unstarted hnil
      refine ⟨hunstarted.main, hunstarted.beat, hunstarted.workers, ?_⟩
      rintro _ _ ⟨⟩
      exact hunstarted.next hnext
  | sink ok =>
    obtain ⟨thread, event, hholder, rfl⟩ := step_sink hstep
    exact h.sink hholder
  | _ =>
    obtain ⟨hseq, hholder, hdelivered, hbusy⟩ := step_silent rfl hstep
    refine ⟨by rw [hdelivered, hseq]; exact h.seqs, by rw [hholder, hseq]; exact h.held,
      by rw [hdelivered]; exact h.first, ?_⟩
    intro hnil
    rw [hdelivered] at hnil
    have hunstarted := h.unstarted hnil
    rcases hbusy with hmain | hbeat
    · rw [hunstarted.main] at hmain
      cases hmain
    · rw [hunstarted.beat] at hbeat
      cases hbeat

/-- In every run, what is delivered is numbered 0, 1, 2, ... and begins with `STARTED`. -/
theorem delivered_numbered {l : List AgentAct} (hrun : runSteps (Agent.step streamed engine) .init l = some s) :
    s.delivered.map (·.seq) = List.range s.delivered.length ∧
      ∀ event, s.delivered.head? = some event → event.type = .started := by
  have h : Numbered s := runSteps_keeps (fun _ _ _ hs hstep => hs.step hstep) numbered_init hrun
  refine ⟨?_, h.first⟩
  have hlength : s.delivered.length = s.seq := by
    rw [← List.length_map (f := (·.seq)), h.seqs, List.length_range]
  rw [hlength, h.seqs]

/-! ## The last event -/

/-- The reports of the main flow end with `FINISHED`, which comes once. -/
def Closing (rest : List Report) : Prop :=
  ∃ body payload, rest = body ++ [.emit .finished payload] ∧ ∀ r ∈ body, ∀ p, r ≠ .emit .finished p

def unfinished (events : List Event) : Prop := ∀ event ∈ events, event.type ≠ .finished

theorem artifactLoop_unfinished (total : Nat) (files : List ArtifactFile) :
    ∀ r ∈ artifactLoop total files, ∀ p, r ≠ .emit .finished p := by
  induction files generalizing total with
  | nil => simp [artifactLoop]
  | cons file rest ih =>
    simp only [artifactLoop]
    split
    · simp
    · refine List.forall_mem_cons.mpr ⟨?_, ih _⟩
      intro p heq
      have htype := (Report.emit.inj heq).1
      unfold ArtifactFile.type at htype
      split at htype <;> cases htype

theorem bodyReports_unfinished (streamed : Bool) (result : AdapterResult) (files : List ArtifactFile) :
    ∀ r ∈ bodyReports streamed result files, ∀ p, r ≠ .emit .finished p := by
  have hfiles : ∀ r ∈ emitArtifacts files, ∀ p, r ≠ .emit .finished p := by
    unfold emitArtifacts
    split
    · simp
    · exact artifactLoop_unfinished 0 files
  intro r hr
  simp only [bodyReports, List.mem_append] at hr
  rcases hr with ((((hr | hr) | hr) | hr) | hr) | hr
  · split at hr <;> simp_all
  · split at hr <;> simp_all
  · exact hfiles r hr
  · simp_all
  · split at hr
    · split at hr <;> simp_all
    · cases hr
  · split at hr <;> simp_all

theorem reports_closing (streamed : Bool) (result : AdapterResult) (files : List ArtifactFile) :
    Closing (reports streamed result files) :=
  ⟨bodyReports streamed result files, _, rfl, bodyReports_unfinished streamed result files⟩

/-- What is emitted next is `FINISHED`, and then nothing is left; or it is something else. -/
theorem Closing.uncons {type : EventType} {payload : Dict String Json} {rest : List Report}
    (h : Closing (.emit type payload :: rest)) : (type = .finished ∧ rest = []) ∨ (type ≠ .finished ∧ Closing rest) := by
  obtain ⟨body, last, heq, hbody⟩ := h
  cases body with
  | nil =>
    cases heq
    exact .inl ⟨rfl, rfl⟩
  | cons r body =>
    obtain ⟨hr, hrest⟩ := List.forall_mem_cons.mp hbody
    rw [List.cons_append, List.cons.injEq] at heq
    refine .inr ⟨?_, body, last, heq.2, hrest⟩
    rintro rfl
    exact hr payload heq.1.symm

/-- After `FINISHED` nobody is in `_emit`, or about to be. -/
structure Silent (engine : Engine) (s : Agent) : Prop where
  holder : s.holder = none
  main : (∃ result, s.main = .stopping result ∨ s.main = .joining result) ∨ ∃ answer, s.main = .over answer
  next : ∀ thread, s.next engine thread = none

structure Orderly (engine : Engine) (s : Agent) : Prop where
  held : ∀ thread event, s.holder = some (thread, event) → s.next engine thread = some (event.type, event.payload)
  report : ∀ result rest, s.main = .reporting result rest → Closing rest
  log : unfinished s.delivered ∨
    (∃ before last, s.delivered = before ++ [last] ∧ unfinished before) ∧ Silent engine s

theorem orderly_init (engine : Engine) : Orderly engine .init :=
  ⟨by simp [Agent.init], by simp [Agent.init], .inl (by simp [Agent.init, unfinished])⟩

/-- When `FINISHED` is delivered the heartbeat thread is not past its wait and no reader has anything left to
emit; and no interval of the heartbeat passes after it. -/
def Quiet (engine : Engine) (s : Agent) : AgentAct → Prop
  | .sink true => (∃ event, s.holder = some (.main, event) ∧ event.type = .finished) →
      ∀ thread, thread ≠ .main → s.next engine thread = none
  | .elapse => unfinished s.delivered
  | _ => True

theorem Orderly.unfinished_of_held (h : Orderly engine s) {thread : Thread} {event : Event}
    (hholder : s.holder = some (thread, event)) : unfinished s.delivered := by
  rcases h.log with hlog | ⟨-, hsilent⟩
  · exact hlog
  · rw [hsilent.holder] at hholder
    cases hholder

theorem unfinished_append {events : List Event} {event : Event} (h : unfinished events)
    (hevent : event.type ≠ .finished) : unfinished (events ++ [event]) := by
  intro e he
  rcases List.mem_append.mp he with hold | hnew
  · exact h e hold
  · rw [List.mem_singleton.mp hnew]
    exact hevent

/-- What the other threads are to emit does not depend on where the main flow is. -/
theorem next_congr {t : Agent} (hbeat : t.beat = s.beat) (hworkers : t.workers = s.workers) {thread : Thread}
    (hthread : thread ≠ .main) : t.next engine thread = s.next engine thread := by
  cases thread with
  | main => exact absurd rfl hthread
  | heartbeat => simp only [Agent.next, hbeat]
  | worker index => simp only [Agent.next, hworkers]

/-- Only the main flow emits `FINISHED`. -/
theorem next_unfinished {thread : Thread} {type : EventType} {payload : Dict String Json}
    (h : s.next engine thread = some (type, payload)) (hthread : thread ≠ .main) : type ≠ .finished := by
  cases thread with
  | main => exact absurd rfl hthread
  | heartbeat =>
    simp only [Agent.next, Option.ite_none_right_eq_some, Option.some.injEq, Prod.mk.injEq] at h
    rw [← h.2.1]
    decide
  | worker index =>
    simp only [Agent.next] at h
    split at h
    · cases h
      decide
    · cases h

theorem resume_main_of_ne {ok : Bool} {thread : Thread} (hthread : thread ≠ .main) :
    (s.resume ok thread).main = s.main := by
  cases thread with
  | main => exact absurd rfl hthread
  | heartbeat =>
    simp only [Agent.resume]
    split <;> rfl
  | worker index =>
    simp only [Agent.resume]
    split <;> rfl

theorem Orderly.sink {ok : Bool} {thread : Thread} {event : Event} (h : Orderly engine s)
    (hholder : s.holder = some (thread, event)) (hquiet : Quiet engine s (.sink ok)) :
    Orderly engine ((s.settle ok event).resume ok thread) := by
  obtain ⟨-, hholder', hdelivered⟩ := resume_frame (s.settle ok event) ok thread
  have hopen := h.unfinished_of_held hholder
  have hnext := h.held thread event hholder
  have hfree : ((s.settle ok event).resume ok thread).holder = none := by
    rw [hholder']
    unfold Agent.settle
    split <;> rfl
  have hlog : ok = false ∨ event.type ≠ .finished → unfinished ((s.settle ok event).resume ok thread).delivered := by
    intro hwhy
    rw [hdelivered]
    unfold Agent.settle
    split
    · next hok => exact unfinished_append hopen (hwhy.resolve_left (by simp [hok]))
    · exact hopen
  by_cases hmain : thread = .main
  · subst hmain
    simp only [Agent.next] at hnext
    have hkept : (s.settle ok event).main = s.main := by
      unfold Agent.settle
      split <;> rfl
    split at hnext
    · next hstarting =>
      simp only [Option.some.injEq, Prod.mk.injEq] at hnext
      refine ⟨by rw [hfree]; simp, ?_, .inl (hlog (.inr (by rw [← hnext.1]; decide)))⟩
      intro result rest hreporting
      simp only [Agent.resume, hkept, hstarting] at hreporting
      split at hreporting <;> cases hreporting
    · next result type payload rest hreporting =>
      simp only [Option.some.injEq, Prod.mk.injEq] at hnext
      have hresume : ((s.settle ok event).resume ok .main).main =
          if ok then .proceed result rest else .stopping none := by
        simp only [Agent.resume, hkept, hreporting]
      rcases (h.report _ _ hreporting).uncons with ⟨hfinished, rfl⟩ | ⟨hother, hclosing⟩
      · refine ⟨by rw [hfree]; simp, ?_, ?_⟩
        · intro result' rest' hcontra
          rw [hresume] at hcontra
          split at hcontra <;> cases hcontra
        · cases ok with
          | false => exact .inl (hlog (.inl rfl))
          | true =>
            have htype : event.type = .finished := hnext.1.symm.trans hfinished
            have hothers := hquiet ⟨event, hholder, htype⟩
            refine .inr ⟨⟨s.delivered, event, by rw [hdelivered]; simp [Agent.settle], hopen⟩, hfree,
              .inl ⟨some result, .inl hresume⟩, ?_⟩
            intro thread
            by_cases hthread : thread = .main
            · subst hthread
              simp only [Agent.next, hresume, if_true, Main.proceed]
            · rw [← hothers thread hthread]
              apply next_congr _ _ hthread
              · simp only [Agent.resume, hreporting, Agent.settle, if_true]
              · simp only [Agent.resume, hreporting, Agent.settle, if_true]
      · refine ⟨by rw [hfree]; simp, ?_, .inl (hlog (.inr (by rw [← hnext.1]; exact hother)))⟩
        intro result' rest' hcontra
        rw [hresume] at hcontra
        split at hcontra
        · cases rest with
          | nil => cases hcontra
          | cons r rest =>
            cases hcontra
            exact hclosing
        · cases hcontra
    · cases hnext
  · refine ⟨by rw [hfree]; simp, ?_, .inl (hlog (.inr (next_unfinished hnext hmain)))⟩
    rw [resume_main_of_ne hmain]
    have hkept : (s.settle ok event).main = s.main := by
      unfold Agent.settle
      split <;> rfl
    rw [hkept]
    exact h.report

/-- A step of the main flow outside `_emit`. -/
theorem Orderly.moveMain {m : Main} {stop : Bool} (h : Orderly engine s) (hidle : s.next engine .main = none)
    (hreport : ∀ result rest, m = .reporting result rest → Closing rest)
    (hsilent : Silent engine s → Silent engine { s with main := m, stop := stop }) :
    Orderly engine { s with main := m, stop := stop } := by
  refine ⟨?_, hreport, h.log.imp id fun hlog => ⟨hlog.1, hsilent hlog.2⟩⟩
  intro thread event hholder
  have hnext := h.held thread event hholder
  have hthread : thread ≠ .main := by
    rintro rfl
    rw [hidle] at hnext
    cases hnext
  rw [← hnext]
  exact next_congr (s := s) (by rfl) (by rfl) hthread

/-- The main flow is past `FINISHED` in a silent agent, so a step from elsewhere did not happen. -/
theorem Silent.absurd_main {P : Prop} (h : Silent engine s)
    (hmain : ∀ result answer, s.main ≠ .stopping result ∧ s.main ≠ .joining result ∧ s.main ≠ .over answer) : P := by
  rcases h.main with ⟨result, hstopping | hjoining⟩ | ⟨answer, hover⟩
  · exact absurd hstopping (hmain result none).1
  · exact absurd hjoining (hmain result none).2.1
  · exact absurd hover (hmain none answer).2.2

theorem Silent.moveMain {m : Main} {stop : Bool} (h : Silent engine s)
    (hmain : (∃ result, m = .stopping result ∨ m = .joining result) ∨ ∃ answer, m = .over answer) :
    Silent engine { s with main := m, stop := stop } := by
  refine ⟨h.holder, hmain, ?_⟩
  intro thread
  by_cases hthread : thread = .main
  · subst hthread
    rcases hmain with ⟨result, rfl | rfl⟩ | ⟨answer, rfl⟩ <;> rfl
  · rw [← h.next thread]
    exact next_congr (s := s) (by rfl) (by rfl) hthread

/-- The adapter starts threads. -/
theorem Orderly.spawn (h : Orderly engine s) (hmain : s.main = .adapter) (workers : List Worker) :
    Orderly engine (s.spawn workers) := by
  refine ⟨?_, h.report, h.log.imp id fun hlog => hlog.2.absurd_main fun _ _ => by simp [hmain]⟩
  intro thread event hholder
  have hnext := h.held thread event hholder
  cases thread with
  | main => exact hnext
  | heartbeat => exact hnext
  | worker index =>
    simp only [Agent.next, Agent.spawn] at hnext ⊢
    rw [List.getElem?_append_left]
    · exact hnext
    · by_contra hlong
      rw [List.getElem?_eq_none (by omega)] at hnext
      cases hnext

theorem Orderly.moveBeat {beat : Beat} (h : Orderly engine s) (hwaiting : s.beat = .waiting)
    (hlog : unfinished s.delivered ∨ beat ≠ .awake) : Orderly engine { s with beat := beat } := by
  have hmain : ∀ thread, thread ≠ .heartbeat →
      Agent.next engine { s with beat := beat } thread = s.next engine thread := by
    intro thread hthread
    cases thread with
    | main => rfl
    | heartbeat => exact absurd rfl hthread
    | worker index => rfl
  refine ⟨?_, h.report, ?_⟩
  · intro thread event hholder
    have hnext := h.held thread event hholder
    rw [← hnext]
    apply hmain
    rintro rfl
    simp [Agent.next, hwaiting] at hnext
  · rcases h.log with hopen | ⟨hlast, hsilent⟩
    · exact .inl hopen
    · refine hlog.imp id fun hasleep => ⟨hlast, hsilent.holder, hsilent.main, ?_⟩
      intro thread
      by_cases hthread : thread = .heartbeat
      · subst hthread
        simp [Agent.next, hasleep]
      · rw [hmain thread hthread]
        exact hsilent.next thread

theorem Orderly.step {a : AgentAct} (h : Orderly engine s) (hquiet : Quiet engine s a)
    (hstep : s.step streamed engine a = some s') : Orderly engine s' := by
  cases a with
  | enter thread =>
    obtain ⟨-, type, payload, hnext, rfl⟩ := step_enter hstep
    refine ⟨?_, h.report, h.log.imp id fun hlog => ?_⟩
    · rintro _ _ ⟨⟩
      exact hnext
    · rw [hlog.2.next thread] at hnext
      cases hnext
  | sink ok =>
    obtain ⟨thread, event, hholder, rfl⟩ := step_sink hstep
    exact h.sink hholder hquiet
  | raise =>
    simp only [Agent.step] at hstep
    split at hstep
    · next hmain =>
      cases hstep
      exact h.moveMain (by simp only [Agent.next, hmain]) (by simp)
        fun hsilent => hsilent.absurd_main fun _ _ => by simp [hmain]
    · cases hstep
  | spawn stream messages =>
    simp only [Agent.step] at hstep
    split at hstep
    · next hmain =>
      cases hstep
      exact h.spawn hmain _
    · cases hstep
  | readers outputLimit stdout stderr =>
    simp only [Agent.step] at hstep
    split at hstep
    · next hmain =>
      cases hstep
      exact h.spawn hmain _
    · cases hstep
  | returns result files =>
    simp only [Agent.step] at hstep
    split at hstep
    · next hmain =>
      cases hstep
      refine h.moveMain (by simp only [Agent.next, hmain]) ?_
        fun hsilent => hsilent.absurd_main fun _ _ => by simp [hmain]
      rintro _ _ ⟨⟩
      exact reports_closing ..
    · cases hstep
  | raises errorType files =>
    simp only [Agent.step] at hstep
    split at hstep
    · next hmain =>
      cases hstep
      refine h.moveMain (by simp only [Agent.next, hmain]) ?_
        fun hsilent => hsilent.absurd_main fun _ _ => by simp [hmain]
      rintro _ _ ⟨⟩
      exact reports_closing ..
    · cases hstep
  | elapse =>
    simp only [Agent.step, Option.ite_none_right_eq_some, Option.some.injEq] at hstep
    obtain ⟨⟨hwaiting, -⟩, rfl⟩ := hstep
    exact h.moveBeat hwaiting (.inl hquiet)
  | notice =>
    simp only [Agent.step, Option.ite_none_right_eq_some, Option.some.injEq] at hstep
    obtain ⟨⟨hwaiting, -⟩, rfl⟩ := hstep
    exact h.moveBeat hwaiting (.inr (by decide))
  | setStop =>
    simp only [Agent.step] at hstep
    split at hstep
    · next result hmain =>
      cases hstep
      exact h.moveMain (by simp only [Agent.next, hmain]) (by simp)
        fun hsilent => hsilent.moveMain (.inl ⟨result, .inr rfl⟩)
    · cases hstep
  | join =>
    simp only [Agent.step] at hstep
    split at hstep
    · next result hmain =>
      cases hstep
      exact h.moveMain (by simp only [Agent.next, hmain]) (by simp) fun hsilent => hsilent.moveMain (.inr ⟨_, rfl⟩)
    · cases hstep

/-- No event follows `FINISHED`. -/
def FinishedLast (events : List Event) : Prop :=
  ∀ before event rest, events = before ++ event :: rest → event.type = .finished → rest = []

theorem FinishedLast.types {events : List Event} {before rest : List EventType} (h : FinishedLast events)
    (htypes : events.map (·.type) = before ++ .finished :: rest) : rest = [] := by
  obtain ⟨first, others, rfl, -, hothers⟩ := List.map_eq_append_iff.mp htypes
  obtain ⟨event, last, rfl, hevent, hlast⟩ := List.map_eq_cons_iff.mp hothers
  rw [h first event last rfl hevent] at hlast
  exact hlast.symm

theorem Orderly.finishedLast (h : Orderly engine s) : FinishedLast s.delivered := by
  intro before event rest heq hfinished
  rcases h.log with hopen | ⟨⟨init, last, hlast, hopen⟩, -⟩
  · exact absurd hfinished (hopen event (by rw [heq]; simp))
  · rw [hlast] at heq
    by_contra hrest
    obtain ⟨rest', final, rfl⟩ : ∃ rest' final, rest = rest' ++ [final] :=
      ⟨rest.dropLast, rest.getLast hrest, (List.dropLast_append_getLast hrest).symm⟩
    have hconcat : init ++ [last] = (before ++ event :: rest') ++ [final] := by simpa using heq
    have hinit : init = before ++ event :: rest' := (List.append_inj' hconcat rfl).1
    exact hopen event (by rw [hinit]; simp) hfinished

/-- In every run in which the heartbeat sleeps and the readers are done from the delivery of `FINISHED` until the
flag is set, `FINISHED` is the last event in every state. -/
theorem finished_is_last {l : List AgentAct} (hquiet : Along (Agent.step streamed engine) (Quiet engine) .init l)
    (hrun : runSteps (Agent.step streamed engine) .init l = some s) : FinishedLast s.delivered := by
  have h : Orderly engine s :=
    hquiet.keeps (fun _ _ _ hs hok hstep => hs.step hok hstep) (orderly_init engine) hrun
  exact h.finishedLast

/-! ## A heartbeat around the end -/

def succeeded : AdapterResult := ⟨.succeeded, "ok", .empty, "", "", some 0, false⟩

/-- The adapter succeeds, and `ASSERTION` and `FINISHED` are delivered. -/
def upToFinished : List AgentAct :=
  [.enter .main, .sink true, .returns succeeded [], .enter .main, .sink true, .enter .main, .sink true]

/-- The flag is set and the heartbeat thread sees it. -/
def stopped : List AgentAct := upToFinished ++ [.setStop, .notice, .join]

/-- The interval passes before the flag is set. -/
def lateHeartbeat : List AgentAct := upToFinished ++ [.elapse, .setStop, .enter .heartbeat, .sink true, .join]

/-- One reader's event among those of the main flow, and one heartbeat that the sink refuses. -/
def refusedHeartbeat : List AgentAct :=
  [.enter .main, .sink true, .spawn "stdout" ["line"], .elapse, .enter .heartbeat, .sink false,
    .enter (.worker 0), .sink true, .returns succeeded []]

theorem refusedHeartbeat_numbered :
    ∃ s, runSteps (Agent.step true .pytest) .init refusedHeartbeat = some s ∧
      s.delivered.map (·.seq) = [0, 1] ∧ s.delivered.map (·.seq) = List.range s.delivered.length := by
  have hany : (runSteps (Agent.step true .pytest) .init refusedHeartbeat).any
      (fun s => s.delivered.map (·.seq) = [0, 1]) = true := by decide +kernel
  obtain ⟨s, hrun, hcheck⟩ := (Option.any_eq_true _ _).mp hany
  exact ⟨s, hrun, by simpa using hcheck, (delivered_numbered hrun).1⟩

/-- `Quiet`, evaluated. -/
def checkQuiet (s : Agent) : AgentAct → Bool
  | .sink true => !(s.holder.any fun h => h.1 = .main && h.2.type = .finished) ||
      (s.beat ≠ .awake && s.workers.all fun worker => worker.messages.isEmpty)
  | .elapse => s.delivered.all fun event => event.type ≠ .finished
  | _ => true

theorem quiet_of_check {a : AgentAct} (h : checkQuiet s a = true) : Quiet engine s a := by
  cases a with
  | sink ok =>
    cases ok with
    | false => trivial
    | true =>
      rintro ⟨event, hholder, hfinished⟩ thread hthread
      have hasleep : s.beat ≠ .awake ∧ ∀ worker ∈ s.workers, worker.messages = [] := by
        simpa [checkQuiet, hholder, hfinished] using h
      cases thread with
      | main => exact absurd rfl hthread
      | heartbeat => simp [Agent.next, hasleep.1]
      | worker index =>
        simp only [Agent.next]
        split
        · next stream message rest hget => cases hasleep.2 _ (List.mem_of_getElem? hget)
        · rfl
  | elapse => simpa [checkQuiet, Quiet, unfinished] using h
  | _ => trivial

theorem stopped_finishes_last :
    ∃ s, runSteps (Agent.step false .pytest) .init stopped = some s ∧
      s.delivered.map (·.type) = [.started, .assertion, .finished] ∧ FinishedLast s.delivered := by
  have hany : (runSteps (Agent.step false .pytest) .init stopped).any
      (fun s => s.delivered.map (·.type) = [.started, .assertion, .finished]) = true := by decide +kernel
  obtain ⟨s, hrun, hcheck⟩ := (Option.any_eq_true _ _).mp hany
  have hquiet : checkAlong (Agent.step false .pytest) checkQuiet .init stopped = true := by decide +kernel
  exact ⟨s, hrun, by simpa using hcheck,
    finished_is_last ((along_of_check hquiet).imp fun _ _ => quiet_of_check) hrun⟩

/-- A heartbeat that wakes up between the delivery of `FINISHED` and the flag follows it. -/
theorem lateHeartbeat_follows_finished :
    ∃ s, runSteps (Agent.step false .pytest) .init lateHeartbeat = some s ∧
      s.delivered.map (·.type) = [.started, .assertion, .finished, .heartbeat] ∧ ¬ FinishedLast s.delivered := by
  have hany : (runSteps (Agent.step false .pytest) .init lateHeartbeat).any
      (fun s => s.delivered.map (·.type) = [.started, .assertion, .finished, .heartbeat]) = true := by decide +kernel
  obtain ⟨s, hrun, hcheck⟩ := (Option.any_eq_true _ _).mp hany
  have htypes : s.delivered.map (·.type) = [.started, .assertion, .finished, .heartbeat] := by simpa using hcheck
  refine ⟨s, hrun, htypes, ?_⟩
  intro hlast
  have hsplit : s.delivered.map (·.type) = [.started, .assertion] ++ .finished :: [.heartbeat] := htypes
  cases hlast.types hsplit

end SmartTest.Runner
