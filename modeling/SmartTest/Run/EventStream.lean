import SmartTest.Run.EventLog

/-!
# The event stream of a run

`_event_stream` polls: it lists the events past its cursor, and then reads the run to see
whether it is over. Other operations may come in between. An event stored between the two
reads of the last poll is never sent.
-/

open SmartTest.Lib

namespace SmartTest.Run

variable {fingerprint : Engine → Dict String Json → String}

/-! ## The reader -/

inductive Chunk where
  | event (record : EventRecord)
  | heartbeat

inductive Phase where
  /-- Before `list_events`. -/
  | listing
  /-- Between `list_events` and `get`. -/
  | checking
  /-- The run was terminal. -/
  | finished
  /-- The run was missing, or the client went away. -/
  | closed
  deriving DecidableEq

/-- The local variables of `_event_stream`; `polls` is `elapsed` in units of `poll_interval`. -/
structure Reader where
  phase : Phase
  cursor : Nat
  polls : Nat
  output : List Chunk

/-- `heartbeat_interval / poll_interval`. -/
def POLLS_PER_HEARTBEAT : Nat := 60

def Reader.start (cursor : Nat) : Reader := ⟨.listing, cursor, 0, []⟩

def Reader.list (reader : Reader) (events : List EventRecord) : Reader where
  phase := .checking
  cursor := (events.getLast?.map (·.cursor)).getD reader.cursor
  polls := if events.isEmpty then reader.polls else 0
  output := reader.output ++ events.map .event

/-- After `get` found the run still going and the client still there. -/
def Reader.sleep (reader : Reader) : Reader :=
  if reader.polls + 1 ≥ POLLS_PER_HEARTBEAT then
    ⟨.listing, reader.cursor, 0, reader.output ++ [.heartbeat]⟩
  else ⟨.listing, reader.cursor, reader.polls + 1, reader.output⟩

/-- The next read of the reader; `disconnected` is what `is_disconnected` answers after it. -/
def Reader.step (repo : RunRepository) (runId : UUID) (disconnected : Bool) (reader : Reader) : Reader :=
  match reader.phase with
  | .listing =>
    match repo.listEvents runId reader.cursor with
    | .error _ => { reader with phase := .closed }
    | .ok events => reader.list events
  | .checking =>
    match repo.get runId with
    | .error _ => { reader with phase := .closed }
    | .ok run =>
      if run.state.terminal then { reader with phase := .finished }
      else if disconnected then { reader with phase := .closed }
      else reader.sleep
  | _ => reader

def Reader.sent (reader : Reader) : List EventRecord :=
  reader.output.filterMap fun
    | .event record => some record
    | .heartbeat => none

/-! ## The reader among other operations -/

inductive StreamAct where
  | other (a : RepoAct)
  | read (disconnected : Bool)

/-- `unlisted` is a history variable: the events of the run past the start cursor that were
stored between the last `list_events` and the `get` after it. -/
structure Stream where
  repo : RunRepository
  reader : Reader
  unlisted : List EventRecord

/-- The events of the run past `start` that `repo'` holds and `repo` does not. -/
def newEvents (repo repo' : RunRepository) (runId : UUID) (start : Nat) : List EventRecord :=
  (repo'.eventsAfter runId start).drop (repo.eventsAfter runId start).length

def Stream.step (fingerprint : Engine → Dict String Json → String) (runId : UUID) (start : Nat)
    (s : Stream) : StreamAct → Stream
  | .other a =>
    let repo' := s.repo.act fingerprint a
    { s with
      repo := repo'
      unlisted := if s.reader.phase = .checking then s.unlisted ++ newEvents s.repo repo' runId start
        else s.unlisted }
  | .read disconnected =>
    { s with
      reader := s.reader.step s.repo runId disconnected
      unlisted := if s.reader.phase = .listing then [] else s.unlisted }

/-- The run is stored and over. -/
def Over (repo : RunRepository) (runId : UUID) : Prop :=
  ∃ run, repo.runs.get? runId = some run ∧ run.state.terminal = true

/-- A whole run of the stream that began at `start` on a repository that earlier operations
left, where every event of the run is stored before the run is over. -/
inductive StreamReaches (fingerprint : Engine → Dict String Json → String) (runId : UUID) (start : Nat) :
    Stream → Prop
  | start (earlier : List RepoAct) :
      StreamReaches fingerprint runId start
        ⟨earlier.foldl (RunRepository.act fingerprint) .empty, .start start, []⟩
  | other {s : Stream} (a : RepoAct) (h : StreamReaches fingerprint runId start s)
      (hbefore : Over s.repo runId → newEvents s.repo (s.repo.act fingerprint a) runId 0 = []) :
      StreamReaches fingerprint runId start (s.step fingerprint runId start (.other a))
  | read {s : Stream} (disconnected : Bool) (h : StreamReaches fingerprint runId start s) :
      StreamReaches fingerprint runId start (s.step fingerprint runId start (.read disconnected))

/-- Every event of the run past `start`, once and in the order of their cursors. -/
def Complete (repo : RunRepository) (runId : UUID) (start : Nat) (sent : List EventRecord) : Prop :=
  (∀ e, e ∈ sent ↔ e ∈ repo.events.values ∧ e.runId = runId ∧ start < e.cursor) ∧
    sent.Pairwise (·.cursor < ·.cursor)

/-! ## What the reader has sent -/

section Invariant

variable {runId : UUID} {start : Nat} {s : Stream}

structure StreamInv (runId : UUID) (start : Nat) (s : Stream) : Prop where
  filed : s.repo.Filed
  ordered : LogOrdered s.repo
  le_cursor : start ≤ s.reader.cursor
  cursor_stored : s.reader.cursor = start ∨ s.reader.cursor < s.repo.nextCursor
  sent : s.reader.sent =
    s.repo.events.values.filter fun e => isPast runId start e && e.cursor ≤ s.reader.cursor
  unlisted : s.reader.phase = .checking ∨ s.reader.phase = .finished →
    s.unlisted = s.repo.events.values.filter (isPast runId s.reader.cursor)
  closed : s.reader.phase = .finished → Over s.repo runId

theorem StreamInv.increasing (h : StreamInv runId start s) :
    s.repo.events.values.Pairwise (·.cursor < ·.cursor) := List.pairwise_map.mp h.ordered.increasing

theorem newEvents_eq {repo repo' : RunRepository} {new : List EventRecord} (h : LogOrdered repo)
    (h' : LogOrdered repo') (hvalues : repo'.events.values = repo.events.values ++ new) (cursor : Nat) :
    newEvents repo repo' runId cursor = new.filter (isPast runId cursor) := by
  unfold newEvents
  rw [eventsAfter_eq h, eventsAfter_eq h', hvalues, List.filter_append, List.drop_left']
  · rfl
  · rfl

theorem over_act (hf : s.repo.Filed) (hover : Over s.repo runId) (a : RepoAct) :
    Over (s.repo.act fingerprint a) runId := by
  obtain ⟨run, hrun, hterm⟩ := hover
  have := (@RunRepository.act_induct fingerprint (fun b => b.runs.get? runId = some run)
    (fun b c _ hw hb => ?_) s.repo a hf hrun).2
  · exact ⟨run, this, hterm⟩
  · rcases hw.runs with heq | hwrite
    · rw [heq]
      exact hb
    · exact hwrite.keepsTerminal hb hterm

theorem StreamInv.follows (h : StreamInv runId start s) :
    Follows s.repo runId start s.reader.cursor s.reader.sent :=
  ⟨h.ordered, h.le_cursor, h.cursor_stored, h.sent⟩

theorem StreamInv.other (h : StreamInv runId start s) (a : RepoAct)
    (hbefore : Over s.repo runId → newEvents s.repo (s.repo.act fingerprint a) runId 0 = []) :
    StreamInv runId start (s.step fingerprint runId start (.other a)) := by
  obtain ⟨hf', hord', new, hvalues, hnew, hnext⟩ := @act_log fingerprint _ h.filed h.ordered a
  have hnew0 : ∀ cursor, newEvents s.repo (s.repo.act fingerprint a) runId cursor =
      new.filter (isPast runId cursor) := newEvents_eq h.ordered hord' hvalues
  have hpast : new.filter (isPast runId s.reader.cursor) = new.filter (isPast runId start) := by
    apply List.filter_congr
    intro e he
    simp [isPast, h.follows.past_iff (hnew e he)]
  have hfollows := @Follows.act fingerprint _ _ _ _ _ h.follows h.filed a
  refine ⟨hf', hord', hfollows.le_cursor, hfollows.stored, hfollows.sent, ?_,
    fun hfin => over_act h.filed (h.closed hfin) a⟩
  intro hphase
  simp only [Stream.step, hvalues, List.filter_append, hpast, hnew0]
  have hold := h.unlisted hphase
  rcases hphase with hc | hfin
  · have hc' : s.reader.phase = .checking := hc
    rw [if_pos hc', hold]
  · -- The run is over, so nothing of it was stored.
    have hfin' : s.reader.phase = .finished := hfin
    have hempty := hbefore (h.closed hfin')
    rw [hnew0, List.filter_eq_nil_iff] at hempty
    have hnil : new.filter (isPast runId start) = [] := by
      rw [List.filter_eq_nil_iff]
      intro e he hp
      apply hempty e he
      simp only [isPast, Bool.and_eq_true, decide_eq_true_eq] at hp ⊢
      exact ⟨hp.1, by omega⟩
    rw [if_neg (by rw [hfin']; decide), hnil, List.append_nil, hold]

theorem sent_list (reader : Reader) (events : List EventRecord) :
    (reader.list events).sent = reader.sent ++ events := by
  simp only [Reader.sent, Reader.list, List.filterMap_append, List.filterMap_map]
  congr 1
  induction events with
  | nil => rfl
  | cons e rest ih => simp

/-- After `list_events` nothing is past the cursor, and everything up to it has been sent. -/
theorem StreamInv.list (h : StreamInv runId start s) :
    let events := s.repo.events.values.filter (isPast runId s.reader.cursor)
    StreamInv runId start ⟨s.repo, s.reader.list events, []⟩ := by
  intro events
  obtain ⟨hfollows, hnone⟩ := h.follows.list
  refine ⟨h.filed, h.ordered, hfollows.le_cursor, hfollows.stored, ?_, fun _ => hnone.symm,
    fun hfin => by cases hfin⟩
  rw [sent_list]
  exact hfollows.sent

theorem StreamInv.read (h : StreamInv runId start s) (disconnected : Bool) :
    StreamInv runId start (s.step fingerprint runId start (.read disconnected)) := by
  -- Outside `list_events` the reader keeps its cursor and its events.
  have hquiet : ∀ reader : Reader, reader.cursor = s.reader.cursor → reader.sent = s.reader.sent →
      (reader.phase = .checking → s.reader.phase = .checking) →
      (reader.phase = .finished → s.reader.phase = .finished ∨ s.reader.phase = .checking ∧ Over s.repo runId) →
      ∀ unlisted, (s.reader.phase ≠ .listing → unlisted = s.unlisted) →
      StreamInv runId start ⟨s.repo, reader, unlisted⟩ := by
    intro reader hcursor hsent hcheck hfin unlisted hsame
    refine ⟨h.filed, h.ordered, hcursor ▸ h.le_cursor, hcursor ▸ h.cursor_stored, ?_, ?_, ?_⟩
    · rw [hsent, hcursor]
      exact h.sent
    · rintro (hc | hf)
      · rw [hsame (by rw [hcheck hc]; decide), hcursor]
        exact h.unlisted (.inl (hcheck hc))
      · rcases hfin hf with hp | ⟨hp, -⟩
        · rw [hsame (by rw [hp]; decide), hcursor]
          exact h.unlisted (.inr hp)
        · rw [hsame (by rw [hp]; decide), hcursor]
          exact h.unlisted (.inl hp)
    · intro hf
      rcases hfin hf with hp | ⟨-, hover⟩
      · exact h.closed hp
      · exact hover
  simp only [Stream.step, Reader.step]
  cases hphase : s.reader.phase with
  | listing =>
    rw [if_pos rfl]
    simp only [RunRepository.listEvents]
    cases hget : s.repo.getLocked runId with
    | error e =>
      exact hquiet { s.reader with phase := .closed } rfl rfl (by simp) (by simp) _
        (fun hne => absurd hphase hne)
    | ok run =>
      simp only [bind, Except.bind, pure, Except.pure, eventsAfter_eq h.ordered]
      exact h.list
  | checking =>
    rw [if_neg (show ¬ Phase.checking = .listing by decide)]
    cases hget : s.repo.get runId with
    | error e => exact hquiet { s.reader with phase := .closed } rfl rfl (by simp) (by simp) _ (fun _ => rfl)
    | ok run =>
      have hrun := RunRepository.getLocked_ok_iff.mp hget
      dsimp only
      split
      · next hterm =>
        exact hquiet { s.reader with phase := .finished } rfl rfl (by simp)
          (fun _ => .inr ⟨hphase, run, hrun, hterm⟩) _ (fun _ => rfl)
      · split
        · exact hquiet { s.reader with phase := .closed } rfl rfl (by simp) (by simp) _ (fun _ => rfl)
        · have hsleep : s.reader.sleep.phase = .listing ∧ s.reader.sleep.cursor = s.reader.cursor ∧
              s.reader.sleep.sent = s.reader.sent := by
            simp only [Reader.sleep, Reader.sent]
            split <;> simp
          exact hquiet s.reader.sleep hsleep.2.1 hsleep.2.2 (by simp [hsleep.1]) (by simp [hsleep.1]) _
            (fun _ => rfl)
  | finished =>
    rw [if_neg (show ¬ Phase.finished = .listing by decide)]
    exact h
  | closed =>
    rw [if_neg (show ¬ Phase.closed = .listing by decide)]
    exact h

theorem streamInv_of_reaches (h : StreamReaches fingerprint runId start s) : StreamInv runId start s := by
  induction h with
  | start earlier =>
    have hrepo : ∀ repo : RunRepository, repo.Filed → LogOrdered repo →
        (earlier.foldl (RunRepository.act fingerprint) repo).Filed ∧
          LogOrdered (earlier.foldl (RunRepository.act fingerprint) repo) := by
      induction earlier with
      | nil => exact fun repo hf ho => ⟨hf, ho⟩
      | cons a rest ih =>
        intro repo hf ho
        obtain ⟨hf', ho', -⟩ := @act_log fingerprint _ hf ho a
        exact ih _ hf' ho'
    obtain ⟨hf, ho⟩ := hrepo .empty (by intro r run h; simp [RunRepository.empty] at h)
      ⟨by simp [RunRepository.empty], by simp [RunRepository.empty]⟩
    refine ⟨hf, ho, Nat.le_refl _, .inl rfl, ?_, by simp [Reader.start], by simp [Reader.start]⟩
    symm
    show List.filter _ _ = []
    rw [List.filter_eq_nil_iff]
    intro e _ hp
    simp only [isPast, Bool.and_eq_true, decide_eq_true_eq] at hp
    obtain ⟨⟨-, hlt⟩, hge⟩ := hp
    exact absurd hge (by show ¬ e.cursor ≤ start; omega)
  | other a _ hbefore ih => exact ih.other a hbefore
  | read disconnected _ ih => exact ih.read disconnected

/-- The events are sent in order and at most once in any case; none is missing exactly when none
was stored between the two reads of the last poll. -/
theorem stream_complete_iff (h : StreamReaches fingerprint runId start s) (hend : s.reader.phase = .finished) :
    Complete s.repo runId start s.reader.sent ↔ s.unlisted = [] := by
  have hinv := streamInv_of_reaches h
  have hunlisted := hinv.unlisted (.inr hend)
  have hsent := hinv.sent
  have hle := hinv.le_cursor
  constructor
  · rintro ⟨hmem, -⟩
    rw [hunlisted, List.filter_eq_nil_iff]
    intro e he hp
    simp only [isPast, Bool.and_eq_true, decide_eq_true_eq] at hp
    have hin := (hmem e).mpr ⟨he, hp.1, by omega⟩
    rw [hsent, List.mem_filter] at hin
    simp only [Bool.and_eq_true, decide_eq_true_eq] at hin
    omega
  · intro hnone
    rw [hunlisted, List.filter_eq_nil_iff] at hnone
    refine ⟨fun e => ?_, ?_⟩
    · rw [hsent, List.mem_filter]
      simp only [isPast, Bool.and_eq_true, decide_eq_true_eq]
      constructor
      · rintro ⟨hin, ⟨hrun, hlt⟩, -⟩
        exact ⟨hin, hrun, hlt⟩
      · rintro ⟨hin, hrun, hlt⟩
        refine ⟨hin, ⟨hrun, hlt⟩, ?_⟩
        by_contra hgt
        exact hnone e hin (by simp [isPast, hrun]; omega)
    · rw [hsent]
      exact hinv.increasing.filter _

end Invariant

/-! ## The last poll -/

/-- A run that is executing, before any event. -/
def executing : List RepoAct :=
  [.createOrGet ⟨"r"⟩ 0 .pytest .empty none, .transition ⟨"r"⟩ .queued, .transition ⟨"r"⟩ .dispatching,
    .beginAttempt ⟨"r"⟩ ⟨"a"⟩ "runner" 300 0]

def finishedEvent : EventEnvelope := ⟨⟨"r"⟩, ⟨"a"⟩, .pytest, ⟨"e"⟩, 0, 0, .finished, .empty⟩

/-- The stream of `executing` after the given actions. -/
def streamAfter (acts : List StreamAct) : Stream :=
  acts.foldl (Stream.step (fun _ _ => "") ⟨"r"⟩ 0)
    ⟨executing.foldl (RunRepository.act fun _ _ => "") .empty, .start 0, []⟩

theorem not_over_of_state {repo : RunRepository} {runId : UUID}
    (h : (repo.runs.get? runId).any (·.state.terminal) = false) : ¬ Over repo runId := by
  rintro ⟨run, hrun, hterm⟩
  simp [hrun, hterm] at h

/-- Stored before the poll, the event is sent. -/
theorem early_event_sent :
    Complete (streamAfter [.other (.appendEvent finishedEvent), .read false,
        .other (.transition ⟨"r"⟩ .succeeded), .read false]).repo ⟨"r"⟩ 0
      (streamAfter [.other (.appendEvent finishedEvent), .read false,
        .other (.transition ⟨"r"⟩ .succeeded), .read false]).reader.sent := by
  have hreaches : StreamReaches (fun _ _ => "") ⟨"r"⟩ 0 (streamAfter [.other (.appendEvent finishedEvent),
      .read false, .other (.transition ⟨"r"⟩ .succeeded), .read false]) := by
    refine .read false (.other _ (.read false (.other _ (.start executing) ?_)) ?_)
    · exact fun hover => absurd hover (not_over_of_state (by decide))
    · exact fun hover => absurd hover (not_over_of_state (by decide))
  exact (stream_complete_iff hreaches rfl).mpr rfl

/-- Stored after `list_events`, with the run over before `get`, it is lost. -/
theorem late_event_lost :
    let s := streamAfter [.read false, .other (.appendEvent finishedEvent),
      .other (.transition ⟨"r"⟩ .succeeded), .read false]
    StreamReaches (fun _ _ => "") ⟨"r"⟩ 0 s ∧ s.reader.phase = .finished ∧
      ¬ Complete s.repo ⟨"r"⟩ 0 s.reader.sent := by
  refine ⟨?_, rfl, ?_⟩
  · refine .read false (.other _ (.other _ (.read false (.start executing)) ?_) ?_)
    · exact fun hover => absurd hover (not_over_of_state (by decide))
    · exact fun hover => absurd hover (not_over_of_state (by decide))
  · rintro ⟨hmem, -⟩
    have hin := (hmem ⟨1, ⟨"e"⟩, ⟨"r"⟩, ⟨"a"⟩, .pytest, 0, 0, .finished, .empty⟩).mpr
      ⟨by exact List.mem_singleton.mpr rfl, rfl, by decide⟩
    have hnone : (streamAfter [.read false, .other (.appendEvent finishedEvent),
      .other (.transition ⟨"r"⟩ .succeeded), .read false]).reader.sent = [] := rfl
    rw [hnone] at hin
    simp at hin

end SmartTest.Run
