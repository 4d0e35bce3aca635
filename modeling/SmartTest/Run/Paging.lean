import SmartTest.Run.EventLog

/-!
# Paging through the events of a run

The route `list_events` answers with the events past a cursor and with the cursor to go on
from. A client calls it again and again while others write.
-/

open SmartTest.Lib

namespace SmartTest.Run

variable {fingerprint : Engine → Dict String Json → String} {runId : UUID} {first : Nat}

structure EventListResponse where
  items : List EventRecord
  total : Nat
  nextCursor : Nat

/-- The route `list_events`. -/
def listEventsRoute (repo : RunRepository) (runId : UUID) (after : Nat) : Except Exn EventListResponse := do
  let events ← repo.listEvents runId after
  return { items := events
           total := events.length
           nextCursor := (events.getLast?.map (·.cursor)).getD after }

/-- A client, what it has received, and the repository it reads from. -/
structure Pager where
  repo : RunRepository
  cursor : Nat
  received : List EventRecord

inductive PageAct where
  | write (a : RepoAct)
  | page

/-- A page that is refused leaves the client where it is. -/
def Pager.step (fingerprint : Engine → Dict String Json → String) (runId : UUID) (p : Pager) : PageAct → Pager
  | .write a => { p with repo := p.repo.act fingerprint a }
  | .page =>
    match listEventsRoute p.repo runId p.cursor with
    | .error _ => p
    | .ok answer => { p with cursor := answer.nextCursor, received := p.received ++ answer.items }

def Pager.run (fingerprint : Engine → Dict String Json → String) (runId : UUID) (p : Pager) (l : List PageAct) : Pager :=
  l.foldl (Pager.step fingerprint runId) p

/-- The client that starts from `cursor`. -/
def Pager.start (repo : RunRepository) (cursor : Nat) : Pager := ⟨repo, cursor, []⟩

structure Pager.Inv (runId : UUID) (first : Nat) (p : Pager) : Prop where
  filed : p.repo.Filed
  follows : Follows p.repo runId first p.cursor p.received

/-- The events of a run past a cursor, in the order of the log. -/
def eventsPast (repo : RunRepository) (runId : UUID) (first : Nat) : List EventRecord :=
  repo.events.values.filter (isPast runId first)

theorem listEventsRoute_ok {repo : RunRepository} (h : LogOrdered repo) {run : RunRecord}
    (hrun : repo.runs.get? runId = some run) (cursor : Nat) :
    listEventsRoute repo runId cursor = .ok
      { items := eventsPast repo runId cursor
        total := (eventsPast repo runId cursor).length
        nextCursor := ((eventsPast repo runId cursor).getLast?.map (·.cursor)).getD cursor } := by
  have hlist : repo.listEvents runId cursor = .ok (eventsPast repo runId cursor) := by
    simp only [RunRepository.listEvents, RunRepository.getLocked_ok_iff.mpr hrun, ok_bind, eventsAfter_eq h]
    rfl
  simp only [listEventsRoute, hlist, ok_bind]
  rfl

theorem listEventsRoute_error {repo : RunRepository} (hrun : repo.runs.get? runId = none) (cursor : Nat) :
    ∃ e, listEventsRoute repo runId cursor = .error e := by
  simp [listEventsRoute, RunRepository.listEvents, RunRepository.getLocked, hrun]

theorem Pager.Inv.step {p : Pager} (h : p.Inv runId first) (a : PageAct) :
    (p.step fingerprint runId a).Inv runId first := by
  cases a with
  | write a =>
    have hf := (@RunRepository.act_induct fingerprint (fun _ => True) (fun _ _ _ _ _ => trivial) p.repo a h.filed
      trivial).1
    exact ⟨hf, h.follows.act h.filed a⟩
  | page =>
    simp only [Pager.step]
    cases hrun : p.repo.runs.get? runId with
    | none =>
      obtain ⟨e, he⟩ := listEventsRoute_error hrun p.cursor
      rw [he]
      exact h
    | some run =>
      rw [listEventsRoute_ok h.follows.ordered hrun]
      exact ⟨h.filed, h.follows.list.1⟩

theorem Pager.Inv.run {p : Pager} (h : p.Inv runId first) (l : List PageAct) :
    (p.run fingerprint runId l).Inv runId first := by
  induction l generalizing p with
  | nil => exact h
  | cons a rest ih => exact ih (h.step a)

theorem logOrdered_acts (l : List RepoAct) : (RunRepository.acts fingerprint .empty l).Filed ∧
    LogOrdered (RunRepository.acts fingerprint .empty l) := by
  refine RunRepository.acts_keep (P := fun repo => repo.Filed ∧ LogOrdered repo) ?_ l ⟨?_, ?_⟩
  · intro repo a h
    obtain ⟨hf, hlog, -⟩ := @act_log fingerprint repo h.1 h.2 a
    exact ⟨hf, hlog⟩
  · exact RunRepository.attached_empty.filed
  · exact ⟨by simp [RunRepository.empty], by simp [RunRepository.empty]⟩

theorem Pager.inv_start (l : List RepoAct) (runId : UUID) (cursor : Nat) :
    (Pager.start (RunRepository.acts fingerprint .empty l) cursor).Inv runId cursor :=
  ⟨(logOrdered_acts l).1, .nil (logOrdered_acts l).2 runId cursor⟩

/-- What the client has is the run's events past the start and up to its cursor. -/
theorem Pager.Inv.received_iff {p : Pager} (h : p.Inv runId first) :
    (∀ e, e ∈ p.received ↔ e ∈ p.repo.events.values ∧ e.runId = runId ∧ first < e.cursor ∧ e.cursor ≤ p.cursor) ∧
      p.received.Pairwise (·.cursor < ·.cursor) := by
  rw [h.follows.sent]
  constructor
  · intro e
    simp [isPast, and_assoc]
  · exact (List.pairwise_map.mp h.follows.ordered.increasing).filter _

/-- A page that is answered brings the client up to date. -/
theorem Pager.Inv.page {p : Pager} (h : p.Inv runId first) (hrun : (p.repo.runs.get? runId).isSome) :
    (p.step fingerprint runId .page).received = eventsPast (p.step fingerprint runId .page).repo runId first := by
  obtain ⟨run, hrun⟩ := Option.isSome_iff_exists.mp hrun
  have hnext := (@Pager.Inv.step fingerprint runId first p h .page).follows.sent
  simp only [Pager.step, listEventsRoute_ok h.follows.ordered hrun] at hnext ⊢
  rw [hnext]
  have hnone : eventsPast p.repo runId (((eventsPast p.repo runId p.cursor).getLast?.map (·.cursor)).getD p.cursor) =
      [] := h.follows.list.2
  generalize ((eventsPast p.repo runId p.cursor).getLast?.map (·.cursor)).getD p.cursor = next at hnone
  rw [eventsPast, List.filter_eq_nil_iff] at hnone
  apply List.filter_congr
  intro e he
  by_cases hp : isPast runId first e = true
  · have hle := hnone e he
    simp only [isPast, Bool.and_eq_true, decide_eq_true_eq, not_and, Nat.not_lt] at hp hle
    have := hle hp.1
    simp [isPast, hp, this]
  · simp [hp]

/-! ## The log and its readers -/

/-- Cursors strictly increase in the order of insertion, and event ids and sequence numbers are unique. -/
structure LogSound (repo : RunRepository) : Prop where
  cursors : (repo.events.values.map (·.cursor)).Pairwise (· < ·)
  ids : (repo.events.values.map (·.eventId)).Nodup
  sequences : (repo.events.values.map fun e => (e.attemptId, e.seq)).Nodup

theorem RunRepository.LogIndexed.values {repo : RunRepository} (h : RunRepository.LogIndexed repo) :
    (repo.events.values.map (·.eventId)) = repo.events.keys := by
  simp only [Dict.values, Dict.keys, List.map_map]
  apply List.map_congr_left
  intro e he
  exact h.id e.1 e.2 ((Dict.get?_eq_some_iff _ _ _).mpr he)

theorem logSound_acts (l : List RepoAct) : LogSound (RunRepository.acts fingerprint .empty l) := by
  have hindexed : RunRepository.LogIndexed (RunRepository.acts fingerprint .empty l) :=
    RunRepository.acts_keep (fun _ a h => h.act a) l RunRepository.logIndexed_empty
  have hordered := (@logOrdered_acts fingerprint l).2
  generalize RunRepository.acts fingerprint .empty l = repo at hindexed hordered
  refine ⟨hordered.increasing, ?_, ?_⟩
  · rw [hindexed.values]
    exact repo.events.nodup
  · -- The table of sequence numbers leads from each pair back to its own event.
    apply List.Nodup.of_map (fun key => repo.eventSequences.get? key)
    have hback : ((repo.events.values.map fun e => (e.attemptId, e.seq)).map fun key => repo.eventSequences.get? key) =
        repo.events.keys.map some := by
      rw [← hindexed.values, List.map_map, List.map_map]
      apply List.map_congr_left
      intro e he
      obtain ⟨eventId, hget⟩ := (Dict.mem_values_iff _ _).mp he
      rw [Function.comp_apply, Function.comp_apply, hindexed.sequence eventId e hget, hindexed.id eventId e hget]
    rw [hback]
    exact List.Nodup.map (Option.some_injective _) repo.events.nodup

/-- The log after any operations; replays and refusals; and a client that pages through a run. -/
theorem event_log_paged (fingerprint : Engine → Dict String Json → String) (l : List RepoAct) :
    let repo := RunRepository.acts fingerprint .empty l
    LogSound repo ∧
    (∀ event record repo', RunRepository.PayloadKeys event → repo.appendEvent event = .ok (record, repo') →
      ∀ later, (RunRepository.acts fingerprint repo' later).appendEvent event =
        .ok (record, RunRepository.acts fingerprint repo' later)) ∧
    (∀ event error, repo.appendEvent event = .error error →
      (appendEventWrites event).on repo = (.error error, repo) ∧ repo.act fingerprint (.appendEvent event) = repo) ∧
    ∀ runId cursor history,
      let p := (Pager.start repo cursor).run fingerprint runId history
      (∀ e, e ∈ p.received ↔
        e ∈ p.repo.events.values ∧ e.runId = runId ∧ cursor < e.cursor ∧ e.cursor ≤ p.cursor) ∧
      p.received.Pairwise (·.cursor < ·.cursor) ∧
      ((p.repo.runs.get? runId).isSome →
        (p.step fingerprint runId .page).received = eventsPast p.repo runId cursor) := by
  intro repo
  refine ⟨logSound_acts l, ?_, ?_, ?_⟩
  · intro event record repo' hkeys hok later
    have haccepted := RunRepository.Accepted.of_append (logOrdered_acts l).1 hkeys hok
    exact (RunRepository.acts_keep (P := RunRepository.Accepted event record) (fun _ a h => h.act a) later
      haccepted).replay
  · intro event error herror
    refine ⟨?_, ?_⟩
    · rw [appendEventWrites_on, herror]
    · simp only [RunRepository.act, herror, after]
  · intro runId cursor history p
    have hinv : p.Inv runId cursor := (Pager.inv_start l runId cursor).run history
    refine ⟨hinv.received_iff.1, hinv.received_iff.2, ?_⟩
    intro hrun
    rw [@Pager.Inv.page fingerprint runId cursor p hinv hrun]
    obtain ⟨run, hget⟩ := Option.isSome_iff_exists.mp hrun
    simp only [Pager.step, listEventsRoute_ok hinv.follows.ordered hget]

end SmartTest.Run
