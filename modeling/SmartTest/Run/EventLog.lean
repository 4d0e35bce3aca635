import SmartTest.Run.Touch

/-!
# The event log

Records stand in the log in the order of their cursors, each event id and each sequence
number of an attempt once. A client that asks for what is past its cursor, and goes on
from the last record it got, gets every event of a run once and in order.
-/

open SmartTest.Lib

namespace SmartTest.Run

variable {fingerprint : Engine → Dict String Json → String}

/-! ## The log is in order -/

/-- Cursors grow along the log and stay below the next one. -/
structure LogOrdered (repo : RunRepository) : Prop where
  increasing : (repo.events.values.map (·.cursor)).Pairwise (· < ·)
  below : ∀ e ∈ repo.events.values, e.cursor < repo.nextCursor

theorem LogOrdered.write {a b : RunRepository} (hw : a.Write b) (h : LogOrdered a) : LogOrdered b := by
  rcases hw.log with ⟨hev, hnext⟩ | ⟨-, eventId, record, hnew, hcursor, hev, hnext⟩
  · exact ⟨by rw [hev]; exact h.increasing, by rw [hev, hnext]; exact h.below⟩
  · have hvalues : b.events.values = a.events.values ++ [record] := by
      rw [hev, Dict.values_set_new _ _ _ hnew]
    constructor
    · rw [hvalues, List.map_append, List.pairwise_append]
      refine ⟨h.increasing, by simp, ?_⟩
      intro x hx y hy
      obtain ⟨e, he, rfl⟩ := List.mem_map.mp hx
      obtain rfl : y = record.cursor := by simpa using hy
      rw [hcursor]
      exact h.below e he
    · rw [hvalues, hnext]
      intro e he
      rcases List.mem_append.mp he with hold | hone
      · have := h.below e hold
        omega
      · obtain rfl := List.mem_singleton.mp hone
        omega

theorem eventsAfter_eq {repo : RunRepository} (h : LogOrdered repo) (runId : UUID) (cursor : Nat) :
    repo.eventsAfter runId cursor = repo.events.values.filter fun e => e.runId = runId && e.cursor > cursor := by
  unfold RunRepository.eventsAfter
  apply List.Pairwise.insertionSort_eq
  apply List.Pairwise.filter
  exact (List.pairwise_map.mp h.increasing).imp fun hlt => Nat.le_of_lt hlt

/-- In an ordered log the records up to a cursor come before the others. -/
theorem filter_split {l : List EventRecord} (hl : l.Pairwise (·.cursor < ·.cursor)) (p : EventRecord → Bool)
    (k : Nat) :
    (l.filter fun e => p e && e.cursor ≤ k) ++ (l.filter fun e => p e && k < e.cursor) = l.filter p := by
  induction l with
  | nil => rfl
  | cons x rest ih =>
    obtain ⟨hx, hrest⟩ := List.pairwise_cons.mp hl
    by_cases hk : x.cursor ≤ k
    · have hk' : ¬ k < x.cursor := by omega
      rw [List.filter_cons, List.filter_cons, List.filter_cons]
      by_cases hp : p x = true <;> simp [hp, hk, hk', ih hrest]
    · -- From here on every cursor is past `k`.
      have hnone : ((x :: rest).filter fun e => p e && e.cursor ≤ k) = [] := by
        rw [List.filter_eq_nil_iff]
        intro e he
        have : k < e.cursor := by
          rcases List.mem_cons.mp he with rfl | he
          · omega
          · have := hx e he
            omega
        simp [this]
      rw [hnone, List.nil_append]
      apply List.filter_congr
      intro e he
      have : k < e.cursor := by
        rcases List.mem_cons.mp he with rfl | he
        · omega
        · have := hx e he
          omega
      simp [this]

/-- The log of a later repository. -/
theorem act_log {repo : RunRepository} (hf : repo.Filed) (h : LogOrdered repo) (a : RepoAct) :
    (repo.act fingerprint a).Filed ∧ LogOrdered (repo.act fingerprint a) ∧
      ∃ new, (repo.act fingerprint a).events.values = repo.events.values ++ new ∧
        (∀ e ∈ new, repo.nextCursor ≤ e.cursor) ∧ repo.nextCursor ≤ (repo.act fingerprint a).nextCursor := by
  refine RunRepository.act_induct (P := fun b => LogOrdered b ∧ ∃ new, b.events.values = repo.events.values ++ new ∧
    (∀ e ∈ new, repo.nextCursor ≤ e.cursor) ∧ repo.nextCursor ≤ b.nextCursor) ?_ repo a hf
    ⟨h, [], by simp, by simp, Nat.le_refl _⟩
  rintro b c - hw ⟨hb, new, hvalues, hnew, hnext⟩
  refine ⟨hb.write hw, ?_⟩
  rcases hw.log with ⟨hev, hcur⟩ | ⟨-, eventId, record, hfresh, hcursor, hev, hcur⟩
  · exact ⟨new, by rw [hev, hvalues], hnew, by omega⟩
  · refine ⟨new ++ [record], ?_, ?_, by omega⟩
    · rw [hev, Dict.values_set_new _ _ _ hfresh, hvalues, List.append_assoc]
    · intro e he
      rcases List.mem_append.mp he with hin | hone
      · exact hnew e hin
      · obtain rfl := List.mem_singleton.mp hone
        omega

/-! ## Following a run -/

def isPast (runId : UUID) (cursor : Nat) (e : EventRecord) : Bool := e.runId = runId && cursor < e.cursor

/-- `sent` is what the log holds of a run past `start` and up to `cursor`. -/
structure Follows (repo : RunRepository) (runId : UUID) (start cursor : Nat) (sent : List EventRecord) : Prop where
  ordered : LogOrdered repo
  le_cursor : start ≤ cursor
  stored : cursor = start ∨ cursor < repo.nextCursor
  sent : sent = repo.events.values.filter fun e => isPast runId start e && e.cursor ≤ cursor

namespace Follows

variable {repo : RunRepository} {runId : UUID} {start cursor : Nat} {sent : List EventRecord}

theorem nil (h : LogOrdered repo) (runId : UUID) (start : Nat) : Follows repo runId start start [] := by
  refine ⟨h, Nat.le_refl _, .inl rfl, ?_⟩
  symm
  rw [List.filter_eq_nil_iff]
  intro e _
  simp only [isPast, Bool.and_eq_true, decide_eq_true_eq]
  omega

/-- A new record is past the cursor exactly when it is past the start. -/
theorem past_iff (h : Follows repo runId start cursor sent) {e : EventRecord} (he : repo.nextCursor ≤ e.cursor) :
    cursor < e.cursor ↔ start < e.cursor := by
  have hle := h.le_cursor
  rcases h.stored with heq | hlt
  · rw [heq]
  · omega

theorem act (h : Follows repo runId start cursor sent) (hf : repo.Filed) (a : RepoAct) :
    Follows (repo.act fingerprint a) runId start cursor sent := by
  obtain ⟨-, hord', new, hvalues, hnew, hnext⟩ := @act_log fingerprint _ hf h.ordered a
  have hnone : (new.filter fun e => isPast runId start e && e.cursor ≤ cursor) = [] := by
    rw [List.filter_eq_nil_iff]
    intro e he
    have := h.past_iff (hnew e he)
    simp only [isPast, Bool.and_eq_true, decide_eq_true_eq]
    omega
  refine ⟨hord', h.le_cursor, ?_, ?_⟩
  · rcases h.stored with heq | hlt
    · exact .inl heq
    · exact .inr (Nat.lt_of_lt_of_le hlt hnext)
  · rw [hvalues, List.filter_append, hnone, List.append_nil]
    exact h.sent

/-- After a listing nothing is past the cursor. -/
theorem list (h : Follows repo runId start cursor sent) :
    let events := repo.events.values.filter (isPast runId cursor)
    let next := (events.getLast?.map (·.cursor)).getD cursor
    Follows repo runId start next (sent ++ events) ∧ repo.events.values.filter (isPast runId next) = [] := by
  intro events next
  have hincreasing : repo.events.values.Pairwise (·.cursor < ·.cursor) := List.pairwise_map.mp h.ordered.increasing
  have hle := h.le_cursor
  have hsub : events.Pairwise (·.cursor < ·.cursor) := hincreasing.filter _
  have hnext : cursor ≤ next ∧ (∀ e ∈ events, e.cursor ≤ next) ∧ (next = cursor ∨ next < repo.nextCursor) := by
    rcases List.eq_nil_or_concat events with hnil | ⟨init, last, hlast⟩
    · simp [next, hnil]
    · rw [List.concat_eq_append] at hlast
      have hin : last ∈ events := by rw [hlast]; simp
      obtain ⟨hval, hp⟩ := List.mem_filter.mp hin
      simp only [isPast, Bool.and_eq_true, decide_eq_true_eq] at hp
      have hbelow := h.ordered.below last hval
      have hnext : next = last.cursor := by simp [next, hlast]
      rw [hnext]
      refine ⟨Nat.le_of_lt hp.2, ?_, .inr hbelow⟩
      intro e he
      rw [hlast, List.pairwise_append] at hsub
      rw [hlast] at he
      rcases List.mem_append.mp he with hi | hl
      · exact Nat.le_of_lt (hsub.2.2 e hi last (by simp))
      · exact Nat.le_of_eq (by rw [List.mem_singleton.mp hl])
  obtain ⟨hmono, hall, hstored⟩ := hnext
  have hdone : ∀ e ∈ repo.events.values, e.runId = runId → e.cursor ≤ next := by
    intro e he hr
    by_cases hc : cursor < e.cursor
    · exact hall e (List.mem_filter.mpr ⟨he, by simp [isPast, hr, hc]⟩)
    · omega
  refine ⟨⟨h.ordered, Nat.le_trans hle hmono, ?_, ?_⟩, ?_⟩
  · rcases hstored with heq | hlt
    · rw [heq]
      exact h.stored
    · exact .inr hlt
  · have hevents : events = repo.events.values.filter fun e => isPast runId start e && cursor < e.cursor := by
      apply List.filter_congr
      intro e _
      simp only [isPast, Bool.and_assoc]
      by_cases hc : cursor < e.cursor
      · have : start < e.cursor := by omega
        simp [hc, this]
      · simp [hc]
    rw [h.sent, hevents, filter_split hincreasing (isPast runId start) cursor]
    apply List.filter_congr
    intro e he
    by_cases hp : isPast runId start e = true
    · have hr : e.runId = runId := by
        simp only [isPast, Bool.and_eq_true, decide_eq_true_eq] at hp
        exact hp.1
      simp [hdone e he hr]
    · simp [hp]
  · rw [List.filter_eq_nil_iff]
    intro e he hp
    simp only [isPast, Bool.and_eq_true, decide_eq_true_eq] at hp
    have := hdone e he hp.1
    omega

end Follows

/-! ## Appending -/

namespace RunRepository

variable {repo repo' : RunRepository}

/-- The record `append_event` makes of an event. -/
def storedAs (cursor : Nat) (event : EventEnvelope) : EventRecord :=
  ⟨cursor, event.eventId, event.runId, event.attemptId, event.engine, event.seq, event.occurredAt, event.type,
    event.payload⟩

/-- The event names a stored attempt, that attempt's run and that run's engine. -/
def Identified (repo : RunRepository) (runId attemptId : UUID) (engine : Engine) : Prop :=
  (∃ attempt, repo.attempts.get? attemptId = some attempt ∧ attempt.runId = runId) ∧
    ∃ run, repo.runs.get? runId = some run ∧ run.engine = engine

theorem appendEvent_ok_iff {event : EventEnvelope} {record : EventRecord} :
    repo.appendEvent event = .ok (record, repo') ↔
      Identified repo event.runId event.attemptId event.engine ∧
      (repo.events.get? event.eventId = some record ∧ eventMatches record event = true ∧ repo' = repo ∨
        repo.events.get? event.eventId = none ∧ repo.eventSequences.get? (event.attemptId, event.seq) = none ∧
        record = storedAs repo.nextCursor event ∧ repo' = { repo with
          nextCursor := repo.nextCursor + 1
          events := repo.events.set event.eventId record
          eventSequences := repo.eventSequences.set (event.attemptId, event.seq) event.eventId }) := by
  simp only [appendEvent, bind_eq_ok_iff, error_bind, ite_error_eq_ok_iff, getAttemptLocked_ok_iff, getLocked_ok_iff,
    ne_eq, not_not]
  constructor
  · rintro ⟨attempt, hattempt, hrunId, run, hrun, hengine, h⟩
    refine ⟨⟨⟨attempt, hattempt, hrunId⟩, run, hrun, hengine⟩, ?_⟩
    split at h
    · next existing hfound =>
      split at h
      · next hmatch =>
        simp only [pure_eq_ok_iff, Prod.mk.injEq] at h
        obtain ⟨rfl, rfl⟩ := h
        exact .inl ⟨hfound, hmatch, rfl⟩
      · cases h
    · next hnew =>
      simp only [ite_error_eq_ok_iff, pure_eq_ok_iff, Prod.mk.injEq] at h
      obtain ⟨hfree, rfl, rfl⟩ := h
      exact .inr ⟨hnew, by simpa using hfree, rfl, rfl⟩
  · rintro ⟨⟨⟨attempt, hattempt, hrunId⟩, run, hrun, hengine⟩, h⟩
    refine ⟨attempt, hattempt, hrunId, run, hrun, hengine, ?_⟩
    rcases h with ⟨hfound, hmatch, rfl⟩ | ⟨hnew, hfree, rfl, rfl⟩
    · simp [hfound, hmatch, pure, Except.pure]
    · simp [hnew, hfree, storedAs, pure, Except.pure]

/-- Only `append_event` writes the log. -/
theorem log_of_act (repo : RunRepository) (a : RepoAct) (ha : ∀ event, a ≠ .appendEvent event) :
    (repo.act fingerprint a).events = repo.events ∧
      (repo.act fingerprint a).eventSequences = repo.eventSequences := by
  have hafter : ∀ {α : Type} (x : Except Exn (α × RunRepository)),
      (∀ answer repo', x = .ok (answer, repo') →
        repo'.events = repo.events ∧ repo'.eventSequences = repo.eventSequences) →
      (after repo x).events = repo.events ∧ (after repo x).eventSequences = repo.eventSequences := by
    intro α x h
    rcases after_cases repo x with heq | ⟨answer, heq⟩
    · rw [heq]
      exact ⟨rfl, rfl⟩
    · exact h answer _ heq
  cases a with
  | createOrGet newId now engine parameters key =>
    simp only [act]
    split
    · exact ⟨rfl, rfl⟩
    · apply hafter
      intro answer repo' h
      rcases createOrGet_ok h with ⟨rfl, -⟩ | ⟨idempotency, -, rfl⟩ <;> exact ⟨rfl, rfl⟩
  | transition runId target =>
    apply hafter
    intro answer repo' h
    obtain ⟨_, -, -, -, rfl⟩ := transition_ok h
    exact ⟨rfl, rfl⟩
  | cancel runId =>
    apply hafter
    intro answer repo' h
    obtain ⟨_, -, -, ⟨-, rfl⟩ | ⟨-, rfl⟩⟩ := cancel_ok h <;> exact ⟨rfl, rfl⟩
  | createAttempt runId attemptId newId now =>
    apply hafter
    intro answer repo' h
    obtain ⟨_, -, -, -, rfl⟩ := createAttempt_ok h
    exact ⟨rfl, rfl⟩
  | beginAttempt runId attemptId runnerId leaseSeconds now =>
    apply hafter
    intro answer repo' h
    obtain ⟨_, _, -, -, -, -, -, -, -, -, rfl⟩ := beginAttempt_ok h
    exact ⟨rfl, rfl⟩
  | claimAttempt attemptId runnerId leaseSeconds now =>
    apply hafter
    intro answer repo' h
    obtain ⟨_, -, -, rfl⟩ := claimAttempt_ok h
    exact ⟨rfl, rfl⟩
  | transitionAttempt attemptId target =>
    apply hafter
    intro answer repo' h
    obtain ⟨_, -, -, -, rfl⟩ := transitionAttempt_ok h
    exact ⟨rfl, rfl⟩
  | renewAttemptLease attemptId runnerId leaseSeconds now =>
    apply hafter
    intro answer repo' h
    obtain ⟨_, -, -, -, -, -, rfl⟩ := renewAttemptLease_ok h
    exact ⟨rfl, rfl⟩
  | completeAttempt attemptId target result =>
    apply hafter
    intro answer repo' h
    obtain ⟨_, -, -, -, -, rfl⟩ := completeAttempt_ok h
    exact ⟨rfl, rfl⟩
  | expireAttemptLeases cutoff =>
    have hsteps := expireAttemptLeases_steps repo cutoff
    simp only [act]
    generalize (repo.expireAttemptLeases cutoff).2 = last at hsteps
    induction hsteps with
    | refl => exact ⟨rfl, rfl⟩
    | tail _ hlast ih =>
      obtain ⟨attemptId, attempt, -, hexp, rfl⟩ := hlast
      obtain ⟨updated, -, ⟨heq, -⟩ | ⟨run, -, -, heq⟩⟩ := expireAttempt_cases _ cutoff attemptId hexp
      · rw [heq]
        exact ih
      · rw [heq]
        exact ih
  | appendEvent event => exact absurd rfl (ha event)

/-! ## The index of the log -/

/-- Every record is filed under its event id, and its sequence number is taken by it. -/
structure LogIndexed (repo : RunRepository) : Prop where
  id : ∀ eventId record, repo.events.get? eventId = some record → record.eventId = eventId
  sequence : ∀ eventId record, repo.events.get? eventId = some record →
    repo.eventSequences.get? (record.attemptId, record.seq) = some eventId

theorem logIndexed_empty : LogIndexed empty := by
  constructor <;> simp [empty]

theorem LogIndexed.act (h : LogIndexed repo) (a : RepoAct) : LogIndexed (repo.act fingerprint a) := by
  by_cases ha : ∃ event, a = .appendEvent event
  · obtain ⟨event, rfl⟩ := ha
    simp only [RunRepository.act]
    rcases after_cases repo (repo.appendEvent event) with heq | ⟨record, heq⟩
    · rw [heq]
      exact h
    · generalize after repo (repo.appendEvent event) = repo' at heq
      obtain ⟨-, ⟨-, -, rfl⟩ | ⟨hnew, hfree, rfl, rfl⟩⟩ := appendEvent_ok_iff.mp heq
      · exact h
      · constructor
        · intro eventId record hget
          rw [Dict.get?_set] at hget
          split at hget
          · next hid =>
            cases hget
            exact hid.symm
          · exact h.id eventId record hget
        · intro eventId record hget
          rw [Dict.get?_set] at hget
          split at hget
          · next hid =>
            cases hget
            rw [hid]
            exact Dict.get?_set_self _ _ _
          · have hold := h.sequence eventId record hget
            rw [Dict.get?_set_ne]
            · exact hold
            · intro hkey
              rw [hkey, hfree] at hold
              cases hold
  · simp only [not_exists] at ha
    obtain ⟨hevents, hsequences⟩ := @log_of_act fingerprint repo a ha
    exact ⟨hevents ▸ h.id, hevents ▸ hsequences ▸ h.sequence⟩

theorem Identified.act {runId attemptId : UUID} {engine : Engine} (hf : Filed repo) (a : RepoAct)
    (h : Identified repo runId attemptId engine) : Identified (repo.act fingerprint a) runId attemptId engine := by
  obtain ⟨⟨attempt, hattempt, hrunId⟩, run, hrun, hengine⟩ := h
  obtain ⟨attempt', hattempt', htouched⟩ := @touched_of_act fingerprint repo a attemptId attempt hattempt
  obtain ⟨run', hrun', hengine'⟩ := @run_of_act fingerprint repo a hf runId run hrun
  exact ⟨⟨attempt', hattempt', htouched.sameIdentity.runId.trans hrunId⟩, run', hrun', hengine'.trans hengine⟩

/-- A stored record stays. -/
theorem event_of_act {eventId : UUID} {record : EventRecord} (a : RepoAct)
    (h : repo.events.get? eventId = some record) : (repo.act fingerprint a).events.get? eventId = some record := by
  by_cases ha : ∃ event, a = .appendEvent event
  · obtain ⟨event, rfl⟩ := ha
    simp only [RunRepository.act]
    rcases after_cases repo (repo.appendEvent event) with heq | ⟨answer, heq⟩
    · rw [heq]
      exact h
    · generalize after repo (repo.appendEvent event) = repo' at heq
      obtain ⟨-, ⟨-, -, rfl⟩ | ⟨hnew, -, rfl, rfl⟩⟩ := appendEvent_ok_iff.mp heq
      · exact h
      · rw [Dict.get?_set_ne]
        · exact h
        · rintro rfl
          rw [hnew] at h
          cases h
  · simp only [not_exists] at ha
    rw [(@log_of_act fingerprint repo a ha).1]
    exact h

/-! ## Replays -/

/-- A Python mapping names a key once, at every depth of the payload. -/
def PayloadKeys (event : EventEnvelope) : Prop := Json.WellFormedFields (fun _ => True) event.payload.entries

theorem eventMatches_storedAs {event : EventEnvelope} (cursor : Nat) (h : PayloadKeys event) :
    eventMatches (storedAs cursor event) event = true := by
  have hpayload : Json.pyEq (.obj event.payload.entries) (.obj event.payload.entries) = true :=
    Json.pyEq_refl _ ⟨event.payload.nodup, h⟩
  simp [eventMatches, storedAs, hpayload]

/-- What an accepted event leaves for its replay to find. -/
structure Accepted (event : EventEnvelope) (record : EventRecord) (repo : RunRepository) : Prop where
  filed : Filed repo
  identified : Identified repo event.runId event.attemptId event.engine
  stored : repo.events.get? event.eventId = some record
  matching : eventMatches record event = true

theorem Accepted.of_append {event : EventEnvelope} {record : EventRecord} (hf : Filed repo)
    (hkeys : PayloadKeys event) (h : repo.appendEvent event = .ok (record, repo')) : Accepted event record repo' := by
  obtain ⟨hid, ⟨hfound, hmatch, rfl⟩ | ⟨hnew, -, rfl, rfl⟩⟩ := appendEvent_ok_iff.mp h
  · exact ⟨hf, hid, hfound, hmatch⟩
  · exact ⟨hf, hid, Dict.get?_set_self _ _ _, eventMatches_storedAs _ hkeys⟩

theorem Accepted.act {event : EventEnvelope} {record : EventRecord} (a : RepoAct) (h : Accepted event record repo) :
    Accepted event record (repo.act fingerprint a) :=
  ⟨(@act_induct fingerprint (fun _ => True) (fun _ _ _ _ _ => trivial) repo a h.filed trivial).1,
    h.identified.act h.filed a, event_of_act a h.stored, h.matching⟩

theorem Accepted.replay {event : EventEnvelope} {record : EventRecord} (h : Accepted event record repo) :
    repo.appendEvent event = .ok (record, repo) :=
  appendEvent_ok_iff.mpr ⟨h.identified, .inl ⟨h.stored, h.matching, rfl⟩⟩

end RunRepository

end SmartTest.Run
