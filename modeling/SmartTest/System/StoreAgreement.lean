import SmartTest.System.SqlStore

/-!
# The stores of events and artifacts agree

As long as no call meets what the two stores look at differently, they answer alike and list
the same events and artifacts.
-/

open SmartTest.Lib SmartTest.Run

namespace SmartTest.System

/-! ## What a call must not meet -/

def EventModel.of (record : EventRecord) : EventModel :=
  ⟨record.cursor, record.eventId, record.runId, record.attemptId, record.engine, record.seq, record.occurredAt,
    record.type, record.payload⟩

/-- The event is refused for its sequence number only. -/
def TakesNumber (directory : Directory) (w : ArtifactWorld) : StoreCall → Prop
  | .appendEvent event => w.runs.events.get? event.eventId = none ∧
    (w.at directory).runs.Identified event.runId event.attemptId event.engine ∧
    (w.runs.eventSequences.get? (event.attemptId, event.seq)).isSome = true
  | .createArtifact _ => False

/-- A new row fits its columns and gets the cursor that is next in memory, and an artifact that is created again
does not differ in its time alone. -/
def Meets (db : Database) (directory : Directory) (w : ArtifactWorld) (skipped : Prop) : StoreCall → Prop
  | .appendEvent event => ∀ record runs, w.runs.events.get? event.eventId = none →
    (w.at directory).runs.appendEvent event = .ok (record, runs) →
    ¬ skipped ∧ db.holdsEvent (.of record) = true
  | .createArtifact record =>
    (∀ existing, w.artifacts.get? record.id = some existing →
      { record with createdAt := existing.createdAt } = existing → record.createdAt = existing.createdAt) ∧
    ∀ stored w', w.artifacts.get? record.id = none → (w.at directory).createArtifact record = .ok (stored, w') →
      db.holdsArtifact (.of record) = true

/-- Every call of a sequence meets this, where `skipped` says whether the counter has lost a number before. -/
def AllMeet (db : Database) : ArtifactWorld → Prop → List (Directory × StoreCall) → Prop
  | _, _, [] => True
  | w, skipped, (directory, next) :: rest => Meets db directory w skipped next ∧
    AllMeet db (w.call directory next).2 (skipped ∨ db.skips = true ∧ TakesNumber directory w next) rest

/-! ## Runs and attempts over time -/

/-- Runs and attempts stay, an attempt with its run and a run with its engine. -/
structure Directory.Extends (directory later : Directory) : Prop where
  attempts : ∀ id attempt, directory.attempts.get? id = some attempt →
    ∃ attempt', later.attempts.get? id = some attempt' ∧ attempt'.runId = attempt.runId
  runs : ∀ id run, directory.runs.get? id = some run → ∃ run', later.runs.get? id = some run' ∧ run'.engine = run.engine

/-- Every call sees what the call before it saw, and maybe more. -/
def Evolves : Directory → List (Directory × StoreCall) → Prop
  | _, [] => True
  | directory, (later, _) :: rest => directory.Extends later ∧ Evolves later rest

/-- The run of the artifact is there, and its attempt belongs to it. -/
def Directory.Knows (directory : Directory) (record : ArtifactRecord) : Prop :=
  (directory.runs.get? record.runId).isSome = true ∧
    ∃ attempt, directory.attempts.get? record.attemptId = some attempt ∧ attempt.runId = record.runId

/-! ## The relation of the stores -/

structure Alike (directory : Directory) (w : ArtifactWorld) (store : SqlStore) (drift : Nat) : Prop where
  events : store.events.map EventModel.toRecord = w.runs.events.values
  artifacts : store.artifacts.map ArtifactModel.toRecord = w.artifacts.values
  cursor : store.nextCursor = w.runs.nextCursor + drift
  indexed : w.runs.LogIndexed
  taken : ∀ key, (w.runs.eventSequences.get? key).isSome = true →
    ∃ record ∈ w.runs.events.values, (record.attemptId, record.seq) = key
  keyed : ∀ id record, w.artifacts.get? id = some record → record.id = id
  identified : ∀ record ∈ w.runs.events.values,
    (w.at directory).runs.Identified record.runId record.attemptId record.engine
  known : ∀ record ∈ w.artifacts.values, directory.Knows record

section Step

variable {db : Database} {directory : Directory} {w : ArtifactWorld} {store : SqlStore} {drift : Nat}

theorem Alike.later (h : Alike directory w store drift) {later : Directory} (hext : directory.Extends later) :
    Alike later w store drift where
  events := h.events
  artifacts := h.artifacts
  cursor := h.cursor
  indexed := h.indexed
  taken := h.taken
  keyed := h.keyed
  identified := by
    intro record hmem
    obtain ⟨⟨attempt, hattempt, hrun⟩, run, hfound, hengine⟩ := h.identified record hmem
    obtain ⟨attempt', hattempt', hsame⟩ := hext.attempts _ _ hattempt
    obtain ⟨run', hfound', hsame'⟩ := hext.runs _ _ hfound
    exact ⟨⟨attempt', hattempt', hsame.trans hrun⟩, run', hfound', hsame'.trans hengine⟩
  known := by
    intro record hmem
    obtain ⟨hrun, attempt, hattempt, hsame⟩ := h.known record hmem
    obtain ⟨run, hfound⟩ := Option.isSome_iff_exists.mp hrun
    obtain ⟨run', hfound', -⟩ := hext.runs _ _ hfound
    obtain ⟨attempt', hattempt', hsame'⟩ := hext.attempts _ _ hattempt
    exact ⟨by rw [hfound']; rfl, attempt', hattempt', hsame'.trans hsame⟩

/-- Looking up a row by its id is looking up the record. -/
theorem find?_map_toRecord {α β κ : Type} [DecidableEq κ] {rows : List α} {toRecord : α → β} {rowKey : α → κ}
    (key : β → κ) (hkey : ∀ row, key (toRecord row) = rowKey row) {d : Dict κ β}
    (hrows : rows.map toRecord = d.values) (hkeyed : ∀ k b, d.get? k = some b → key b = k) (k : κ) :
    (rows.find? (rowKey · = k)).map toRecord = d.get? k := by
  cases hfind : rows.find? (rowKey · = k) with
  | some row =>
    have hmem : toRecord row ∈ d.values := hrows ▸ List.mem_map_of_mem (List.mem_of_find?_eq_some hfind)
    obtain ⟨k', hget⟩ := (d.mem_values_iff _).mp hmem
    have hrow : rowKey row = k := by
      have hchosen := List.find?_some hfind
      exact of_decide_eq_true hchosen
    rw [Option.map_some, ← hget, ← hkeyed _ _ hget, hkey, hrow]
  | none =>
    cases hget : d.get? k with
    | none => rfl
    | some b =>
      have hmem : b ∈ rows.map toRecord := hrows ▸ (d.mem_values_iff b).mpr ⟨k, hget⟩
      obtain ⟨row, hrow, rfl⟩ := List.mem_map.mp hmem
      have hnone := List.find?_eq_none.mp hfind row hrow
      rw [decide_eq_true_iff, ← hkey] at hnone
      exact absurd (hkeyed _ _ hget) hnone

theorem Alike.getEventById (h : Alike directory w store drift) (eventId : UUID) :
    (store.getEventById eventId).map EventModel.toRecord = w.runs.events.get? eventId :=
  find?_map_toRecord EventRecord.eventId (fun _ => rfl) h.events (fun _ _ => h.indexed.id _ _) eventId

theorem Alike.findArtifact (h : Alike directory w store drift) (id : UUID) :
    (store.artifacts.find? (·.id = id)).map ArtifactModel.toRecord = w.artifacts.get? id :=
  find?_map_toRecord ArtifactRecord.id (fun _ => rfl) h.artifacts h.keyed id

/-- For a new event the constraints of the table are the index of the sequence numbers. -/
theorem Alike.eventTaken_iff (h : Alike directory w store drift) {event : EventEnvelope}
    (hnew : w.runs.events.get? event.eventId = none) :
    store.eventTaken event = true ↔ (w.runs.eventSequences.get? (event.attemptId, event.seq)).isSome = true := by
  unfold SqlStore.eventTaken
  rw [List.any_eq_true]
  constructor
  · rintro ⟨row, hmem, hsame⟩
    have hrecord : row.toRecord ∈ w.runs.events.values := h.events ▸ List.mem_map_of_mem hmem
    obtain ⟨eventId, hget⟩ := (w.runs.events.mem_values_iff _).mp hrecord
    have hid : row.eventId = eventId := h.indexed.id _ _ hget
    simp only [Bool.or_eq_true, Bool.and_eq_true, decide_eq_true_eq] at hsame
    rcases hsame with hsame | ⟨hattempt, hseq⟩
    · rw [← hid, hsame, hnew] at hget
      cases hget
    · have hsequence := h.indexed.sequence _ _ hget
      change w.runs.eventSequences.get? (row.attemptId, row.seq) = some eventId at hsequence
      rw [← hattempt, ← hseq, hsequence]
      rfl
  · intro hsome
    obtain ⟨record, hmem, hkey⟩ := h.taken _ hsome
    rw [← h.events] at hmem
    obtain ⟨row, hrow, rfl⟩ := List.mem_map.mp hmem
    refine ⟨row, hrow, ?_⟩
    obtain ⟨hattempt, hseq⟩ := Prod.mk.inj hkey
    change row.attemptId = event.attemptId at hattempt
    change row.seq = event.seq at hseq
    simp [hattempt, hseq]

theorem Alike.at (h : Alike directory w store drift) : Alike directory (w.at directory) store drift :=
  ⟨h.events, h.artifacts, h.cursor, ⟨h.indexed.id, h.indexed.sequence⟩, h.taken, h.keyed, h.identified, h.known⟩

/-- A call has the same answer from both stores exactly when it meets nothing they look at differently, and then
they stay alike. -/
structure CallAlike (db : Database) (directory : Directory) (w : ArtifactWorld) (store : SqlStore) (skipped : Prop)
    (next : StoreCall) : Prop where
  answer : (store.call db directory next).1 = (w.call directory next).1 ↔ Meets db directory w skipped next
  alike : Meets db directory w skipped next → ∃ drift,
    (skipped ∨ db.skips = true ∧ TakesNumber directory w next ↔ 0 < drift) ∧
      Alike directory (w.call directory next).2 (store.call db directory next).2 drift

/-! ## Events -/

theorem sqlAppend_known {event : EventEnvelope} {row : EventModel} (hfound : store.getEventById event.eventId = some row) :
    store.call db directory (.appendEvent event) = (eventAnswer (SqlStore.resolveEvent row event), store) := by
  unfold SqlStore.call SqlStore.appendEvent
  simp only [hfound]

theorem sqlAppend_unidentified {event : EventEnvelope} (hnone : store.getEventById event.eventId = none)
    (hnot : ¬ (w.at directory).runs.Identified event.runId event.attemptId event.engine) :
    store.call db directory (.appendEvent event) = (.failed, store) := by
  unfold SqlStore.call SqlStore.appendEvent
  simp only [hnone]
  cases hattempt : directory.attempts.get? event.attemptId with
  | none => rfl
  | some attempt =>
    by_cases hrun : attempt.runId = event.runId
    · simp only [if_neg (not_not.mpr hrun)]
      cases hfound : directory.runs.get? event.runId with
      | none => rfl
      | some run =>
        by_cases hengine : run.engine = event.engine
        · exact absurd ⟨⟨attempt, hattempt, hrun⟩, run, hfound, hengine⟩ hnot
        · simp only [if_pos hengine]
          rfl
    · simp only [if_pos hrun]
      rfl

/-- A new event that is identified comes to the insert. -/
theorem sqlAppend_new {event : EventEnvelope} (hnone : store.getEventById event.eventId = none)
    (hid : (w.at directory).runs.Identified event.runId event.attemptId event.engine) :
    store.call db directory (.appendEvent event) =
      if store.eventTaken event then
        (.failed, if db.skips then { store with nextCursor := store.nextCursor + 1 } else store)
      else if !db.holdsEvent (store.eventModel event) then (.failed, store)
      else (.event (store.eventModel event).toRecord,
        { store with events := store.events ++ [store.eventModel event], nextCursor := store.nextCursor + 1 }) := by
  obtain ⟨⟨attempt, hattempt, hrun⟩, run, hfound, hengine⟩ := hid
  change directory.attempts.get? event.attemptId = some attempt at hattempt
  change directory.runs.get? event.runId = some run at hfound
  have hafter : ({ store with nextCursor := store.nextCursor + 1 } : SqlStore).getEventById event.eventId = none := hnone
  unfold SqlStore.call SqlStore.appendEvent SqlStore.afterConflict
  simp only [hnone, hattempt, hfound]
  rw [if_neg (not_not.mpr hrun), if_neg (not_not.mpr hengine)]
  split_ifs with htaken hskips hholds
  · simp only [hafter]
    rfl
  · simp only [hnone]
    rfl
  · rfl
  · rfl

theorem memoryAppend_failed {event : EventEnvelope}
    (h : ∀ record runs, (w.at directory).runs.appendEvent event ≠ .ok (record, runs)) :
    w.call directory (.appendEvent event) = (.failed, w.at directory) := by
  unfold ArtifactWorld.call
  cases happend : (w.at directory).runs.appendEvent event with
  | ok p => exact absurd happend (h p.1 p.2)
  | error e => simp only [happend]

theorem memoryAppend_ok {event : EventEnvelope} {record : EventRecord} {runs : RunRepository}
    (h : (w.at directory).runs.appendEvent event = .ok (record, runs)) :
    w.call directory (.appendEvent event) = (.event record, { w with runs := runs }) := by
  unfold ArtifactWorld.call
  simp only [h]

/-- An event that is known already is looked at alike. -/
theorem Alike.appendKnown (h : Alike directory w store drift) {skipped : Prop} (hdrift : skipped ↔ 0 < drift)
    {event : EventEnvelope} {existing : EventRecord} (hget : w.runs.events.get? event.eventId = some existing) :
    CallAlike db directory w store skipped (.appendEvent event) := by
  have hrow := h.getEventById event.eventId
  rw [hget, Option.map_eq_some_iff] at hrow
  obtain ⟨row, hrow, rfl⟩ := hrow
  have hmeets : Meets db directory w skipped (.appendEvent event) := by
    intro record runs hnone
    rw [hget] at hnone
    cases hnone
  have hcalls : (store.call db directory (.appendEvent event)).1 = (w.call directory (.appendEvent event)).1 ∧
      (w.call directory (.appendEvent event)).2 = w.at directory := by
    rw [sqlAppend_known hrow]
    unfold SqlStore.resolveEvent
    by_cases hmatches : RunRepository.eventMatches row.toRecord event = true
    · -- What matches names the attempt, run and engine that were checked before.
      have hidentified := h.identified _ ((w.runs.events.mem_values_iff _).mpr ⟨_, hget⟩)
      have hsame : row.toRecord.runId = event.runId ∧ row.toRecord.attemptId = event.attemptId ∧
          row.toRecord.engine = event.engine := by
        unfold RunRepository.eventMatches at hmatches
        simp only [Bool.and_eq_true, decide_eq_true_eq] at hmatches
        exact ⟨hmatches.1.1.1.1.1.1, hmatches.1.1.1.1.1.2, hmatches.1.1.1.1.2⟩
      rw [hsame.1, hsame.2.1, hsame.2.2] at hidentified
      have hok := RunRepository.appendEvent_ok_iff.mpr ⟨hidentified, .inl ⟨hget, hmatches, rfl⟩⟩
      rw [memoryAppend_ok hok, if_pos hmatches]
      exact ⟨rfl, rfl⟩
    · rw [memoryAppend_failed, if_neg hmatches]
      · exact ⟨rfl, rfl⟩
      · intro record runs hok
        rcases (RunRepository.appendEvent_ok_iff.mp hok).2 with ⟨hfound, hmatch, -⟩ | ⟨hnone, -⟩
        · change w.runs.events.get? event.eventId = some record at hfound
          rw [hget, Option.some.injEq] at hfound
          rw [← hfound] at hmatch
          exact hmatches hmatch
        · change w.runs.events.get? event.eventId = none at hnone
          rw [hget] at hnone
          cases hnone
  refine ⟨iff_of_true hcalls.1 hmeets, fun _ => ⟨drift, ?_, ?_⟩⟩
  · rw [← hdrift]
    constructor
    · rintro (hskipped | ⟨-, hnone, -⟩)
      · exact hskipped
      · rw [hget] at hnone
        cases hnone
    · exact .inl
  · rw [hcalls.2, sqlAppend_known hrow]
    exact h.at

/-- A new event at the end of both logs. -/
theorem Alike.appended (h : Alike directory w store 0) {event : EventEnvelope}
    (hget : w.runs.events.get? event.eventId = none)
    (hid : (w.at directory).runs.Identified event.runId event.attemptId event.engine)
    (hfree : w.runs.eventSequences.get? (event.attemptId, event.seq) = none) :
    Alike directory { w with runs := { (w.at directory).runs with
        nextCursor := w.runs.nextCursor + 1
        events := w.runs.events.set event.eventId (RunRepository.storedAs w.runs.nextCursor event)
        eventSequences := w.runs.eventSequences.set (event.attemptId, event.seq) event.eventId } }
      { store with events := store.events ++ [store.eventModel event], nextCursor := store.nextCursor + 1 } 0 := by
  have hcursor : store.nextCursor = w.runs.nextCursor := h.cursor
  have hvalues := Dict.values_set_new w.runs.events event.eventId (RunRepository.storedAs w.runs.nextCursor event) hget
  have hrow : (store.eventModel event).toRecord = RunRepository.storedAs w.runs.nextCursor event := by
    unfold SqlStore.eventModel
    rw [hcursor]
    rfl
  constructor
  · rw [List.map_append, h.events, hvalues, List.map_singleton, hrow]
  · exact h.artifacts
  · exact congrArg (· + 1) hcursor
  · constructor
    · intro eventId record hrecord
      rw [Dict.get?_set] at hrecord
      split at hrecord
      · next hsame =>
        cases hrecord
        exact hsame.symm
      · exact h.indexed.id _ _ hrecord
    · intro eventId record hrecord
      rw [Dict.get?_set] at hrecord ⊢
      split at hrecord
      · next hsame =>
        cases hrecord
        rw [hsame]
        exact if_pos rfl
      · have hold := h.indexed.sequence _ _ hrecord
        rw [if_neg]
        · exact hold
        · intro hkey
          rw [hkey, hfree] at hold
          cases hold
  · intro key hsome
    rw [hvalues]
    rw [Dict.get?_set] at hsome
    split at hsome
    · next hkey => exact ⟨_, List.mem_append_right _ (List.mem_singleton_self _), hkey.symm⟩
    · obtain ⟨record, hmem, hkey⟩ := h.taken key hsome
      exact ⟨record, List.mem_append_left _ hmem, hkey⟩
  · exact h.keyed
  · intro record hmem
    rw [hvalues] at hmem
    rcases List.mem_append.mp hmem with hmem | hmem
    · exact h.identified record hmem
    · rw [List.mem_singleton.mp hmem]
      exact hid
  · exact h.known

theorem Alike.appendNew (h : Alike directory w store drift) {skipped : Prop} (hdrift : skipped ↔ 0 < drift)
    {event : EventEnvelope} (hget : w.runs.events.get? event.eventId = none) :
    CallAlike db directory w store skipped (.appendEvent event) := by
  have hnone : store.getEventById event.eventId = none := by
    have hrow := h.getEventById event.eventId
    rw [hget, Option.map_eq_none_iff] at hrow
    exact hrow
  by_cases hid : (w.at directory).runs.Identified event.runId event.attemptId event.engine
  · cases hfree : w.runs.eventSequences.get? (event.attemptId, event.seq) with
    | some other =>
      -- The number is taken: both refuse, and the counter may lose a number.
      have hno : ∀ record runs, (w.at directory).runs.appendEvent event ≠ .ok (record, runs) := by
        intro record runs hok
        rcases (RunRepository.appendEvent_ok_iff.mp hok).2 with ⟨hfound, -⟩ | ⟨-, hnone', -⟩
        · change w.runs.events.get? event.eventId = some record at hfound
          rw [hget] at hfound
          cases hfound
        · change w.runs.eventSequences.get? (event.attemptId, event.seq) = none at hnone'
          rw [hfree] at hnone'
          cases hnone'
      have htaken : store.eventTaken event = true := (h.eventTaken_iff hget).mpr (by rw [hfree]; rfl)
      have hmeets : Meets db directory w skipped (.appendEvent event) := fun record runs _ hok => absurd hok (hno record runs)
      have hsql : store.call db directory (.appendEvent event) =
          (.failed, if db.skips then { store with nextCursor := store.nextCursor + 1 } else store) := by
        rw [sqlAppend_new hnone hid, if_pos htaken]
      have hmemory := memoryAppend_failed hno
      have htakes : TakesNumber directory w (.appendEvent event) := ⟨hget, hid, by rw [hfree]; rfl⟩
      refine ⟨iff_of_true (by rw [hmemory, hsql]) hmeets, fun _ => ?_⟩
      rw [hmemory, hsql]
      by_cases hskips : db.skips = true
      · refine ⟨drift + 1, iff_of_true (.inr ⟨hskips, htakes⟩) (Nat.succ_pos drift), ?_⟩
        rw [if_pos hskips]
        have hat := h.at
        exact ⟨hat.events, hat.artifacts, congrArg (· + 1) hat.cursor, hat.indexed, hat.taken, hat.keyed, hat.identified,
          hat.known⟩
      · refine ⟨drift, ?_, ?_⟩
        · rw [← hdrift]
          exact ⟨fun hor => hor.elim id fun hboth => absurd hboth.1 hskips, .inl⟩
        · rw [if_neg hskips]
          exact h.at
    | none =>
      have hok := RunRepository.appendEvent_ok_iff.mpr ⟨hid, .inr ⟨hget, hfree, rfl, rfl⟩⟩
      have hmemory := memoryAppend_ok hok
      have hfresh : ¬ store.eventTaken event = true := by
        rw [h.eventTaken_iff hget, hfree]
        decide
      have hsql : store.call db directory (.appendEvent event) =
          if !db.holdsEvent (store.eventModel event) then (.failed, store)
          else (.event (store.eventModel event).toRecord,
            { store with events := store.events ++ [store.eventModel event], nextCursor := store.nextCursor + 1 }) := by
        rw [sqlAppend_new hnone hid, if_neg hfresh]
      have hmeets : Meets db directory w skipped (.appendEvent event) ↔
          ¬ skipped ∧ db.holdsEvent (.of (RunRepository.storedAs w.runs.nextCursor event)) = true := by
        constructor
        · exact fun hmeets => hmeets _ _ hget hok
        · intro hboth record runs _ hok'
          rw [hok, Except.ok.injEq, Prod.mk.injEq] at hok'
          rw [← hok'.1]
          exact hboth
      have hmodel : drift = 0 → store.eventModel event = .of (RunRepository.storedAs w.runs.nextCursor event) := by
        intro hzero
        have hcursor := h.cursor
        rw [hzero, Nat.add_zero] at hcursor
        unfold SqlStore.eventModel
        rw [hcursor]
        rfl
      have hlate : ¬ skipped → drift = 0 := by
        rw [hdrift]
        omega
      constructor
      · rw [hmeets, hmemory, hsql]
        constructor
        · intro hanswer
          split at hanswer
          · cases hanswer
          · next hholds =>
            have hrecord := StoreAnswer.event.inj hanswer
            have hcursor : store.nextCursor = w.runs.nextCursor := congrArg EventRecord.cursor hrecord
            have hzero : drift = 0 := by
              have := h.cursor
              omega
            rw [hmodel hzero, Bool.not_eq_true', Bool.not_eq_false] at hholds
            refine ⟨?_, hholds⟩
            rw [hdrift]
            omega
        · rintro ⟨hskipped, hholds⟩
          rw [hmodel (hlate hskipped), if_neg (by rw [hholds]; decide)]
          rfl
      · intro hmeets'
        obtain ⟨hskipped, hholds⟩ := hmeets.mp hmeets'
        have hzero := hlate hskipped
        subst hzero
        have hafter := h.appended hget hid hfree
        refine ⟨0, ?_, ?_⟩
        · constructor
          · rintro (hskip | ⟨-, -, -, hsome⟩)
            · exact absurd hskip hskipped
            · rw [hfree] at hsome
              cases hsome
          · exact fun hpos => absurd hpos (Nat.lt_irrefl 0)
        · rw [hmemory, hsql, if_neg (by rw [hmodel rfl, hholds]; decide)]
          exact hafter
  · have hno : ∀ record runs, (w.at directory).runs.appendEvent event ≠ .ok (record, runs) :=
      fun record runs hok => hid (RunRepository.appendEvent_ok_iff.mp hok).1
    have hmemory := memoryAppend_failed hno
    have hsql : store.call db directory (.appendEvent event) = (.failed, store) := sqlAppend_unidentified hnone hid
    refine ⟨iff_of_true (by rw [hmemory, hsql]) fun record runs _ hok => absurd hok (hno record runs),
      fun _ => ⟨drift, ?_, by rw [hmemory, hsql]; exact h.at⟩⟩
    rw [← hdrift]
    exact ⟨fun hor => hor.elim id fun htakes => absurd htakes.2.2.1 hid, .inl⟩

theorem Alike.appendEvent (h : Alike directory w store drift) {skipped : Prop} (hdrift : skipped ↔ 0 < drift)
    (event : EventEnvelope) : CallAlike db directory w store skipped (.appendEvent event) := by
  cases hget : w.runs.events.get? event.eventId with
  | some existing => exact h.appendKnown hdrift hget
  | none => exact h.appendNew hdrift hget

/-! ## Artifacts -/

theorem createArtifact_ok_iff {record stored : ArtifactRecord} {w' : ArtifactWorld} :
    (w.at directory).createArtifact record = .ok (stored, w') ↔ directory.Knows record ∧ stored = record ∧
      (w.artifacts.get? record.id = some record ∧ w' = w.at directory ∨
        w.artifacts.get? record.id = none ∧ w' = { w.at directory with artifacts := w.artifacts.set record.id record }) := by
  simp only [ArtifactWorld.createArtifact, bind_eq_ok_iff, error_bind, ite_error_eq_ok_iff,
    RunRepository.getAttemptLocked_ok_iff, RunRepository.getLocked_ok_iff, ne_eq, not_not]
  constructor
  · rintro ⟨attempt, hattempt, howner, run, hrun, h⟩
    have hrun' : directory.runs.get? record.runId = some run := hrun
    refine ⟨⟨by rw [hrun']; rfl, attempt, hattempt, howner⟩, ?_⟩
    split at h
    · next existing hfound =>
      split at h
      · next hsame =>
        cases h
        exact ⟨hsame, .inl ⟨hsame ▸ hfound, rfl⟩⟩
      · cases h
    · next hnone =>
      cases h
      exact ⟨rfl, .inr ⟨hnone, rfl⟩⟩
  · rintro ⟨⟨hrun, attempt, hattempt, howner⟩, rfl, h⟩
    obtain ⟨run, hrun⟩ := Option.isSome_iff_exists.mp hrun
    refine ⟨attempt, hattempt, howner, run, hrun, ?_⟩
    rcases h with ⟨hfound, rfl⟩ | ⟨hnone, rfl⟩
    · have hfound' : (w.at directory).artifacts.get? stored.id = some stored := hfound
      simp [hfound', pure, Except.pure]
    · have hnone' : (w.at directory).artifacts.get? stored.id = none := hnone
      simp only [hnone']
      rfl

theorem resolveArtifact_ok_iff {row : ArtifactModel} {expected record : ArtifactRecord} :
    SqlStore.resolveArtifact row expected = .ok record ↔
      { expected with createdAt := row.createdAt } = row.toRecord ∧ row.toRecord = record := by
  unfold SqlStore.resolveArtifact
  simp only
  rw [ite_error_eq_ok_iff, Except.ok.injEq]
  apply and_congr_left
  intro _
  obtain ⟨_, _, _, _, _, _, _, _, _⟩ := expected
  obtain ⟨_, _, _, _, _, _, _, _, _⟩ := row
  simp only [ArtifactModel.toRecord, not_or, not_not, ArtifactRecord.mk.injEq, and_true]
  constructor
  · rintro ⟨rfl, rfl, rfl, rfl, rfl, rfl, rfl, rfl⟩
    exact ⟨rfl, rfl, rfl, rfl, rfl, rfl, rfl, rfl⟩
  · rintro ⟨rfl, rfl, rfl, rfl, rfl, rfl, rfl, rfl⟩
    exact ⟨rfl, rfl, rfl, rfl, rfl, rfl, rfl, rfl⟩

theorem memoryCreate_failed {record : ArtifactRecord}
    (h : ∀ stored w', (w.at directory).createArtifact record ≠ .ok (stored, w')) :
    w.call directory (.createArtifact record) = (.failed, w.at directory) := by
  unfold ArtifactWorld.call
  cases hcreate : (w.at directory).createArtifact record with
  | ok p => exact absurd hcreate (h p.1 p.2)
  | error e => simp only [hcreate]

theorem memoryCreate_ok {record stored : ArtifactRecord} {w' : ArtifactWorld}
    (h : (w.at directory).createArtifact record = .ok (stored, w')) :
    w.call directory (.createArtifact record) = (.artifact stored, w') := by
  unfold ArtifactWorld.call
  simp only [h]

theorem sqlCreate_known {record : ArtifactRecord} {row : ArtifactModel}
    (hfound : store.artifacts.find? (·.id = record.id) = some row) :
    store.call db directory (.createArtifact record) = (artifactAnswer (SqlStore.resolveArtifact row record), store) := by
  unfold SqlStore.call SqlStore.createArtifact
  simp only [hfound]

theorem sqlCreate_new {record : ArtifactRecord} (hnone : store.artifacts.find? (·.id = record.id) = none)
    (hknows : directory.Knows record) : store.call db directory (.createArtifact record) =
      if !db.holdsArtifact (.of record) then (.failed, store)
      else (.artifact record, { store with artifacts := store.artifacts ++ [.of record] }) := by
  obtain ⟨hrun, attempt, hattempt, howner⟩ := hknows
  have hnotNone : ¬ (directory.runs.get? record.runId).isNone = true := by
    obtain ⟨run, hrun⟩ := Option.isSome_iff_exists.mp hrun
    rw [hrun]
    exact Bool.false_ne_true
  unfold SqlStore.call SqlStore.createArtifact
  simp only [hnone, hattempt, if_neg (not_not.mpr howner), if_neg hnotNone]
  split
  · rfl
  · rfl

theorem sqlCreate_unknown {record : ArtifactRecord} (hnone : store.artifacts.find? (·.id = record.id) = none)
    (hnot : ¬ directory.Knows record) : store.call db directory (.createArtifact record) = (.failed, store) := by
  unfold SqlStore.call SqlStore.createArtifact
  simp only [hnone]
  cases hattempt : directory.attempts.get? record.attemptId with
  | none => rfl
  | some attempt =>
    by_cases howner : attempt.runId = record.runId
    · simp only [if_neg (not_not.mpr howner)]
      cases hrun : directory.runs.get? record.runId with
      | none => rfl
      | some run => exact absurd ⟨by rw [hrun]; rfl, attempt, hattempt, howner⟩ hnot
    · simp only [if_pos howner]
      rfl

theorem Alike.createArtifact (h : Alike directory w store drift) {skipped : Prop} (hdrift : skipped ↔ 0 < drift)
    (record : ArtifactRecord) : CallAlike db directory w store skipped (.createArtifact record) := by
  have hsame : skipped ∨ db.skips = true ∧ TakesNumber directory w (.createArtifact record) ↔ 0 < drift := by
    rw [← hdrift]
    exact ⟨fun hor => hor.elim id fun hboth => hboth.2.elim, .inl⟩
  have hrow := h.findArtifact record.id
  cases hget : w.artifacts.get? record.id with
  | some existing =>
    rw [hget, Option.map_eq_some_iff] at hrow
    obtain ⟨row, hrow, rfl⟩ := hrow
    have hknown := h.known row.toRecord ((w.artifacts.mem_values_iff _).mpr ⟨_, hget⟩)
    have hsecond : ∀ stored w', w.artifacts.get? record.id = none →
        (w.at directory).createArtifact record = .ok (stored, w') → db.holdsArtifact (.of record) = true := by
      intro stored w' hnone
      rw [hget] at hnone
      cases hnone
    by_cases hequal : row.toRecord = record
    · have hok := createArtifact_ok_iff.mpr ⟨hequal ▸ hknown, rfl, .inl ⟨hequal ▸ hget, rfl⟩⟩
      have hsql : SqlStore.resolveArtifact row record = .ok record :=
        resolveArtifact_ok_iff.mpr ⟨by rw [← hequal]; rfl, hequal⟩
      refine ⟨iff_of_true ?_ ⟨?_, hsecond⟩, fun _ => ⟨drift, hsame, ?_⟩⟩
      · rw [memoryCreate_ok hok, sqlCreate_known hrow, hsql]
        rfl
      · intro existing hexisting _
        rw [hget, hequal, Option.some.injEq] at hexisting
        rw [hexisting]
      · rw [memoryCreate_ok hok, sqlCreate_known hrow]
        exact h.at
    · have hno : ∀ stored w', (w.at directory).createArtifact record ≠ .ok (stored, w') := by
        intro stored w' hok
        rcases (createArtifact_ok_iff.mp hok).2.2 with ⟨hfound, -⟩ | ⟨hnone, -⟩
        · rw [hget, Option.some.injEq] at hfound
          exact hequal hfound
        · rw [hget] at hnone
          cases hnone
      have hmemory := memoryCreate_failed hno
      by_cases hfields : { record with createdAt := row.createdAt } = row.toRecord
      · -- Only the time differs: the table has the artifact, the memory refuses it.
        have hsql : SqlStore.resolveArtifact row record = .ok row.toRecord := resolveArtifact_ok_iff.mpr ⟨hfields, rfl⟩
        have hnot : ¬ Meets db directory w skipped (.createArtifact record) := by
          intro hmeets
          have htime : record.createdAt = row.createdAt := hmeets.1 _ hget hfields
          rw [← htime] at hfields
          exact hequal hfields.symm
        refine ⟨iff_of_false ?_ hnot, fun hmeets => absurd hmeets hnot⟩
        rw [hmemory, sqlCreate_known hrow, hsql]
        exact fun hanswer => by cases hanswer
      · have hsql : artifactAnswer (SqlStore.resolveArtifact row record) = .failed := by
          cases hresolve : SqlStore.resolveArtifact row record with
          | error e => rfl
          | ok stored => exact absurd (resolveArtifact_ok_iff.mp hresolve).1 hfields
        refine ⟨iff_of_true ?_ ⟨?_, hsecond⟩, fun _ => ⟨drift, hsame, ?_⟩⟩
        · rw [hmemory, sqlCreate_known hrow, hsql]
        · intro existing hexisting hfields'
          rw [hget, Option.some.injEq] at hexisting
          subst hexisting
          exact absurd hfields' hfields
        · rw [hmemory, sqlCreate_known hrow]
          exact h.at
  | none =>
    rw [hget, Option.map_eq_none_iff] at hrow
    by_cases hknows : directory.Knows record
    · have hok := createArtifact_ok_iff.mpr ⟨hknows, rfl, .inr ⟨hget, rfl⟩⟩
      have hmemory := memoryCreate_ok hok
      have hmeets : Meets db directory w skipped (.createArtifact record) ↔ db.holdsArtifact (.of record) = true := by
        constructor
        · exact fun hmeets => hmeets.2 _ _ hget hok
        · refine fun hholds => ⟨?_, fun _ _ _ _ => hholds⟩
          intro existing hexisting
          rw [hget] at hexisting
          cases hexisting
      constructor
      · rw [hmeets, hmemory, sqlCreate_new hrow hknows]
        constructor
        · intro hanswer
          split at hanswer
          · cases hanswer
          · next hholds => simpa using hholds
        · intro hholds
          rw [if_neg (by rw [hholds]; decide)]
      · intro hmeets'
        have hholds := hmeets.mp hmeets'
        refine ⟨drift, hsame, ?_⟩
        rw [hmemory, sqlCreate_new hrow hknows, if_neg (by rw [hholds]; decide)]
        have hvalues := Dict.values_set_new w.artifacts record.id record hget
        have hat := h.at
        refine ⟨hat.events, ?_, hat.cursor, hat.indexed, hat.taken, ?_, hat.identified, ?_⟩
        · rw [List.map_append, h.artifacts, hvalues]
          rfl
        · intro id other hother
          rw [Dict.get?_set] at hother
          split at hother
          · next hid =>
            cases hother
            exact hid.symm
          · exact h.keyed id other hother
        · intro other hmem
          rw [hvalues] at hmem
          rcases List.mem_append.mp hmem with hmem | hmem
          · exact h.known other hmem
          · rw [List.mem_singleton.mp hmem]
            exact hknows
    · have hno : ∀ stored w', (w.at directory).createArtifact record ≠ .ok (stored, w') :=
        fun stored w' hok => hknows (createArtifact_ok_iff.mp hok).1
      refine ⟨iff_of_true (by rw [memoryCreate_failed hno, sqlCreate_unknown hrow hknows]) ⟨?_, ?_⟩, fun _ => ⟨drift, hsame, ?_⟩⟩
      · intro existing hexisting
        rw [hget] at hexisting
        cases hexisting
      · exact fun stored w' _ hok => absurd hok (hno stored w')
      · rw [memoryCreate_failed hno, sqlCreate_unknown hrow hknows]
        exact h.at

theorem Alike.call (h : Alike directory w store drift) {skipped : Prop} (hdrift : skipped ↔ 0 < drift)
    (next : StoreCall) : CallAlike db directory w store skipped next := by
  cases next with
  | appendEvent event => exact h.appendEvent hdrift event
  | createArtifact record => exact h.createArtifact hdrift record

/-- Stores that are alike list the same events and artifacts. -/
theorem Alike.lists (h : Alike directory w store drift) (later : Directory) (runId : UUID) (after : Nat) :
    store.listEvents later runId after = (w.at later).runs.listEvents runId after ∧
      store.listArtifacts later runId = (w.at later).listArtifacts runId := by
  unfold SqlStore.listEvents RunRepository.listEvents SqlStore.listArtifacts ArtifactWorld.listArtifacts
  cases hrun : later.runs.get? runId with
  | none =>
    have hgot : (w.at later).runs.getLocked runId = .error (missingRun runId) := by
      unfold RunRepository.getLocked
      rw [show (w.at later).runs.runs.get? runId = none from hrun]
      rfl
    rw [hgot]
    exact ⟨rfl, rfl⟩
  | some run =>
    have hgot : (w.at later).runs.getLocked runId = .ok run := RunRepository.getLocked_ok_iff.mpr hrun
    rw [hgot]
    simp only [ok_bind]
    constructor
    · unfold RunRepository.eventsAfter
      change Except.ok _ = Except.ok ((w.runs.events.values.filter _).insertionSort _)
      rw [← h.events, List.filter_map]
      exact congrArg Except.ok (List.map_insertionSort _ _ _ _ fun a _ b _ => Iff.rfl)
    · change Except.ok _ = Except.ok (SqlStore.artifactsInOrder (w.artifacts.values.filter _))
      rw [← h.artifacts, List.filter_map]
      rfl

end Step

/-! ## Sequences of calls -/

/-- No events and no artifacts yet. -/
def emptyWorld (store : LocalArtifactStore) : ArtifactWorld := ⟨.empty, .empty, store⟩

/-- The two stores give the same answers to a sequence of calls and list the same afterwards. -/
def StoresAgree (db : Database) (objects : LocalArtifactStore) (calls : List (Directory × StoreCall)) : Prop :=
  (runCalls (SqlStore.call db) .empty calls).1 =
      (runCalls (fun directory w next => w.call directory next) (emptyWorld objects) calls).1 ∧
    ∀ later runId after,
      (runCalls (SqlStore.call db) .empty calls).2.listEvents later runId after =
        ((runCalls (fun directory w next => w.call directory next) (emptyWorld objects) calls).2.at later).runs.listEvents
          runId after ∧
      (runCalls (SqlStore.call db) .empty calls).2.listArtifacts later runId =
        ((runCalls (fun directory w next => w.call directory next) (emptyWorld objects) calls).2.at later).listArtifacts
          runId

/-- From stores that are alike the answers are the same exactly when all calls meet the condition, and then the
stores are alike again. -/
theorem Alike.run {db : Database} {directory : Directory} {w : ArtifactWorld} {store : SqlStore} {drift : Nat}
    (h : Alike directory w store drift) {skipped : Prop} (hdrift : skipped ↔ 0 < drift)
    (calls : List (Directory × StoreCall)) (hevolves : Evolves directory calls) :
    ((runCalls (SqlStore.call db) store calls).1 = (runCalls (fun directory w next => w.call directory next) w calls).1 ↔
      AllMeet db w skipped calls) ∧
    (AllMeet db w skipped calls → ∃ last drift, Alike last
      (runCalls (fun directory w next => w.call directory next) w calls).2 (runCalls (SqlStore.call db) store calls).2
      drift) := by
  induction calls generalizing directory w store drift skipped with
  | nil => exact ⟨iff_of_true rfl trivial, fun _ => ⟨directory, drift, h⟩⟩
  | cons next rest ih =>
    obtain ⟨later, next⟩ := next
    obtain ⟨hext, hrest⟩ := hevolves
    have hcall : CallAlike db later w store skipped next := (h.later hext).call hdrift next
    unfold runCalls AllMeet
    simp only
    constructor
    · rw [List.cons.injEq, hcall.answer]
      apply and_congr_right
      intro hmeets
      obtain ⟨drift', hdrift', hafter⟩ := hcall.alike hmeets
      exact (ih hafter hdrift' hrest).1
    · rintro ⟨hmeets, hall⟩
      obtain ⟨drift', hdrift', hafter⟩ := hcall.alike hmeets
      exact (ih hafter hdrift' hrest).2 hall

theorem Alike.start (objects : LocalArtifactStore) (directory : Directory) :
    Alike directory (emptyWorld objects) .empty 0 := by
  refine ⟨rfl, rfl, rfl, RunRepository.logIndexed_empty, ?_, ?_, ?_, ?_⟩
  · intro key hsome
    cases hsome
  · intro id record hget
    cases hget
  · intro record hmem
    cases hmem
  · intro record hmem
    cases hmem

/-- The two stores agree on a sequence of calls exactly when every call meets the condition. -/
theorem event_artifact_stores_agree_iff (db : Database) (objects : LocalArtifactStore) (directory : Directory)
    (calls : List (Directory × StoreCall)) (hevolves : Evolves directory calls) :
    StoresAgree db objects calls ↔ AllMeet db (emptyWorld objects) False calls := by
  have hstart : False ↔ 0 < 0 := iff_of_false id (Nat.lt_irrefl 0)
  obtain ⟨hanswers, hafter⟩ : (_ ↔ AllMeet db (emptyWorld objects) False calls) ∧ _ :=
    (Alike.start objects directory).run hstart calls hevolves
  constructor
  · exact fun hagree => hanswers.mp hagree.1
  · intro hall
    obtain ⟨last, drift, halike⟩ := hafter hall
    exact ⟨hanswers.mpr hall, halike.lists⟩

/-! ## Two sequences -/

/-- One run with one attempt. -/
def oneAttempt : Directory where
  runs := Dict.empty.set ⟨"r"⟩ ⟨⟨"r"⟩, .http, .empty, .running, 0, 3⟩
  attempts := Dict.empty.set ⟨"a"⟩ (AttemptRecord.fresh ⟨"a"⟩ ⟨"r"⟩ 0)

def plainDatabase : Database := ⟨fun _ => true, fun _ => true, false⟩

def shotAt (createdAt : Instant) : ArtifactRecord :=
  ⟨⟨"s"⟩, ⟨"r"⟩, ⟨"a"⟩, "screenshot", "shot.png", "image/png", 3, "k", createdAt⟩

/-- The artifact is created twice. -/
def shotCalls (again : Instant) : List (Directory × StoreCall) :=
  [(oneAttempt, .createArtifact (shotAt 1)), (oneAttempt, .createArtifact (shotAt again))]

theorem shotCalls_evolve (again : Instant) : Evolves oneAttempt (shotCalls again) := by
  have hsame : oneAttempt.Extends oneAttempt :=
    ⟨fun _ attempt h => ⟨attempt, h, rfl⟩, fun _ run h => ⟨run, h, rfl⟩⟩
  exact ⟨hsame, hsame, trivial⟩

theorem shot_created (objects : LocalArtifactStore) :
    (((emptyWorld objects).call oneAttempt (.createArtifact (shotAt 1))).2).artifacts.get? ⟨"s"⟩ = some (shotAt 1) := rfl

theorem shot_repeated : StoresAgree plainDatabase ⟨0, .empty⟩ (shotCalls 1) := by
  refine (event_artifact_stores_agree_iff plainDatabase ⟨0, .empty⟩ oneAttempt _ (shotCalls_evolve 1)).mpr ?_
  refine ⟨⟨?_, fun _ _ _ _ => rfl⟩, ⟨?_, fun _ _ _ _ => rfl⟩, trivial⟩
  · intro existing hget
    cases hget
  · intro existing hget _
    rw [show (shotAt 1).id = ⟨"s"⟩ from rfl, shot_created, Option.some.injEq] at hget
    rw [← hget]

/-- The same artifact with a later time is refused by one store only. -/
theorem shot_at_2_differs : ¬ ∀ (db : Database) (objects : LocalArtifactStore) (directory : Directory)
    (calls : List (Directory × StoreCall)), Evolves directory calls → StoresAgree db objects calls := by
  intro h
  have hagree := h plainDatabase ⟨0, .empty⟩ oneAttempt (shotCalls 2) (shotCalls_evolve 2)
  have hstart : False ↔ 0 < 0 := iff_of_false id (Nat.lt_irrefl 0)
  obtain ⟨-, hmeets, -⟩ :=
    ((Alike.start ⟨0, .empty⟩ oneAttempt).run hstart (shotCalls 2) (shotCalls_evolve 2)).1.mp hagree.1
  exact absurd (hmeets.1 (shotAt 1) (shot_created _) rfl) (by decide)

end SmartTest.System
