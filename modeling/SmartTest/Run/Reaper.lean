import SmartTest.Run.Touch

/-!
# The lease reaper

`expire_attempt_leases` gives up every attempt whose lease has run out and ends its run. A
run that was never queued cannot end in `INFRA_ERROR`, and an attempt can be claimed for it
all the same: the sweep then raises, with the attempt already `LOST` and the later ones
not looked at.
-/

open SmartTest.Lib

namespace SmartTest.Run

variable {fingerprint : Engine → Dict String Json → String} {repo : RunRepository} {cutoff : Instant}

/-- The record `lost` makes of an attempt with a lease. -/
def AttemptRecord.givenUp (attempt : AttemptRecord) (now : Instant) : AttemptRecord :=
  { attempt.moved .lost with
    outcome := some .infraError
    summary := some (Dict.empty.set "reason" (.str "runner_lease_expired"))
    completedAt := some now }

theorem AttemptRecord.lost_eq {attempt : AttemptRecord} (h : attempt.state.leased = true) (now : Instant) :
    attempt.lost now = .ok (attempt.givenUp now) := by
  obtain ⟨updated, hlost⟩ := AttemptRecord.lost_of_leased h now
  rw [hlost]
  simp only [AttemptRecord.lost, bind_eq_ok_iff, AttemptRecord.withState_ok_iff, pure_eq_ok_iff] at hlost
  obtain ⟨_, ⟨-, rfl⟩, rfl⟩ := hlost
  rfl

namespace RunRepository

/-- The entries of the attempt table the sweep is to give up, in its order. -/
def dueEntries (cutoff : Instant) (l : List (UUID × AttemptRecord)) : List (UUID × AttemptRecord) :=
  l.filter fun e => leaseExpired e.2 cutoff

/-- The attempts in a leased state whose lease ends at or before the cutoff. -/
def due (repo : RunRepository) (cutoff : Instant) : List AttemptRecord :=
  repo.attempts.values.filter (leaseExpired · cutoff)

theorem due_eq (repo : RunRepository) (cutoff : Instant) :
    repo.due cutoff = (dueEntries cutoff repo.attempts.entries).map Prod.snd := by
  simp only [due, dueEntries, Dict.values, List.filter_map]
  rfl

theorem mem_due {attempt : AttemptRecord} :
    attempt ∈ repo.due cutoff ↔
      (∃ attemptId, repo.attempts.get? attemptId = some attempt) ∧ leaseExpired attempt cutoff = true := by
  rw [due, List.mem_filter, Dict.mem_values_iff]

end RunRepository

/-- What the sweep makes of the run of an attempt it gives up. -/
def RunRecord.ended (run : RunRecord) : RunRecord :=
  if run.state.terminal then run else run.moved .infraError

theorem RunRecord.ended_terminal (run : RunRecord) : run.ended.state.terminal = true := by
  unfold RunRecord.ended
  split
  · assumption
  · rfl

theorem RunRecord.ended_ended (run : RunRecord) : run.ended.ended = run.ended := by
  rw [RunRecord.ended, if_pos run.ended_terminal]

theorem RunRecord.ended_id (run : RunRecord) : run.ended.id = run.id := by
  unfold RunRecord.ended
  split <;> rfl

/-- `CREATED` is the one state that can neither stay nor end in `INFRA_ERROR`. -/
theorem infraError_mem_iff {state : RunState} (hterm : state.terminal = false) :
    .infraError ∈ RUN_TRANSITIONS state ↔ state ≠ .created := by
  revert hterm
  cases state <;> simp [RunState.terminal, RUN_TERMINAL, RUN_TRANSITIONS]

namespace RunRepository

/-! ## One turn of the loop -/

theorem expireAttempt_ended {current : AttemptRecord} {run : RunRecord} (attemptId : UUID)
    (hexp : leaseExpired current cutoff = true) (hrun : repo.runs.get? current.runId = some run)
    (hid : run.id = current.runId) (hstate : run.state ≠ .created) :
    ∃ repo', expireAttempt repo cutoff attemptId current = (.ok (current.givenUp cutoff), repo') ∧
      repo'.attempts = repo.attempts.set attemptId (current.givenUp cutoff) ∧
      (∀ runId, repo'.runs.get? runId =
        if runId = current.runId then some run.ended else repo.runs.get? runId) ∧
      repo' = { repo with runs := repo'.runs, attempts := repo'.attempts } := by
  simp only [expireAttempt, AttemptRecord.lost_eq (leased_of_expired hexp), hrun]
  by_cases hterm : run.state.terminal = true
  · rw [if_pos hterm]
    refine ⟨_, rfl, rfl, ?_, rfl⟩
    intro runId
    split
    · next heq => rw [heq, hrun, RunRecord.ended, if_pos hterm]
    · rfl
  · have hmem := (infraError_mem_iff (by simpa using hterm)).mpr hstate
    rw [if_neg hterm, RunRecord.withState_ok_iff.mpr ⟨hmem, rfl⟩]
    refine ⟨_, rfl, rfl, ?_, rfl⟩
    intro runId
    simp only [hid, Dict.get?_set, RunRecord.ended, if_neg hterm]

theorem expireAttempt_created {current : AttemptRecord} {run : RunRecord} (attemptId : UUID)
    (hexp : leaseExpired current cutoff = true) (hrun : repo.runs.get? current.runId = some run)
    (hstate : run.state = .created) :
    ∃ e repo', expireAttempt repo cutoff attemptId current = (.error e, repo') := by
  have hterm : run.state.terminal = false := by rw [hstate]; rfl
  have hmem : .infraError ∉ RUN_TRANSITIONS run.state := by simp [hstate, RUN_TRANSITIONS]
  simp [expireAttempt, AttemptRecord.lost_eq (leased_of_expired hexp), hrun, hterm, RunRecord.withState, transitionRun, transitionBy, hmem, bind, Except.bind]

/-! ## The loop -/

/-- What the loop leaves behind after it has given up the due entries of `l`. -/
structure Swept (cutoff : Instant) (l : List (UUID × AttemptRecord)) (repo repo' : RunRepository) : Prop where
  lost : ∀ e ∈ dueEntries cutoff l, repo'.attempts.get? e.1 = some (e.2.givenUp cutoff)
  attempts : ∀ attemptId, attemptId ∉ (dueEntries cutoff l).map Prod.fst →
    repo'.attempts.get? attemptId = repo.attempts.get? attemptId
  ended : ∀ e ∈ dueEntries cutoff l, repo'.runs.get? e.2.runId =
    (repo.runs.get? e.2.runId).map RunRecord.ended
  runs : ∀ runId, (∀ e ∈ dueEntries cutoff l, e.2.runId ≠ runId) →
    repo'.runs.get? runId = repo.runs.get? runId
  rest : repo' = { repo with runs := repo'.runs, attempts := repo'.attempts }

/-- The run of an attempt is stored under its id, and was queued at some time. -/
def Endable (repo : RunRepository) (attempt : AttemptRecord) : Prop :=
  ∃ run, repo.runs.get? attempt.runId = some run ∧ run.id = attempt.runId ∧ run.state ≠ .created

theorem Endable.of_runs {repo' : RunRepository} {current attempt : AttemptRecord} {run : RunRecord}
    (hid : run.id = current.runId)
    (hruns : ∀ runId, repo'.runs.get? runId =
      if runId = current.runId then some run.ended else repo.runs.get? runId)
    (h : Endable repo attempt) : Endable repo' attempt := by
  obtain ⟨run', hrun', hid', hstate'⟩ := h
  by_cases hsame : attempt.runId = current.runId
  · refine ⟨run.ended, by rw [hruns, if_pos hsame], by rw [run.ended_id, hid, hsame], ?_⟩
    have hterm := run.ended_terminal
    intro hcreated
    rw [hcreated] at hterm
    cases hterm
  · exact ⟨run', by rw [hruns, if_neg hsame, hrun'], hid', hstate'⟩

theorem expireLoop_swept (cutoff : Instant) (l : List (UUID × AttemptRecord)) (hl : (l.map Prod.fst).Nodup)
    (hend : ∀ e ∈ dueEntries cutoff l, Endable repo e.2) :
    ∃ repo', expireLoop cutoff l repo = (.ok ((dueEntries cutoff l).map (·.2.givenUp cutoff)), repo') ∧
      Swept cutoff l repo repo' := by
  induction l generalizing repo with
  | nil => exact ⟨repo, rfl, by simp [dueEntries], by simp, by simp [dueEntries], by simp, rfl⟩
  | cons e rest ih =>
    obtain ⟨attemptId, current⟩ := e
    obtain ⟨hnot, hrest⟩ := List.nodup_cons.mp hl
    simp only [expireLoop]
    cases hexp : leaseExpired current cutoff with
    | false =>
      -- The entry is passed by: what is due is due in the rest.
      have hdue : dueEntries cutoff ((attemptId, current) :: rest) = dueEntries cutoff rest := by
        simp [dueEntries, hexp]
      rw [hdue] at hend ⊢
      obtain ⟨repo', heq, hswept⟩ := ih hrest hend
      refine ⟨repo', by simpa using heq, ?_⟩
      obtain ⟨h1, h2, h3, h4, h5⟩ := hswept
      exact ⟨hdue ▸ h1, hdue ▸ h2, hdue ▸ h3, hdue ▸ h4, h5⟩
    | true =>
      have hdue : dueEntries cutoff ((attemptId, current) :: rest) =
          (attemptId, current) :: dueEntries cutoff rest := by simp [dueEntries, hexp]
      rw [hdue] at hend
      obtain ⟨⟨run, hrun, hid, hstate⟩, htail⟩ := List.forall_mem_cons.mp hend
      obtain ⟨next, hnext, hattempts, hruns, hframe⟩ := expireAttempt_ended attemptId hexp hrun hid hstate
      obtain ⟨repo', heq, hswept⟩ := ih hrest fun e he => (htail e he).of_runs hid hruns
      have hnotDue : attemptId ∉ (dueEntries cutoff rest).map Prod.fst := by
        intro hmem
        exact hnot ((List.filter_sublist.map Prod.fst).subset hmem)
      refine ⟨repo', ?_, ?_, ?_, ?_, ?_, ?_⟩
      · simp [hnext, heq, hdue, Except.map]
      · rw [hdue]
        refine List.forall_mem_cons.mpr ⟨?_, hswept.lost⟩
        rw [hswept.attempts attemptId hnotDue, hattempts, Dict.get?_set_self]
      · intro other hother
        rw [hdue, List.map_cons, List.mem_cons, not_or] at hother
        rw [hswept.attempts other hother.2, hattempts, Dict.get?_set_ne _ _ hother.1]
      · intro e he
        rw [hdue, List.mem_cons] at he
        by_cases hin : ∃ e' ∈ dueEntries cutoff rest, e'.2.runId = e.2.runId
        · obtain ⟨e', he', hsame⟩ := hin
          rw [← hsame, hswept.ended e' he', hruns]
          split
          · next hcur => rw [hcur, hrun, Option.map_some, Option.map_some, run.ended_ended]
          · rfl
        · simp only [not_exists, not_and] at hin
          rw [hswept.runs _ hin, hruns]
          rcases he with rfl | he
          · rw [if_pos rfl, hrun, Option.map_some]
          · exact absurd rfl (hin e he)
      · intro runId hne
        rw [hdue] at hne
        obtain ⟨hhead, htail⟩ := List.forall_mem_cons.mp hne
        rw [hswept.runs runId htail, hruns, if_neg (Ne.symm hhead)]
      · rw [hswept.rest, hframe]

/-- A due attempt of a run that was never queued stops the loop. -/
theorem expireLoop_created (cutoff : Instant) (l : List (UUID × AttemptRecord))
    {e : UUID × AttemptRecord} (he : e ∈ dueEntries cutoff l) {run : RunRecord}
    (hrun : repo.runs.get? e.2.runId = some run) (hstate : run.state = .created)
    (hstored : ∀ e ∈ l, ∃ run, repo.runs.get? e.2.runId = some run ∧ run.id = e.2.runId) :
    ∃ error repo', expireLoop cutoff l repo = (.error error, repo') := by
  induction l generalizing repo with
  | nil => simp [dueEntries] at he
  | cons first rest ih =>
    obtain ⟨attemptId, current⟩ := first
    obtain ⟨⟨run', hrun', hid⟩, hrest⟩ := List.forall_mem_cons.mp hstored
    simp only [expireLoop]
    cases hexp : leaseExpired current cutoff with
    | false =>
      have hin : e ∈ dueEntries cutoff rest := by simpa [dueEntries, hexp] using he
      simpa using ih hin hrun hrest
    | true =>
      by_cases hfirst : run'.state = .created
      · obtain ⟨error, repo', heq⟩ := expireAttempt_created attemptId hexp hrun' hfirst
        exact ⟨error, repo', by simp [heq]⟩
      · obtain ⟨next, hnext, -, hruns, -⟩ := expireAttempt_ended attemptId hexp hrun' hid hfirst
        -- The run of `e` is another one, which this turn has not touched.
        have hother : e.2.runId ≠ current.runId := by
          intro hsame
          rw [hsame, hrun'] at hrun
          cases hrun
          exact hfirst hstate
        have hin : e ∈ dueEntries cutoff rest := by
          have hne : e ≠ (attemptId, current) := by
            rintro rfl
            exact hother rfl
          simpa [dueEntries, hexp, hne] using he
        obtain ⟨error, repo', heq⟩ := @ih next hin (by rw [hruns, if_neg hother, hrun]) (by
          intro e' he'
          obtain ⟨run'', hrun'', hid''⟩ := hrest e' he'
          rw [hruns]
          split
          · next hsame => exact ⟨_, rfl, by rw [run'.ended_id, hid, hsame]⟩
          · exact ⟨run'', hrun'', hid''⟩)
        exact ⟨error, repo', by simp [hnext, heq, Except.map]⟩

/-! ## The sweep -/

/-- The sweep answers, and gives up the due attempts and nothing else. -/
def SweepExact (repo : RunRepository) (cutoff : Instant) : Prop :=
  ∃ repo', repo.expireAttemptLeases cutoff = (.ok ((repo.due cutoff).map (·.givenUp cutoff)), repo') ∧
    (∀ attemptId attempt, repo'.attempts.get? attemptId = some attempt → leaseExpired attempt cutoff = false) ∧
    (∀ attempt ∈ repo.due cutoff, repo'.attempts.get? attempt.id = some (attempt.givenUp cutoff) ∧
      ∃ run, repo'.runs.get? attempt.runId = some run ∧ run.state.terminal = true) ∧
    (∀ attemptId, (∀ attempt ∈ repo.due cutoff, attempt.id ≠ attemptId) →
      repo'.attempts.get? attemptId = repo.attempts.get? attemptId) ∧
    (∀ runId, (∀ attempt ∈ repo.due cutoff, attempt.runId ≠ runId) →
      repo'.runs.get? runId = repo.runs.get? runId) ∧
    repo' = { repo with runs := repo'.runs, attempts := repo'.attempts }

/-- No due attempt belongs to a run that is still `CREATED`. -/
def DueQueued (repo : RunRepository) (cutoff : Instant) : Prop :=
  ∀ attempt ∈ repo.due cutoff, ∀ run, repo.runs.get? attempt.runId = some run → run.state ≠ .created

theorem Attached.endable (h : Attached repo) (hqueued : DueQueued repo cutoff) {attempt : AttemptRecord}
    (hdue : attempt ∈ repo.due cutoff) : Endable repo attempt := by
  obtain ⟨⟨attemptId, hget⟩, -⟩ := mem_due.mp hdue
  obtain ⟨run, hrun⟩ := Option.isSome_iff_exists.mp (h.run _ _ hget)
  exact ⟨run, hrun, h.filed _ _ hrun, hqueued attempt hdue run hrun⟩

theorem mem_due_of_entry {e : UUID × AttemptRecord} (he : e ∈ dueEntries cutoff repo.attempts.entries) :
    e.2 ∈ repo.due cutoff := by
  rw [due_eq]
  exact List.mem_map_of_mem he

/-- A due attempt stands in the table under its id. -/
theorem Attached.entry_of_due (h : Attached repo) {attempt : AttemptRecord} (hdue : attempt ∈ repo.due cutoff) :
    (attempt.id, attempt) ∈ dueEntries cutoff repo.attempts.entries := by
  obtain ⟨⟨attemptId, hget⟩, hexp⟩ := mem_due.mp hdue
  rw [h.id _ _ hget]
  exact List.mem_filter.mpr ⟨(Dict.get?_eq_some_iff _ _ _).mp hget, hexp⟩

theorem Attached.id_of_entry (h : Attached repo) {e : UUID × AttemptRecord}
    (he : e ∈ dueEntries cutoff repo.attempts.entries) : e.2.id = e.1 :=
  h.id _ _ ((Dict.get?_eq_some_iff _ _ _).mpr (List.mem_filter.mp he).1)

theorem Attached.sweepExact (h : Attached repo) (hqueued : DueQueued repo cutoff) : SweepExact repo cutoff := by
  obtain ⟨repo', heq, hswept⟩ := expireLoop_swept cutoff repo.attempts.entries repo.attempts.nodup
    fun e he => h.endable hqueued (mem_due_of_entry he)
  have hother : ∀ attemptId, (∀ attempt ∈ repo.due cutoff, attempt.id ≠ attemptId) →
      repo'.attempts.get? attemptId = repo.attempts.get? attemptId := by
    intro attemptId hne
    apply hswept.attempts
    intro hmem
    obtain ⟨e, he, rfl⟩ := List.mem_map.mp hmem
    exact hne e.2 (mem_due_of_entry he) (h.id_of_entry he)
  refine ⟨repo', ?_, ?_, ?_, hother, ?_, hswept.rest⟩
  · rw [due_eq, List.map_map]
    exact heq
  · intro attemptId attempt hget
    by_contra hexp
    rw [Bool.not_eq_false] at hexp
    by_cases hid : ∃ old ∈ repo.due cutoff, old.id = attemptId
    · obtain ⟨old, hold, rfl⟩ := hid
      rw [hswept.lost _ (h.entry_of_due hold)] at hget
      cases hget
      cases hexp
    · simp only [not_exists, not_and] at hid
      rw [hother attemptId hid] at hget
      exact hid attempt (mem_due.mpr ⟨⟨attemptId, hget⟩, hexp⟩) (h.id _ _ hget)
  · intro attempt hdue
    have hentry := h.entry_of_due hdue
    obtain ⟨run, hrun, -⟩ := h.endable hqueued hdue
    refine ⟨hswept.lost _ hentry, run.ended, ?_, run.ended_terminal⟩
    rw [hswept.ended _ hentry, hrun, Option.map_some]
  · intro runId hne
    exact hswept.runs runId fun e he => hne e.2 (mem_due_of_entry he)

theorem Attached.sweep_raises (h : Attached repo) (hqueued : ¬ DueQueued repo cutoff) :
    ∃ error repo', repo.expireAttemptLeases cutoff = (.error error, repo') := by
  simp only [DueQueued, not_forall, not_not] at hqueued
  obtain ⟨attempt, hdue, run, hrun, hstate⟩ := hqueued
  apply expireLoop_created cutoff repo.attempts.entries (h.entry_of_due hdue) hrun hstate
  intro e he
  obtain ⟨run, hrun⟩ := Option.isSome_iff_exists.mp (h.run _ _ ((Dict.get?_eq_some_iff _ _ _).mpr he))
  exact ⟨run, hrun, h.filed _ _ hrun⟩

end RunRepository

open RunRepository

/-- The sweep is total and exact unless a run that was never queued has an attempt that is due. -/
theorem sweep_exact_iff (fingerprint : Engine → Dict String Json → String) (l : List RepoAct) (cutoff : Instant) :
    SweepExact (acts fingerprint .empty l) cutoff ↔ DueQueued (acts fingerprint .empty l) cutoff := by
  have h := @attached_acts fingerprint l
  constructor
  · rintro ⟨repo', heq, -⟩
    by_contra hnot
    obtain ⟨error, repo'', hraises⟩ := h.sweep_raises hnot
    rw [hraises] at heq
    cases heq
  · exact h.sweepExact

/-! ## A run that was never queued -/

/-- A run is created, and an attempt for it is made and claimed at once. -/
def claimedAtOnce : List RepoAct :=
  [.createOrGet ⟨"r"⟩ 0 .pytest .empty none, .createAttempt ⟨"r"⟩ none ⟨"a"⟩ 0,
    .claimAttempt ⟨"a"⟩ "runner-a" 10 0]

/-- Eleven seconds later the sweep raises, and leaves a lost attempt of a run that is still `CREATED`. -/
theorem claimedAtOnce_blocks_sweep :
    ¬ SweepExact (acts (fun _ _ => "") .empty claimedAtOnce) 11000000 ∧
      (((acts (fun _ _ => "") .empty claimedAtOnce).expireAttemptLeases 11000000).2.attempts.get? ⟨"a"⟩).map (·.state) =
        some .lost ∧
      (((acts (fun _ _ => "") .empty claimedAtOnce).expireAttemptLeases 11000000).2.runs.get? ⟨"r"⟩).map (·.state) =
        some .created := by
  refine ⟨?_, by decide +kernel, by decide +kernel⟩
  rintro ⟨repo', heq, -⟩
  have hraises : ((acts (fun _ _ => "") .empty claimedAtOnce).expireAttemptLeases 11000000).1.toOption = none := by
    decide +kernel
  rw [heq] at hraises
  cases hraises

end SmartTest.Run
