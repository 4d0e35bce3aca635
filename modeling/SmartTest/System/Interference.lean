import SmartTest.System.Steps

/-!
# A manager among cancels and lease expiry

The parties that may act on a run while its manager executes it: `cancel` at any moment, the
clock, and, where leases are allowed to expire, `expire_attempt_leases`.
-/

open SmartTest.Lib SmartTest.Lib.Prog SmartTest.Run SmartTest.Run.RunRepository SmartTest.Plan

namespace SmartTest.System

inductive Interferes (expiry : Bool) (w : World) : World → Prop
  | cancel (runId : UUID) : Interferes expiry w { w with runs := after w.runs (w.runs.cancel runId) }
  | tick (clock : Instant) : Interferes expiry w { w with clock := clock }
  | expire (cutoff : Instant) (hexpiry : expiry = true) :
      Interferes expiry w { w with runs := (w.runs.expireAttemptLeases cutoff).2 }

abbrev Others (expiry : Bool) : World → World → Prop := Relation.ReflTransGen (Interferes expiry)

abbrev Trace := List (Seen Label World)

/-- The steps of the manager are noted; the only invariant is that records are filed. -/
def managerRules (expiry : Bool) : Rules Label World Trace where
  obs seen trace := trace ++ [seen]
  inv x := Filed x.1.runs
  rely x y := Others expiry x.1 y.1 ∧ y.2 = x.2
  trust _ _ _ := True
  guar _ _ y := Filed y.1.runs
  guar_inv _ _ _ _ _ h := h

/-! ## One kind of interference at a time -/

/-- What cancels, the clock and each single expiry keep, the others keep. -/
theorem others_induct {expiry : Bool} {P : World → Prop}
    (hcancel : ∀ w runId run, Filed w.runs → w.runs.runs.get? runId = some run →
      .cancelling ∈ RUN_TRANSITIONS run.state → P w →
      P { w with runs := { w.runs with runs := w.runs.runs.set runId (run.moved .cancelling) } })
    (htick : ∀ w clock, P w → P { w with clock := clock })
    (hexpire : ∀ w repo cutoff, expiry = true → Filed w.runs → ExpiresOne cutoff w.runs repo → P w →
      P { w with runs := repo })
    {w w' : World} (hf : Filed w.runs) (h : Others expiry w w') (hP : P w) : Filed w'.runs ∧ P w' := by
  induction h with
  | refl => exact ⟨hf, hP⟩
  | @tail v v' _ hlast ih =>
    obtain ⟨hfv, hPv⟩ := ih
    cases hlast with
    | cancel runId =>
      rcases after_cases v.runs (v.runs.cancel runId) with heq | ⟨a, heq⟩
      · rw [heq]
        exact ⟨hfv, hPv⟩
      · obtain ⟨run, hrun, -, ⟨-, hsame⟩ | ⟨hmem, hset⟩⟩ := cancel_ok heq
        · rw [hsame]
          exact ⟨hfv, hPv⟩
        · rw [hset]
          refine ⟨?_, hcancel v runId run hfv hrun hmem hPv⟩
          have hwrite : RunWrite v.runs { v.runs with
              runs := v.runs.runs.set runId (run.moved .cancelling) }.runs := .move runId run .cancelling hrun hmem
          exact hwrite.filed hfv
    | tick clock => exact ⟨hfv, htick v clock hPv⟩
    | expire cutoff hexpiry =>
      have hsteps := expireAttemptLeases_steps v.runs cutoff
      generalize (v.runs.expireAttemptLeases cutoff).2 = last at hsteps
      induction hsteps with
      | refl => exact ⟨hfv, hPv⟩
      | @tail repo repo' _ hone ih =>
        refine ⟨(write_of_expiresOne ih.1 hone).filed ih.1, ?_⟩
        exact hexpire { v with runs := repo } repo' cutoff hexpiry ih.1 hone ih.2

/-! ## The attempt of a task -/

/-- The records of a task that was begun: its attempt is the last of the run, and the others are over. -/
structure Mine (task : TaskEnvelope) (w : World) (attempt : AttemptRecord) (run : RunRecord) : Prop where
  begun : w.runs.attempts.get? task.attemptId = some attempt
  id : attempt.id = task.attemptId
  runId : attempt.runId = task.runId
  last : current w.runs.attempts task.runId = some (task.attemptId, attempt)
  held : w.runs.runs.get? task.runId = some run
  others : ∀ b other, w.runs.attempts.get? b = some other → other.runId = task.runId →
    b ≠ task.attemptId → other.state.terminal = true

variable {task : TaskEnvelope} {w : World} {attempt : AttemptRecord} {run : RunRecord}

/-- A change of other runs only. -/
theorem Mine.congr {w' : World} {run' : RunRecord} (h : Mine task w attempt run)
    (hattempts : w'.runs.attempts = w.runs.attempts) (hrun : w'.runs.runs.get? task.runId = some run') :
    Mine task w' attempt run' where
  begun := by rw [hattempts]; exact h.begun
  id := h.id
  runId := h.runId
  last := by rw [hattempts]; exact h.last
  held := hrun
  others := by rw [hattempts]; exact h.others

/-- A new record of the attempt itself. -/
theorem Mine.update {w' : World} {attempt' : AttemptRecord} (h : Mine task w attempt run)
    (hsame : AttemptRecord.SameIdentity attempt attempt')
    (hattempts : w'.runs.attempts = w.runs.attempts.set task.attemptId attempt')
    {run' : RunRecord} (hrun : w'.runs.runs.get? task.runId = some run') : Mine task w' attempt' run' where
  begun := by simp [hattempts]
  id := hsame.id.trans h.id
  runId := hsame.runId.trans h.runId
  last := by
    rw [hattempts, current_set_old h.begun hsame.runId, h.last]
    simp [replaced]
  held := hrun
  others := by
    intro b other hget hrunId hne
    rw [hattempts, Dict.get?_set_ne _ _ hne] at hget
    exact h.others b other hget hrunId hne

/-- The expiry of an attempt of another run. -/
theorem Mine.expireOther {w' : World} {b : UUID} {other updated : AttemptRecord} (h : Mine task w attempt run)
    (hget : w.runs.attempts.get? b = some other) (hne : b ≠ task.attemptId)
    (hleased : other.state.leased = true) (hsame : AttemptRecord.SameIdentity other updated)
    (hattempts : w'.runs.attempts = w.runs.attempts.set b updated)
    (hruns : ∀ r, r ≠ other.runId → w'.runs.runs.get? r = w.runs.runs.get? r) :
    Mine task w' attempt run := by
  have hother : other.runId ≠ task.runId := by
    intro heq
    have := h.others b other hget heq hne
    simp [terminal_of_leased hleased] at this
  refine ⟨?_, h.id, h.runId, ?_, ?_, ?_⟩
  · rw [hattempts, Dict.get?_set_ne _ _ (Ne.symm hne)]
    exact h.begun
  · rw [hattempts, current_set_old hget hsame.runId, h.last]
    simp [replaced, Ne.symm hne]
  · rw [hruns _ (Ne.symm hother)]
    exact h.held
  · intro c third hc hrunId hc'
    rw [hattempts, Dict.get?_set] at hc
    split at hc
    · cases hc
      exact absurd (hsame.runId.symm.trans hrunId) hother
    · exact h.others c third hc hrunId hc'

/-! ## The states of a task -/

/-- The attempt is in a state of `S` and the run in a state of `R`. -/
def At (task : TaskEnvelope) (S : AttemptState → Prop) (R : RunState → Prop) (w : World) : Prop :=
  ∃ attempt run, Mine task w attempt run ∧ S attempt.state ∧ R run.state

/-- The lease ran out. -/
def Lost (task : TaskEnvelope) (w : World) : Prop := At task (· = .lost) (· = .infraError) w

/-- A run that a manager holds. -/
def Held (state : RunState) : Prop := state = .running ∨ state = .cancelling

/-- The expiry of one attempt, seen from a task: its own attempt, or one of another run. -/
theorem Mine.expires {repo : RunRepository} {cutoff : Instant} (h : Mine task w attempt run)
    (hf : Filed w.runs) (hone : ExpiresOne cutoff w.runs repo) :
    Mine task { w with runs := repo } attempt run ∨ ∃ lost run', attempt.state.leased = true ∧
      lost.state = .lost ∧ Mine task { w with runs := repo } lost run' ∧
      (run' = run ∧ (run.state.terminal = true ∨ .infraError ∉ RUN_TRANSITIONS run.state) ∨
        run' = run.moved .infraError ∧ .infraError ∈ RUN_TRANSITIONS run.state) := by
  obtain ⟨b, other, updated, hexp⟩ := hone.expiry
  by_cases hb : b = task.attemptId
  · subst hb
    have hother := hexp.found
    rw [h.begun] at hother
    cases hother
    right
    rcases hexp.runs with ⟨heq, hno⟩ | ⟨run', hget', hmem, heq⟩
    · refine ⟨updated, run, hexp.leased, hexp.lost, h.update hexp.same hexp.attempts ?_, .inl ⟨rfl, ?_⟩⟩
      · rw [heq]
        exact h.held
      · exact hno run (h.runId ▸ h.held)
    · rw [h.runId, h.held] at hget'
      cases hget'
      refine ⟨updated, run.moved .infraError, hexp.leased, hexp.lost, h.update hexp.same hexp.attempts ?_,
        .inr ⟨rfl, hmem⟩⟩
      rw [heq, hf _ _ h.held]
      simp
  · left
    refine h.expireOther hexp.found hb hexp.leased hexp.same hexp.attempts ?_
    intro r hr
    rcases hexp.runs with ⟨heq, -⟩ | ⟨run', hget', -, heq⟩
    · rw [heq]
    · rw [heq, hf _ _ hget', Dict.get?_set_ne _ _ hr]

theorem lost_of_held {lost : AttemptRecord} {run run' : RunRecord} (hmine : Mine task w lost run')
    (hlost : lost.state = .lost) (hheld : Held run.state)
    (hrun : run' = run ∧ (run.state.terminal = true ∨ .infraError ∉ RUN_TRANSITIONS run.state) ∨
      run' = run.moved .infraError ∧ .infraError ∈ RUN_TRANSITIONS run.state) : Lost task w := by
  rcases hrun with ⟨-, hno⟩ | ⟨rfl, -⟩
  · rcases hheld with h | h <;> simp [h, RunState.terminal, RUN_TERMINAL, RUN_TRANSITIONS] at hno
  · exact ⟨lost, _, hmine, hlost, rfl⟩

/-- A cancel moves the run of the task to `CANCELLING`, or another one. -/
theorem Mine.cancelled {runId : UUID} {old : RunRecord} (h : Mine task w attempt run)
    (hold : w.runs.runs.get? runId = some old) (hmem : .cancelling ∈ RUN_TRANSITIONS old.state) :
    let w' := { w with runs := { w.runs with runs := w.runs.runs.set runId (old.moved .cancelling) } }
    Mine task w' attempt run ∨
      .cancelling ∈ RUN_TRANSITIONS run.state ∧ Mine task w' attempt (run.moved .cancelling) := by
  by_cases hr : runId = task.runId
  · subst hr
    rw [h.held] at hold
    cases hold
    exact .inr ⟨hmem, h.congr rfl (by simp)⟩
  · exact .inl (h.congr rfl (by simpa [Ne.symm hr] using h.held))

/-- While others act, the attempt stays as it is or is lost, and the run stays in `R`. -/
theorem At.others {expiry : Bool} {w' : World} {S : AttemptState → Prop} {R : RunState → Prop}
    (hcancel : ∀ s, R s → .cancelling ∈ RUN_TRANSITIONS s → R .cancelling)
    (hheld : ∀ s t, S s → s.leased = true → R t → Held t) (hf : Filed w.runs) (hothers : Others expiry w w')
    (h : At task S R w ∨ expiry = true ∧ Lost task w) : At task S R w' ∨ expiry = true ∧ Lost task w' := by
  refine (others_induct (P := fun w => At task S R w ∨ expiry = true ∧ Lost task w) ?_ ?_ ?_ hf hothers h).2
  · rintro w runId old - hold hmem (⟨attempt, run, hmine, hS, hR⟩ | ⟨hexp, attempt, run, hmine, hS, hR⟩)
    · rcases hmine.cancelled hold hmem with hsame | ⟨hmem', hmoved⟩
      · exact .inl ⟨attempt, run, hsame, hS, hR⟩
      · exact .inl ⟨attempt, _, hmoved, hS, hcancel _ hR hmem'⟩
    · rcases hmine.cancelled hold hmem with hsame | ⟨hmem', -⟩
      · exact .inr ⟨hexp, attempt, run, hsame, hS, hR⟩
      · simp [hR, RUN_TRANSITIONS] at hmem'
  · rintro w clock (⟨attempt, run, hmine, hS, hR⟩ | ⟨hexp, attempt, run, hmine, hS, hR⟩)
    · exact .inl ⟨attempt, run, hmine.congr rfl hmine.held, hS, hR⟩
    · exact .inr ⟨hexp, attempt, run, hmine.congr rfl hmine.held, hS, hR⟩
  · rintro w repo cutoff hexp hf hone (⟨attempt, run, hmine, hS, hR⟩ | ⟨-, attempt, run, hmine, hS, hR⟩)
    · rcases hmine.expires hf hone with hsame | ⟨lost, run', hleased, hlost, hmine', hrun⟩
      · exact .inl ⟨attempt, run, hsame, hS, hR⟩
      · exact .inr ⟨hexp, lost_of_held hmine' hlost (hheld _ _ hS hleased hR) hrun⟩
    · rcases hmine.expires hf hone with hsame | ⟨_, _, hleased, -⟩
      · exact .inr ⟨hexp, attempt, run, hsame, hS, hR⟩
      · simp [hS, AttemptState.leased, ATTEMPT_LEASED] at hleased

end SmartTest.System
