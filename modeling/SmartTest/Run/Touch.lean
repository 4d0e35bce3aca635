import SmartTest.Run.Actions

/-!
# What an operation can do to one attempt

The record of an attempt changes in five ways only. Everything the repository keeps about
attempts is read off these.
-/

open SmartTest.Lib

namespace SmartTest.Run

variable {fingerprint : Engine → Dict String Json → String} {repo : RunRepository}

namespace RunRepository

/-- The record `new` that action `a` leaves where the record of an attempt was `old`. -/
inductive Touched (a : RepoAct) (attemptId : UUID) (old : AttemptRecord) : AttemptRecord → Prop
  | same : Touched a attemptId old old
  | moved {new : AttemptRecord} (hmem : new.state ∈ ATTEMPT_TRANSITIONS old.state)
      (hsame : AttemptRecord.SameIdentity old new) (hrunner : new.runnerId = old.runnerId)
      (hlease : new.leaseExpiresAt = old.leaseExpiresAt) : Touched a attemptId old new
  | claimed {new : AttemptRecord} {runnerId : String} {leaseSeconds : Int} {now : Instant}
      (h : old.claimed runnerId leaseSeconds now = .ok new) : Touched a attemptId old new
  | renewed {new : AttemptRecord} {runnerId : String} {leaseSeconds : Int} {now : Instant}
      (ha : a = .renewAttemptLease attemptId runnerId leaseSeconds now)
      (h : old.withHeartbeat runnerId leaseSeconds now = .ok new) : Touched a attemptId old new
  | expired {new : AttemptRecord} {cutoff : Instant} (ha : a = .expireAttemptLeases cutoff)
      (hexp : leaseExpired old cutoff = true) (h : old.lost cutoff = .ok new) : Touched a attemptId old new

theorem Touched.sameIdentity {a : RepoAct} {attemptId : UUID} {old new : AttemptRecord}
    (h : Touched a attemptId old new) : AttemptRecord.SameIdentity old new := by
  cases h with
  | same => exact ⟨rfl, rfl, rfl⟩
  | moved hmem hsame hrunner hlease => exact hsame
  | claimed h => exact (AttemptRecord.claimed_ok h).2.2.1
  | renewed ha h => exact (AttemptRecord.withHeartbeat_ok h).2.2.1
  | expired ha hexp h => exact (AttemptRecord.lost_ok h).2.2

/-- What stands under an attempt's id before and after an action. -/
inductive Slot (a : RepoAct) (repo : RunRepository) (attemptId : UUID) :
    Option AttemptRecord → Option AttemptRecord → Prop
  | absent : Slot a repo attemptId none none
  | born {new : AttemptRecord} (hid : new.id = attemptId) (hrun : (repo.runs.get? new.runId).isSome) :
      Slot a repo attemptId none (some new)
  | touched {old new : AttemptRecord} (h : Touched a attemptId old new) :
      Slot a repo attemptId (some old) (some new)

theorem Slot.refl (a : RepoAct) (repo : RunRepository) (attemptId : UUID) (record : Option AttemptRecord) :
    Slot a repo attemptId record record := by
  cases record with
  | none => exact .absent
  | some old => exact .touched .same

/-! ## The sweep -/

theorem leased_of_expired {attempt : AttemptRecord} {cutoff : Instant}
    (h : leaseExpired attempt cutoff = true) : attempt.state.leased = true := by
  unfold leaseExpired at h
  exact (Bool.and_eq_true _ _ ▸ h).1

theorem not_expired_of_lost {old new : AttemptRecord} {now cutoff : Instant} (h : old.lost now = .ok new) :
    leaseExpired new cutoff = false := by
  obtain ⟨-, hstate, -⟩ := AttemptRecord.lost_ok h
  simp [leaseExpired, hstate, AttemptState.leased, ATTEMPT_LEASED]

/-- One turn of the loop on the record of one attempt. -/
theorem ExpiresOne.slot {cutoff : Instant} {repo' : RunRepository} (h : ExpiresOne cutoff repo repo')
    (other : UUID) :
    repo'.attempts.get? other = repo.attempts.get? other ∨
      ∃ old new, repo.attempts.get? other = some old ∧ leaseExpired old cutoff = true ∧
        old.lost cutoff = .ok new ∧ repo'.attempts.get? other = some new := by
  obtain ⟨attemptId, old, hget, hexp, rfl⟩ := h
  by_cases hid : other = attemptId
  · subst hid
    obtain ⟨new, hlost, hcases⟩ := expireAttempt_cases repo cutoff other hexp
    refine .inr ⟨old, new, hget, hexp, hlost, ?_⟩
    rcases hcases with ⟨heq, -⟩ | ⟨run, -, -, heq⟩ <;> simp [heq]
  · exact .inl (expireAttempt_attempts_ne repo cutoff old hid)

/-- The whole sweep gives an attempt up once, or leaves it alone. -/
theorem expireAttemptLeases_slot (repo : RunRepository) (cutoff : Instant) (attemptId : UUID) :
    (repo.expireAttemptLeases cutoff).2.attempts.get? attemptId = repo.attempts.get? attemptId ∨
      ∃ old new, repo.attempts.get? attemptId = some old ∧ leaseExpired old cutoff = true ∧
        old.lost cutoff = .ok new ∧ (repo.expireAttemptLeases cutoff).2.attempts.get? attemptId = some new := by
  have hsteps := expireAttemptLeases_steps repo cutoff
  generalize (repo.expireAttemptLeases cutoff).2 = last at hsteps
  induction hsteps with
  | refl => exact .inl rfl
  | tail _ hlast ih =>
    rcases hlast.slot attemptId with hsame | ⟨old, new, hget, hexp, hlost, hnew⟩
    · rwa [hsame]
    · rcases ih with hsame | ⟨first, lost, -, -, hfirst, hget'⟩
      · exact .inr ⟨old, new, hsame ▸ hget, hexp, hlost, hnew⟩
      · -- A lost attempt has no lease any more.
        obtain rfl : lost = old := Option.some.inj (hget'.symm.trans hget)
        rw [not_expired_of_lost hfirst] at hexp
        cases hexp

/-! ## Every action -/

theorem slot_of_after {α : Type} {a : RepoAct} {x : Except Exn (α × RunRepository)} {attemptId : UUID}
    (h : ∀ answer repo', x = .ok (answer, repo') →
      Slot a repo attemptId (repo.attempts.get? attemptId) (repo'.attempts.get? attemptId)) :
    Slot a repo attemptId (repo.attempts.get? attemptId) ((after repo x).attempts.get? attemptId) := by
  rcases after_cases repo x with heq | ⟨answer, heq⟩
  · rw [heq]
    exact .refl ..
  · exact h answer _ heq

/-- A write of one attempt, seen from any id. -/
theorem slot_of_set {a : RepoAct} {key attemptId : UUID} {new : AttemptRecord}
    (h : Slot a repo key (repo.attempts.get? key) (some new)) :
    Slot a repo attemptId (repo.attempts.get? attemptId) ((repo.attempts.set key new).get? attemptId) := by
  by_cases hid : attemptId = key
  · subst hid
    rwa [Dict.get?_set_self]
  · rw [Dict.get?_set_ne _ _ hid]
    exact .refl ..

theorem withResult_lease {attempt updated : AttemptRecord} {state : AttemptState} {result : ResultEnvelope}
    (h : attempt.withResult state result = .ok updated) :
    updated.runnerId = attempt.runnerId ∧ updated.leaseExpiresAt = attempt.leaseExpiresAt := by
  simp only [AttemptRecord.withResult, bind_eq_ok_iff, error_bind, ite_error_eq_ok_iff, pure_eq_ok_iff] at h
  obtain ⟨-, _, -, rfl⟩ := h
  exact ⟨rfl, rfl⟩

theorem slot_of_act (repo : RunRepository) (a : RepoAct) (attemptId : UUID) :
    Slot a repo attemptId (repo.attempts.get? attemptId) ((repo.act fingerprint a).attempts.get? attemptId) := by
  cases a with
  | createOrGet newId now engine parameters key =>
    simp only [act]
    split
    · exact .refl ..
    · apply slot_of_after
      intro answer repo' h
      rcases createOrGet_ok h with ⟨rfl, -⟩ | ⟨idempotency, -, rfl⟩ <;> exact .refl ..
  | transition runId target =>
    apply slot_of_after
    intro answer repo' h
    obtain ⟨run, -, -, -, rfl⟩ := transition_ok h
    exact .refl ..
  | cancel runId =>
    apply slot_of_after
    intro answer repo' h
    obtain ⟨run, -, -, ⟨-, rfl⟩ | ⟨-, rfl⟩⟩ := cancel_ok h <;> exact .refl ..
  | createAttempt runId given newId now =>
    apply slot_of_after
    intro answer repo' h
    obtain ⟨run, hrun, hnew, rfl, rfl⟩ := createAttempt_ok h
    apply slot_of_set
    rw [hnew]
    exact .born rfl (by simp [AttemptRecord.fresh, hrun])
  | beginAttempt runId key runnerId leaseSeconds now =>
    apply slot_of_after
    intro answer repo' h
    obtain ⟨run, claimed, hrun, -, hnew, hid, hrunId, -, -, -, rfl⟩ := beginAttempt_ok h
    apply slot_of_set
    rw [hnew]
    exact .born hid (by simp [hrunId, hrun])
  | claimAttempt key runnerId leaseSeconds now =>
    apply slot_of_after
    intro answer repo' h
    obtain ⟨attempt, hget, hclaimed, rfl⟩ := claimAttempt_ok h
    apply slot_of_set
    rw [hget]
    exact .touched (.claimed hclaimed)
  | transitionAttempt key target =>
    apply slot_of_after
    intro answer repo' h
    obtain ⟨attempt, hget, hmem, rfl, rfl⟩ := transitionAttempt_ok h
    apply slot_of_set
    rw [hget]
    exact .touched (.moved hmem (attempt.moved_same target) rfl rfl)
  | renewAttemptLease key runnerId leaseSeconds now =>
    apply slot_of_after
    intro answer repo' h
    simp only [renewAttemptLease, bind_eq_ok_iff, getAttemptLocked_ok_iff, pure_eq_ok_iff, Prod.mk.injEq] at h
    obtain ⟨attempt, hget, _, hbeat, rfl, rfl⟩ := h
    by_cases hid : attemptId = key
    · subst hid
      simp only [hget, Dict.get?_set_self]
      exact .touched (.renewed rfl hbeat)
    · simp only [Dict.get?_set_ne _ _ hid]
      exact .refl ..
  | completeAttempt key target result =>
    apply slot_of_after
    intro answer repo' h
    simp only [completeAttempt, bind_eq_ok_iff, getAttemptLocked_ok_iff, pure_eq_ok_iff, Prod.mk.injEq] at h
    obtain ⟨attempt, hget, _, hresult, rfl, rfl⟩ := h
    obtain ⟨hmem, hstate, hsame, -⟩ := AttemptRecord.withResult_ok hresult
    obtain ⟨hrunner, hlease⟩ := withResult_lease hresult
    apply slot_of_set
    rw [hget]
    exact .touched (.moved (hstate ▸ hmem) hsame hrunner hlease)
  | expireAttemptLeases cutoff =>
    simp only [act]
    rcases expireAttemptLeases_slot repo cutoff attemptId with hsame | ⟨old, new, hget, hexp, hlost, hnew⟩
    · rw [hsame]
      exact .refl ..
    · rw [hget, hnew]
      exact .touched (.expired rfl hexp hlost)
  | appendEvent event =>
    apply slot_of_after
    intro record repo' h
    rcases appendEvent_ok h with rfl | ⟨-, -, -, rfl⟩ <;> exact .refl ..

/-- A stored attempt stays stored. -/
theorem touched_of_act {a : RepoAct} {attemptId : UUID} {old : AttemptRecord}
    (h : repo.attempts.get? attemptId = some old) :
    ∃ new, (repo.act fingerprint a).attempts.get? attemptId = some new ∧ Touched a attemptId old new := by
  have hslot := @slot_of_act fingerprint repo a attemptId
  rw [h] at hslot
  generalize hnew : (repo.act fingerprint a).attempts.get? attemptId = slot at hslot
  cases hslot with
  | touched htouched => exact ⟨_, rfl, htouched⟩

/-! ## The two tables -/

/-- A stored run stays stored, and keeps its engine. -/
theorem run_of_write {a b : RunRepository} (h : Write a b) {runId : UUID} {run : RunRecord}
    (hrun : a.runs.get? runId = some run) : ∃ run', b.runs.get? runId = some run' ∧ run'.engine = run.engine := by
  rcases h.runs with heq | hwrite
  · exact ⟨run, by rw [heq]; exact hrun, rfl⟩
  · generalize b.runs = runs at hwrite
    cases hwrite with
    | create new hnew hstate =>
      refine ⟨run, ?_, rfl⟩
      rw [Dict.get?_set_ne _ _ ?_]
      · exact hrun
      · rintro rfl
        rw [hnew] at hrun
        cases hrun
    | move other old target hold hmem =>
      by_cases hid : runId = other
      · subst hid
        rw [hold] at hrun
        cases hrun
        exact ⟨_, Dict.get?_set_self _ _ _, rfl⟩
      · exact ⟨run, by rw [Dict.get?_set_ne _ _ hid]; exact hrun, rfl⟩

theorem run_of_act {a : RepoAct} (hf : Filed repo) {runId : UUID} {run : RunRecord}
    (hrun : repo.runs.get? runId = some run) :
    ∃ run', (repo.act fingerprint a).runs.get? runId = some run' ∧ run'.engine = run.engine := by
  refine (act_induct (P := fun b => ∃ run', b.runs.get? runId = some run' ∧ run'.engine = run.engine) ?_ repo a hf
    ⟨run, hrun, rfl⟩).2
  rintro b c - hw ⟨run', hrun', hengine⟩
  obtain ⟨run'', hrun'', hengine'⟩ := run_of_write hw hrun'
  exact ⟨run'', hrun'', hengine'.trans hengine⟩

/-- Runs and attempts are filed under their own ids, and an attempt belongs to a stored run. -/
structure Attached (repo : RunRepository) : Prop where
  filed : Filed repo
  id : ∀ attemptId attempt, repo.attempts.get? attemptId = some attempt → attempt.id = attemptId
  run : ∀ attemptId attempt, repo.attempts.get? attemptId = some attempt → (repo.runs.get? attempt.runId).isSome

theorem attached_empty : Attached empty where
  filed := by simp [Filed, empty]
  id := by simp [empty]
  run := by simp [empty]

theorem Attached.act (h : Attached repo) (a : RepoAct) : Attached (repo.act fingerprint a) := by
  have hfiled := (@act_induct fingerprint (fun _ => True) (fun _ _ _ _ _ => trivial) repo a h.filed trivial).1
  have hkept : ∀ runId, (repo.runs.get? runId).isSome → ((repo.act fingerprint a).runs.get? runId).isSome := by
    intro runId hsome
    obtain ⟨run, hrun⟩ := Option.isSome_iff_exists.mp hsome
    obtain ⟨run', hrun', -⟩ := @run_of_act fingerprint repo a h.filed runId run hrun
    simp [hrun']
  have hslot : ∀ attemptId attempt, (repo.act fingerprint a).attempts.get? attemptId = some attempt →
      attempt.id = attemptId ∧ (repo.runs.get? attempt.runId).isSome := by
    intro attemptId attempt hget
    have hslot := @slot_of_act fingerprint repo a attemptId
    rw [hget] at hslot
    generalize hold : repo.attempts.get? attemptId = slot at hslot
    cases hslot with
    | born hid hrun => exact ⟨hid, hrun⟩
    | touched htouched =>
      have hsame := htouched.sameIdentity
      exact ⟨hsame.id.trans (h.id _ _ hold), hsame.runId ▸ h.run _ _ hold⟩
  exact ⟨hfiled, fun id attempt hget => (hslot id attempt hget).1,
    fun id attempt hget => hkept _ (hslot id attempt hget).2⟩

/-- The repository after a list of operations. -/
def acts (fingerprint : Engine → Dict String Json → String) (repo : RunRepository) (l : List RepoAct) :
    RunRepository :=
  l.foldl (act fingerprint) repo

@[simp] theorem acts_nil : acts fingerprint repo [] = repo := rfl

@[simp] theorem acts_cons (a : RepoAct) (l : List RepoAct) :
    acts fingerprint repo (a :: l) = acts fingerprint (repo.act fingerprint a) l := rfl

/-- What every action keeps, a list of them keeps. -/
theorem acts_keep {P : RunRepository → Prop} (hstep : ∀ repo a, P repo → P (repo.act fingerprint a))
    (l : List RepoAct) (h : P repo) : P (acts fingerprint repo l) := by
  induction l generalizing repo with
  | nil => exact h
  | cons a rest ih => exact ih (hstep repo a h)

theorem attached_acts (l : List RepoAct) : Attached (acts fingerprint empty l) :=
  acts_keep (fun _ a h => h.act a) l attached_empty

end RunRepository

end SmartTest.Run
