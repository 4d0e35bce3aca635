import SmartTest.Run.Touch

/-!
# Who owns a lease

Claiming an attempt stores the runner's id without the white space around it, and a
heartbeat is compared with the stored id as it comes. So a runner owns its lease for as
long as it renews in time, provided its id has no white space around it.
-/

open SmartTest.Lib

namespace SmartTest.Run

variable {fingerprint : Engine → Dict String Json → String} {repo repo' : RunRepository}

namespace AttemptRecord

variable {attempt updated : AttemptRecord} {runnerId : String} {leaseSeconds : Int} {now : Instant}

theorem claimed_owner (h : attempt.claimed runnerId leaseSeconds now = .ok updated) :
    0 < leaseSeconds ∧ updated.runnerId = some (strip runnerId) := by
  simp only [claimed, bind_eq_ok_iff, error_bind, ite_error_eq_ok_iff, pure_eq_ok_iff] at h
  obtain ⟨-, hlease, _, -, rfl⟩ := h
  exact ⟨by omega, rfl⟩

theorem lost_owner (h : attempt.lost now = .ok updated) : updated.runnerId = attempt.runnerId := by
  simp only [lost, bind_eq_ok_iff, withState_ok_iff, pure_eq_ok_iff] at h
  obtain ⟨_, ⟨-, rfl⟩, rfl⟩ := h
  rfl

theorem withHeartbeat_ok_iff :
    attempt.withHeartbeat runnerId leaseSeconds now = .ok updated ↔
      attempt.state.leased = true ∧ attempt.runnerId = some runnerId ∧
      (∃ expiry, attempt.leaseExpiresAt = some expiry ∧ now < expiry) ∧ 0 < leaseSeconds ∧
      updated = { attempt with heartbeatAt := some now, leaseExpiresAt := some (now.addSeconds leaseSeconds) } := by
  have hlive : attempt.leaseExpiresAt.all (· ≤ now) = false ↔
      ∃ expiry, attempt.leaseExpiresAt = some expiry ∧ now < expiry := by
    cases attempt.leaseExpiresAt <;> simp
  simp only [withHeartbeat, error_bind, ite_error_eq_ok_iff, pure_eq_ok_iff, ← hlive, Bool.not_eq_true,
    Bool.not_eq_true', ne_eq, not_not, Int.not_le, Bool.not_eq_false]
  rw [eq_comm (a := updated)]

end AttemptRecord

namespace RunRepository

/-! ## The owner of a claimed attempt -/

/-- An attempt that was claimed for `owner` at some time. -/
structure Owned (owner : String) (attempt : AttemptRecord) : Prop where
  runner : attempt.runnerId = some owner
  state : attempt.state.leased = true ∨ attempt.state.terminal = true

theorem leased_or_terminal {s t : AttemptState} (hs : s.leased = true) (h : t ∈ ATTEMPT_TRANSITIONS s) :
    t.leased = true ∨ t.terminal = true := by
  revert hs h
  cases s <;> cases t <;>
    simp [AttemptState.leased, ATTEMPT_LEASED, AttemptState.terminal, ATTEMPT_TERMINAL, ATTEMPT_TRANSITIONS]

theorem claimed_not_mem {s : AttemptState} (h : s.leased = true ∨ s.terminal = true) :
    .claimed ∉ ATTEMPT_TRANSITIONS s := by
  revert h
  cases s <;>
    simp [AttemptState.leased, ATTEMPT_LEASED, AttemptState.terminal, ATTEMPT_TERMINAL, ATTEMPT_TRANSITIONS]

theorem Owned.moved {owner : String} {old new : AttemptRecord} (h : Owned owner old)
    (hmem : new.state ∈ ATTEMPT_TRANSITIONS old.state) : new.state.leased = true ∨ new.state.terminal = true := by
  rcases h.state with hleased | hterm
  · exact leased_or_terminal hleased hmem
  · exact absurd hmem (attempt_transitions_terminal hterm)

theorem Owned.touched {owner : String} {a : RepoAct} {attemptId : UUID} {old new : AttemptRecord}
    (h : Owned owner old) (htouched : Touched a attemptId old new) : Owned owner new := by
  cases htouched with
  | same => exact h
  | moved hmem hsame hrunner hlease => exact ⟨hrunner ▸ h.runner, h.moved hmem⟩
  | claimed hclaimed => exact absurd (AttemptRecord.claimed_ok hclaimed).1 (claimed_not_mem h.state)
  | renewed ha hbeat =>
    obtain ⟨-, -, -, -, rfl⟩ := AttemptRecord.withHeartbeat_ok_iff.mp hbeat
    exact ⟨h.runner, h.state⟩
  | expired ha hexp hlost =>
    obtain ⟨-, hstate, -⟩ := AttemptRecord.lost_ok hlost
    exact ⟨(AttemptRecord.lost_owner hlost).trans h.runner, .inr (by rw [hstate]; rfl)⟩

theorem owned_acts {owner : String} {attemptId : UUID} (l : List RepoAct)
    (h : ∃ attempt, repo.attempts.get? attemptId = some attempt ∧ Owned owner attempt) :
    ∃ attempt, (acts fingerprint repo l).attempts.get? attemptId = some attempt ∧ Owned owner attempt := by
  refine acts_keep (P := fun r => ∃ attempt, r.attempts.get? attemptId = some attempt ∧ Owned owner attempt) ?_ l h
  rintro r a ⟨attempt, hget, howned⟩
  obtain ⟨new, hnew, htouched⟩ := @touched_of_act fingerprint r a attemptId attempt hget
  exact ⟨new, hnew, howned.touched htouched⟩

/-! ## Heartbeats -/

/-- `begin_attempt` or `claim_attempt` accepted a runner and a lease. -/
def Claims (repo : RunRepository) (attemptId : UUID) (runnerId : String) (leaseSeconds : Int) (now : Instant)
    (repo' : RunRepository) : Prop :=
  (∃ runId answer, repo.beginAttempt runId attemptId runnerId leaseSeconds now = .ok (answer, repo')) ∨
    ∃ attempt, repo.claimAttempt attemptId runnerId leaseSeconds now = .ok (attempt, repo')

theorem Claims.record {attemptId : UUID} {runnerId : String} {leaseSeconds : Int} {now : Instant}
    (h : Claims repo attemptId runnerId leaseSeconds now repo') :
    0 < leaseSeconds ∧ ∃ attempt, repo'.attempts.get? attemptId = some attempt ∧ attempt.state = .claimed ∧
      attempt.runnerId = some (strip runnerId) ∧ attempt.leaseExpiresAt = some (now.addSeconds leaseSeconds) := by
  rcases h with ⟨runId, answer, h⟩ | ⟨attempt, h⟩
  · simp only [beginAttempt, bind_eq_ok_iff, error_bind, ite_error_eq_ok_iff, pure_eq_ok_iff, Prod.mk.injEq] at h
    obtain ⟨-, -, -, -, -, attempt, hclaimed, -, rfl⟩ := h
    obtain ⟨-, hstate, -, hlease⟩ := AttemptRecord.claimed_ok hclaimed
    obtain ⟨hpos, hrunner⟩ := AttemptRecord.claimed_owner hclaimed
    exact ⟨hpos, attempt, Dict.get?_set_self _ _ _, hstate, hrunner, hlease⟩
  · obtain ⟨_, -, hclaimed, rfl⟩ := claimAttempt_ok h
    obtain ⟨-, hstate, -, hlease⟩ := AttemptRecord.claimed_ok hclaimed
    obtain ⟨hpos, hrunner⟩ := AttemptRecord.claimed_owner hclaimed
    exact ⟨hpos, attempt, Dict.get?_set_self _ _ _, hstate, hrunner, hlease⟩

/-- A heartbeat of `runnerId` before the lease ends is taken, and moves the end of the lease. -/
def Renews (repo : RunRepository) (attemptId : UUID) (runnerId : String) : Prop :=
  ∀ attempt expiry now leaseSeconds, repo.attempts.get? attemptId = some attempt →
    attempt.state.leased = true → attempt.leaseExpiresAt = some expiry → now < expiry → 0 < leaseSeconds →
    ∃ updated, repo.renewAttemptLease attemptId runnerId leaseSeconds now =
        .ok (updated, { repo with attempts := repo.attempts.set attemptId updated }) ∧
      updated.leaseExpiresAt = some (now.addSeconds leaseSeconds)

/-- Any other heartbeat is refused, and changes nothing. -/
def RefusesOthers (fingerprint : Engine → Dict String Json → String) (repo : RunRepository) (attemptId : UUID)
    (runnerId : String) : Prop :=
  ∀ attempt other now leaseSeconds, repo.attempts.get? attemptId = some attempt →
    (strip other ≠ strip runnerId ∨ (∀ expiry, attempt.leaseExpiresAt = some expiry → expiry ≤ now) ∨
      attempt.state.leased = false) →
    (∃ error, repo.renewAttemptLease attemptId other leaseSeconds now = .error error) ∧
      repo.act fingerprint (.renewAttemptLease attemptId other leaseSeconds now) = repo

theorem renewAttemptLease_eq {attemptId : UUID} {runnerId : String} {leaseSeconds : Int} {now : Instant}
    {attempt : AttemptRecord} (hget : repo.attempts.get? attemptId = some attempt) :
    repo.renewAttemptLease attemptId runnerId leaseSeconds now =
      (attempt.withHeartbeat runnerId leaseSeconds now).map fun updated =>
        (updated, { repo with attempts := repo.attempts.set attemptId updated }) := by
  simp only [renewAttemptLease, getAttemptLocked_ok_iff.mpr hget, ok_bind]
  cases attempt.withHeartbeat runnerId leaseSeconds now <;> rfl

theorem renews_of_owner {attemptId : UUID} {runnerId : String} {attempt : AttemptRecord}
    (hget : repo.attempts.get? attemptId = some attempt) (howner : attempt.runnerId = some runnerId) :
    Renews repo attemptId runnerId := by
  intro stored expiry now leaseSeconds hstored hleased hexpiry hlive hpos
  obtain rfl : attempt = stored := Option.some.inj (hget.symm.trans hstored)
  have hbeat := AttemptRecord.withHeartbeat_ok_iff.mpr
    ⟨hleased, howner, ⟨expiry, hexpiry, hlive⟩, hpos, rfl⟩
  exact ⟨_, by rw [renewAttemptLease_eq hget, hbeat]; rfl, rfl⟩

theorem refuses_of_owner {attemptId : UUID} {runnerId : String} {attempt : AttemptRecord}
    (hget : repo.attempts.get? attemptId = some attempt) (howner : attempt.runnerId = some (strip runnerId)) :
    RefusesOthers fingerprint repo attemptId runnerId := by
  intro stored other now leaseSeconds hstored hwhy
  obtain rfl : attempt = stored := Option.some.inj (hget.symm.trans hstored)
  obtain ⟨error, hrefused⟩ : ∃ error, attempt.withHeartbeat other leaseSeconds now = .error error := by
    cases hbeat : attempt.withHeartbeat other leaseSeconds now with
    | error e => exact ⟨e, rfl⟩
    | ok updated =>
      obtain ⟨hleased, hsame, ⟨expiry, hexpiry, hlive⟩, -, -⟩ := AttemptRecord.withHeartbeat_ok_iff.mp hbeat
      rcases hwhy with hother | hover | hleft
      · obtain rfl : strip runnerId = other := Option.some.inj (howner.symm.trans hsame)
        exact absurd (strip_strip runnerId) hother
      · exact absurd (hover expiry hexpiry) (Int.not_le.mpr hlive)
      · rw [hleft] at hleased
        cases hleased
  have heq : repo.renewAttemptLease attemptId other leaseSeconds now = .error error := by
    rw [renewAttemptLease_eq hget, hrefused]
    rfl
  exact ⟨⟨error, heq⟩, by simp only [act, heq, after]⟩

/-! ## Heartbeats and sweeps -/

/-- The runner keeps ahead of the reaper: each of its heartbeats comes before the end of the lease it
asked for last, and so does each sweep. `expiry` is that end. -/
def InTime (attemptId : UUID) (runnerId : String) : Instant → List RepoAct → Prop
  | _, [] => True
  | expiry, .renewAttemptLease id runner leaseSeconds now :: rest =>
    if id = attemptId ∧ runner = runnerId then
      0 < leaseSeconds ∧ now < expiry ∧ InTime attemptId runnerId (now.addSeconds leaseSeconds) rest
    else InTime attemptId runnerId expiry rest
  | expiry, .expireAttemptLeases cutoff :: rest => cutoff < expiry ∧ InTime attemptId runnerId expiry rest
  | expiry, _ :: rest => InTime attemptId runnerId expiry rest

/-- No sweep of a run in which the runner keeps ahead touches its attempt. -/
def NeverSwept (fingerprint : Engine → Dict String Json → String) (repo : RunRepository) (attemptId : UUID)
    (runnerId : String) (expiry : Instant) : Prop :=
  ∀ before cutoff rest, InTime attemptId runnerId expiry (before ++ .expireAttemptLeases cutoff :: rest) →
    ((acts fingerprint repo before).expireAttemptLeases cutoff).2.attempts.get? attemptId =
      (acts fingerprint repo before).attempts.get? attemptId

/-- While the lease lasts, it ends when the runner's last call says. -/
structure Ahead (owner : String) (expiry : Instant) (attempt : AttemptRecord) : Prop where
  owned : Owned owner attempt
  expiry : attempt.state.leased = true → attempt.leaseExpiresAt = some expiry

theorem Ahead.not_expired {owner : String} {expiry cutoff : Instant} {attempt : AttemptRecord}
    (h : Ahead owner expiry attempt) (hcutoff : cutoff < expiry) : leaseExpired attempt cutoff = false := by
  cases hleased : attempt.state.leased with
  | false => simp [leaseExpired, hleased]
  | true =>
    have hnot : ¬ expiry ≤ cutoff := Int.not_le.mpr hcutoff
    simp [leaseExpired, h.expiry hleased, hnot]

theorem leased_of_mem {s t : AttemptState} (hs : s.leased = true ∨ s.terminal = true)
    (h : t ∈ ATTEMPT_TRANSITIONS s) : s.leased = true := by
  rcases hs with hs | hs
  · exact hs
  · exact absurd h (attempt_transitions_terminal hs)

/-- A step that is not a heartbeat of the owner, nor a sweep after the lease, leaves its end alone. -/
theorem Ahead.touched {owner : String} {expiry : Instant} {a : RepoAct} {attemptId : UUID}
    {old new : AttemptRecord} (h : Ahead owner expiry old) (htouched : Touched a attemptId old new)
    (hbeat : ∀ leaseSeconds now, a ≠ .renewAttemptLease attemptId owner leaseSeconds now)
    (hsweep : ∀ cutoff, a = .expireAttemptLeases cutoff → cutoff < expiry) : Ahead owner expiry new := by
  refine ⟨h.owned.touched htouched, ?_⟩
  intro hleased
  cases htouched with
  | same => exact h.expiry hleased
  | moved hmem hsame hrunner hlease => exact hlease.trans (h.expiry (leased_of_mem h.owned.state hmem))
  | claimed hclaimed => exact absurd (AttemptRecord.claimed_ok hclaimed).1 (claimed_not_mem h.owned.state)
  | renewed ha hrenewed =>
    obtain ⟨-, hrunner, -⟩ := AttemptRecord.withHeartbeat_ok_iff.mp hrenewed
    obtain rfl := Option.some.inj (h.owned.runner.symm.trans hrunner)
    exact absurd ha (hbeat _ _)
  | expired ha hexp hlost =>
    rw [h.not_expired (hsweep _ ha)] at hexp
    cases hexp

/-- A heartbeat of the owner before the end moves the end. -/
theorem Ahead.renewed {owner : String} {expiry now : Instant} {leaseSeconds : Int} {attemptId : UUID}
    {old new : AttemptRecord} (h : Ahead owner expiry old) (hget : repo.attempts.get? attemptId = some old)
    (hnew : (repo.act fingerprint (.renewAttemptLease attemptId owner leaseSeconds now)).attempts.get? attemptId =
      some new) (hpos : 0 < leaseSeconds) (hlive : now < expiry) :
    Ahead owner (now.addSeconds leaseSeconds) new := by
  cases hleased : old.state.leased with
  | true =>
    obtain ⟨updated, hrenewed, hexpiry⟩ :=
      renews_of_owner hget h.owned.runner old expiry now leaseSeconds hget hleased (h.expiry hleased) hlive hpos
    obtain ⟨stored, hstored, -, hstate, -, -, -⟩ := renewAttemptLease_ok hrenewed
    have hkept : updated.runnerId = old.runnerId := by
      simp only [renewAttemptLease_eq hget] at hrenewed
      cases hbeat : old.withHeartbeat owner leaseSeconds now with
      | error e => simp [hbeat, Except.map] at hrenewed
      | ok beaten =>
        obtain ⟨-, -, -, -, rfl⟩ := AttemptRecord.withHeartbeat_ok_iff.mp hbeat
        simp only [hbeat, Except.map, Except.ok.injEq, Prod.mk.injEq] at hrenewed
        rw [← hrenewed.1]
    obtain rfl : old = stored := Option.some.inj (hget.symm.trans hstored)
    simp only [act, hrenewed, after, Dict.get?_set_self, Option.some.injEq] at hnew
    subst hnew
    exact ⟨⟨hkept.trans h.owned.runner, .inl (hstate ▸ hleased)⟩, fun _ => hexpiry⟩
  | false =>
    -- The attempt is over: the heartbeat is refused, and it never has a lease again.
    have hrefused : repo.act fingerprint (.renewAttemptLease attemptId owner leaseSeconds now) = repo := by
      cases hbeat : old.withHeartbeat owner leaseSeconds now with
      | error e => simp only [act, renewAttemptLease_eq hget, hbeat, Except.map, after]
      | ok updated =>
        have := (AttemptRecord.withHeartbeat_ok_iff.mp hbeat).1
        rw [hleased] at this
        cases this
    rw [hrefused, hget] at hnew
    cases hnew
    exact ⟨h.owned, fun hleased' => by rw [hleased] at hleased'; cases hleased'⟩

theorem inTime_cons {attemptId : UUID} {owner : String} {expiry : Instant} {a : RepoAct} {rest : List RepoAct}
    (h : InTime attemptId owner expiry (a :: rest)) :
    (∃ leaseSeconds now, a = .renewAttemptLease attemptId owner leaseSeconds now ∧ 0 < leaseSeconds ∧
      now < expiry ∧ InTime attemptId owner (now.addSeconds leaseSeconds) rest) ∨
    (∀ leaseSeconds now, a ≠ .renewAttemptLease attemptId owner leaseSeconds now) ∧
      (∀ cutoff, a = .expireAttemptLeases cutoff → cutoff < expiry) ∧ InTime attemptId owner expiry rest := by
  cases a with
  | renewAttemptLease id runner leaseSeconds now =>
    simp only [InTime] at h
    split at h
    · next hsame =>
      obtain ⟨rfl, rfl⟩ := hsame
      exact .inl ⟨leaseSeconds, now, rfl, h⟩
    · next hother =>
      refine .inr ⟨?_, by simp, h⟩
      rintro leaseSeconds now ⟨⟩
      exact hother ⟨rfl, rfl⟩
  | expireAttemptLeases cutoff => exact .inr ⟨by simp, by simpa using h.1, h.2⟩
  | _ => exact .inr ⟨by simp, by simp, h⟩

theorem neverSwept_of_ahead {attemptId : UUID} {owner : String} {expiry : Instant} {attempt : AttemptRecord}
    (hget : repo.attempts.get? attemptId = some attempt) (h : Ahead owner expiry attempt) :
    NeverSwept fingerprint repo attemptId owner expiry := by
  intro before cutoff rest hin
  induction before generalizing repo expiry attempt with
  | nil =>
    rw [acts_nil]
    rcases expireAttemptLeases_slot repo cutoff attemptId with hsame | ⟨old, new, hold, hexp, -, -⟩
    · exact hsame
    · obtain rfl : attempt = old := Option.some.inj (hget.symm.trans hold)
      rw [h.not_expired hin.1] at hexp
      cases hexp
  | cons a before ih =>
    obtain ⟨new, hnew, htouched⟩ := @touched_of_act fingerprint repo a attemptId attempt hget
    rw [acts_cons]
    rcases inTime_cons hin with ⟨leaseSeconds, now, rfl, hpos, hlive, hrest⟩ | ⟨hbeat, hsweep, hrest⟩
    · exact ih hnew (h.renewed hget hnew hpos hlive) hrest
    · exact ih hnew (h.touched htouched hbeat hsweep) hrest

/-! ## Ownership -/

/-- From a claim on, whatever operations follow, the runner's heartbeats in time are taken, all others
are refused, and an attempt whose runner keeps ahead of the reaper is never given up. -/
def LeaseOwned (fingerprint : Engine → Dict String Json → String) (repo : RunRepository) (attemptId : UUID)
    (runnerId : String) (expiry : Instant) : Prop :=
  (∀ l, Renews (acts fingerprint repo l) attemptId runnerId ∧
    RefusesOthers fingerprint (acts fingerprint repo l) attemptId runnerId) ∧
  NeverSwept fingerprint repo attemptId runnerId expiry

theorem Claims.leaseOwned {attemptId : UUID} {runnerId : String} {leaseSeconds : Int} {now : Instant}
    (h : Claims repo attemptId runnerId leaseSeconds now repo') (hstrip : strip runnerId = runnerId) :
    LeaseOwned fingerprint repo' attemptId runnerId (now.addSeconds leaseSeconds) := by
  obtain ⟨-, attempt, hget, hstate, hrunner, hlease⟩ := h.record
  have howned : Owned (strip runnerId) attempt := ⟨hrunner, .inl (by rw [hstate]; rfl)⟩
  constructor
  · intro l
    obtain ⟨later, hlater, hkept⟩ := @owned_acts fingerprint repo' _ _ l ⟨attempt, hget, howned⟩
    exact ⟨renews_of_owner hlater (hstrip ▸ hkept.runner), refuses_of_owner hlater hkept.runner⟩
  · exact neverSwept_of_ahead hget ⟨hstrip ▸ howned, fun _ => hlease⟩

/-- Already the first heartbeat tells: it is taken under the stored id only. -/
theorem Claims.strip_of_leaseOwned {attemptId : UUID} {runnerId : String} {leaseSeconds : Int} {now : Instant}
    (h : Claims repo attemptId runnerId leaseSeconds now repo')
    (howned : LeaseOwned fingerprint repo' attemptId runnerId (now.addSeconds leaseSeconds)) :
    strip runnerId = runnerId := by
  obtain ⟨hpos, attempt, hget, hstate, hrunner, hlease⟩ := h.record
  have hlive : now < now.addSeconds leaseSeconds := by
    unfold Instant.addSeconds
    exact Int.lt_add_of_pos_right now (by omega)
  obtain ⟨updated, hrenewed, -⟩ :=
    (howned.1 []).1 attempt _ now leaseSeconds hget (by rw [hstate]; rfl) hlease hlive hpos
  rw [acts_nil, renewAttemptLease_eq hget] at hrenewed
  cases hbeat : attempt.withHeartbeat runnerId leaseSeconds now with
  | error e =>
    rw [hbeat] at hrenewed
    cases hrenewed
  | ok beaten =>
    obtain ⟨-, hsame, -⟩ := AttemptRecord.withHeartbeat_ok_iff.mp hbeat
    exact Option.some.inj (hrunner.symm.trans hsame)

end RunRepository

open RunRepository

/-- A runner owns the lease it was given if and only if its id has no white space around it. -/
theorem lease_owned_iff (fingerprint : Engine → Dict String Json → String) {repo repo' : RunRepository}
    {attemptId : UUID} {runnerId : String} {leaseSeconds : Int} {now : Instant}
    (h : Claims repo attemptId runnerId leaseSeconds now repo') :
    LeaseOwned fingerprint repo' attemptId runnerId (now.addSeconds leaseSeconds) ↔ strip runnerId = runnerId :=
  ⟨h.strip_of_leaseOwned, h.leaseOwned⟩

/-- A run is created and an attempt for it made. -/
def waiting : List RepoAct :=
  [.createOrGet ⟨"r"⟩ 0 .pytest .empty none, .createAttempt ⟨"r"⟩ none ⟨"a"⟩ 0]

theorem claims_waiting (runnerId : String)
    (h : ((acts (fun _ _ => "") .empty waiting).claimAttempt ⟨"a"⟩ runnerId 10 0).toOption.isSome = true) :
    ∃ repo', Claims (acts (fun _ _ => "") .empty waiting) ⟨"a"⟩ runnerId 10 0 repo' := by
  cases heq : (acts (fun _ _ => "") .empty waiting).claimAttempt ⟨"a"⟩ runnerId 10 0 with
  | error e =>
    rw [heq] at h
    cases h
  | ok answer => exact ⟨answer.2, .inr ⟨answer.1, heq⟩⟩

theorem runner_a_owns_lease :
    ∃ repo', Claims (acts (fun _ _ => "") .empty waiting) ⟨"a"⟩ "runner-a" 10 0 repo' ∧
      LeaseOwned (fun _ _ => "") repo' ⟨"a"⟩ "runner-a" 10000000 := by
  obtain ⟨repo', h⟩ := claims_waiting "runner-a" (by decide +kernel)
  exact ⟨repo', h, (lease_owned_iff (fun _ _ => "") h).mpr (by decide +kernel)⟩

/-- A runner that is accepted with a space before its id loses its lease. -/
theorem padded_runner_loses_lease :
    ∃ repo', Claims (acts (fun _ _ => "") .empty waiting) ⟨"a"⟩ " runner-a" 10 0 repo' ∧
      ¬ LeaseOwned (fun _ _ => "") repo' ⟨"a"⟩ " runner-a" 10000000 := by
  obtain ⟨repo', h⟩ := claims_waiting " runner-a" (by decide +kernel)
  refine ⟨repo', h, fun howned => ?_⟩
  have hstrip := h.strip_of_leaseOwned howned
  revert hstrip
  decide +kernel

end SmartTest.Run
