import SmartTest.Broker.Grants
import SmartTest.Lib.Except

/-!
# What a broker call does in one step

The conditions under which the grant store issues and consumes, what each operation leaves
of the other grants, and that every call comes to the store with what it has read.
-/

open SmartTest.Lib SmartTest.Lib.Prog SmartTest.Run SmartTest.Environment

namespace SmartTest.Broker

/-! ## The grant store -/

/-- The attempt is active at `now`, and the runner holds its lease. -/
structure Holds (attempt : AttemptRecord) (runId : UUID) (runnerId : String) (now : Instant) : Prop where
  run : attempt.runId = runId
  runner : attempt.runnerId = some runnerId
  active : attempt.state = .preparing ∨ attempt.state = .running
  lease : ∃ lease, attempt.leaseExpiresAt = some lease ∧ now < lease

theorem validAttempt_ok {answer : Except Exn AttemptRecord} {binding : SecretGrantBinding} {now : Instant}
    {attempt : AttemptRecord} (h : validAttempt answer binding now = .ok attempt) :
    answer = .ok attempt ∧ Holds attempt binding.runId binding.runnerId now := by
  cases answer with
  | error e => cases h
  | ok found =>
    simp only [validAttempt, ite_error_eq_ok_iff, not_or, not_not, Except.ok.injEq] at h
    obtain ⟨⟨hrun, hrunner, hstate, hlease⟩, rfl⟩ := h
    refine ⟨rfl, hrun, hrunner, by simpa [ACTIVE_SECRET_STATES] using hstate, ?_⟩
    cases hexpires : found.leaseExpiresAt with
    | none => simp [hexpires] at hlease
    | some lease => exact ⟨lease, rfl, by simpa [hexpires] using hlease⟩

theorem issue_ok {grants grants' : Grants} {record : SecretGrantRecord} {now : Instant}
    {answer : Except Exn AttemptRecord} (h : grants.issue record now answer = .ok grants') :
    ∃ attempt lease, answer = .ok attempt ∧ attempt.leaseExpiresAt = some lease ∧
      grants.get? record.tokenDigest = none ∧
      grants' = grants.set record.tokenDigest { record with expiresAt := min record.expiresAt lease } := by
  simp only [Grants.issue, bind_eq_ok_iff] at h
  obtain ⟨attempt, hvalid, h⟩ := h
  obtain ⟨rfl, hholds⟩ := validAttempt_ok hvalid
  obtain ⟨lease, hlease, -⟩ := hholds.lease
  simp only [hlease] at h
  split at h
  · cases h
  · next hguard =>
    obtain ⟨-, hnew⟩ := not_or.mp hguard
    cases h
    exact ⟨attempt, lease, rfl, hlease, by simpa using hnew, rfl⟩

theorem consume_ok {grants grants' : Grants} {tokenDigest : String} {binding : SecretGrantBinding}
    {now : Instant} {answer : Except Exn AttemptRecord}
    (h : grants.consume tokenDigest binding now answer = .ok grants') :
    ∃ attempt record, answer = .ok attempt ∧ Holds attempt binding.runId binding.runnerId now ∧
      grants.get? tokenDigest = some record ∧ record.binding = binding ∧ now < record.expiresAt ∧
      record.live = true ∧ grants' = grants.set tokenDigest { record with consumedAt := some now } := by
  simp only [Grants.consume, bind_eq_ok_iff] at h
  obtain ⟨attempt, hvalid, h⟩ := h
  obtain ⟨rfl, hholds⟩ := validAttempt_ok hvalid
  cases hrecord : grants.get? tokenDigest with
  | none => simp [hrecord] at h
  | some record =>
    simp only [hrecord] at h
    split at h
    · cases h
    · next hguard =>
      simp only [not_or, not_not, not_le] at hguard
      obtain ⟨hbinding, hexpires, hconsumed, hrevoked⟩ := hguard
      cases h
      exact ⟨attempt, record, rfl, hholds, rfl, hbinding, hexpires,
        by simp [SecretGrantRecord.live, hconsumed, hrevoked], rfl⟩

/-- A record with its revocation, if it can still be revoked. -/
def SecretGrantRecord.revoked (record : SecretGrantRecord) (now : Instant) : SecretGrantRecord :=
  if record.live then { record with revokedAt := some now } else record

theorem get?_revoke (grants : Grants) (tokenDigest d : String) (now : Instant) :
    (grants.revoke tokenDigest now).get? d =
      if d = tokenDigest then (grants.get? d).map (·.revoked now) else grants.get? d := by
  unfold Grants.revoke
  cases hrecord : grants.get? tokenDigest with
  | none =>
    by_cases hd : d = tokenDigest
    · simp [hd, hrecord]
    · simp [hd]
  | some record =>
    by_cases hd : d = tokenDigest
    · subst hd
      by_cases hlive : record.live
      · simp [hlive, hrecord, SecretGrantRecord.revoked]
      · simp [hlive, hrecord, SecretGrantRecord.revoked]
    · by_cases hlive : record.live
      · simp [hlive, hd]
      · simp [hlive, hd]

/-- The loop of `revoke_attempt` over items that are among the grants. -/
theorem get?_revokeLoop (attemptId : UUID) (now : Instant) (d : String)
    (items : List (String × SecretGrantRecord)) (hnodup : (items.map Prod.fst).Nodup) (acc : Grants × Nat)
    (hacc : ∀ item ∈ items, acc.1.get? item.1 = some item.2) :
    (items.foldl (fun acc item =>
        if item.2.binding.attemptId = attemptId ∧ item.2.live then
          (acc.1.set item.1 { item.2 with revokedAt := some now }, acc.2 + 1)
        else acc) acc).1.get? d =
      if d ∈ items.map Prod.fst then
        (acc.1.get? d).map fun r => if r.binding.attemptId = attemptId then r.revoked now else r
      else acc.1.get? d := by
  induction items generalizing acc with
  | nil => simp
  | cons item rest ih =>
    obtain ⟨key, record⟩ := item
    simp only [List.map_cons, List.nodup_cons] at hnodup
    have hkey : acc.1.get? key = some record := hacc _ List.mem_cons_self
    have hrest : ∀ item ∈ rest, acc.1.get? item.1 = some item.2 := fun item h => hacc item (.tail _ h)
    have hne : ∀ item ∈ rest, item.1 ≠ key := fun item h he =>
      hnodup.1 (he ▸ List.mem_map_of_mem (f := Prod.fst) h)
    rw [List.foldl_cons]
    by_cases hrevoked : record.binding.attemptId = attemptId ∧ record.live = true
    · rw [if_pos hrevoked, ih hnodup.2 _ fun item h => by simp [hne item h, hrest item h]]
      by_cases hd : d = key
      · subst hd
        simp [hnodup.1, hkey, hrevoked.1, hrevoked.2, SecretGrantRecord.revoked]
      · simp only [List.map_cons, List.mem_cons, hd, false_or, Dict.get?_set, if_false]
    · rw [if_neg hrevoked, ih hnodup.2 _ hrest]
      by_cases hd : d = key
      · subst hd
        have hkept : record.binding.attemptId = attemptId → record.revoked now = record := by
          intro hattempt
          have hlive : record.live = false := by simpa [hattempt] using hrevoked
          simp [SecretGrantRecord.revoked, hlive]
        by_cases hattempt : record.binding.attemptId = attemptId
        · simp [hnodup.1, hkey, hattempt, hkept hattempt]
        · simp [hnodup.1, hkey, hattempt]
      · simp only [List.map_cons, List.mem_cons, hd, false_or]

theorem get?_revokeAttempt (grants : Grants) (attemptId : UUID) (now : Instant) (d : String) :
    (grants.revokeAttempt attemptId now).1.get? d =
      (grants.get? d).map fun r => if r.binding.attemptId = attemptId then r.revoked now else r := by
  have hloop := get?_revokeLoop attemptId now d grants.entries grants.nodup (grants, 0) fun item h =>
    (Dict.get?_eq_some_iff grants item.1 item.2).mpr h
  rw [Grants.revokeAttempt, hloop]
  by_cases hd : d ∈ grants.entries.map Prod.fst
  · rw [if_pos hd]
  · rw [if_neg hd, (Dict.get?_eq_none_iff grants d).mpr hd]
    rfl

/-! ## What calls bring to the store -/

variable (digest : String → String) (encryptor : SecretEncryptor) (ttlSeconds : Int)

/-- The effect of a step. -/
def Label.act (label : Label) (w : World) : World :=
  match label with
  | .read | .getAttempt _ => w
  | .issue occasion record => (World.onGrants (fun w => w.grants.issue record occasion.now occasion.answer) w).2
  | .consume occasion binding =>
    (World.onGrants (fun w =>
      w.grants.consume (digest occasion.token) binding occasion.now occasion.answer) w).2
  | .revoke token now => { w with grants := w.grants.revoke (digest token) now }
  | .revokeAttempt attemptId now => { w with grants := (w.grants.revokeAttempt attemptId now).1 }

/-- The binding a task and a runner stand for. -/
def bindingFor (task : FullTaskEnvelope) (runnerId : String) : Except Exn SecretGrantBinding := do
  let references ← canonicalSecretReferences task.secretReferences
  bindingOf task runnerId references

/-- The grant that a call asks for. -/
structure Asks (occasion : Occasion) (record : SecretGrantRecord) : Prop where
  digest : record.tokenDigest = digest occasion.token
  binding : bindingFor occasion.task occasion.runnerId = .ok record.binding
  expires : record.expiresAt = min (occasion.now.addSeconds ttlSeconds) occasion.task.deadline
  live : record.live = true

/-- A step that changes grants comes with the attempt its call has read, and `issue` and `redeem` come
with the same binding. -/
def Label.Justified (call : Nat) (log : List Event) : Label → Prop
  | .issue occasion record => Asks digest ttlSeconds occasion record ∧
      .read call occasion.task.attemptId occasion.answer ∈ log
  | .consume occasion binding => bindingFor occasion.task occasion.runnerId = .ok binding ∧
      .read call occasion.task.attemptId occasion.answer ∈ log
  | _ => True

/-- `validate_secret_references` answers with the canonical references. -/
theorem validateSecretReferences_ok {projectId environmentId : UUID} {revision : Nat}
    {repo : EnvironmentRepository} {references canonical : List SecretReference}
    (h : validateSecretReferences projectId environmentId revision repo references = .ok canonical) :
    canonicalSecretReferences references = .ok canonical := by
  simp only [validateSecretReferences, validatedRecord, bind_eq_ok_iff] at h
  obtain ⟨⟨record, found⟩, ⟨_, -, h⟩, hanswer⟩ := h
  have hfound : found = canonical := by
    split at hanswer
    · cases hanswer
    · cases hanswer
      rfl
  subst hfound
  split at h
  · cases h
  · split at h
    · cases h
    · rw [bind_eq_ok_iff] at h
      obtain ⟨sorted, hsorted, hpair⟩ := h
      cases hpair
      exact hsorted

theorem bindingFor_eq {task : FullTaskEnvelope} {runnerId : String} {references : List SecretReference}
    (h : canonicalSecretReferences task.secretReferences = .ok references) :
    bindingFor task runnerId = bindingOf task runnerId references := by
  rw [bindingFor, h, ok_bind]

theorem bindingOf_ok {task : FullTaskEnvelope} {runnerId : String} {references : List SecretReference}
    {binding : SecretGrantBinding} (h : bindingOf task runnerId references = .ok binding) :
    ∃ environmentId environmentRevision, task.environmentId = some environmentId ∧
      task.environmentRevision = some environmentRevision ∧ binding = ⟨task.taskId, task.tenantId,
        task.projectId, task.runId, task.attemptId, runnerId, environmentId, environmentRevision, references⟩ := by
  unfold bindingOf at h
  split at h
  · next environmentId environmentRevision hid hrevision =>
    cases h
    exact ⟨environmentId, environmentRevision, hid, hrevision, rfl⟩
  · cases h

end SmartTest.Broker
