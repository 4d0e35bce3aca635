import SmartTest.Broker.Safety

/-!
# The guarantees of a capability

What holds of the history of every run: the rules of the calls carried through the pool,
in terms of tokens, tasks and runners.
-/

open SmartTest.Lib SmartTest.Lib.Prog SmartTest.Run SmartTest.Environment

namespace SmartTest.Broker

variable {digest : String → String} {encryptor : SecretEncryptor} {ttlSeconds : Int}

/-! ## Runs -/

/-- What the history has of a call that returned. -/
def Succeeded (call : Nat) (log : List Event) : Call → Prop
  | .issue task runnerId token _ => ∃ now answer, .issued call ⟨token, task, runnerId, now, answer⟩ ∈ log
  | .redeem token task runnerId => ∃ now answer, .redeemed call ⟨token, task, runnerId, now, answer⟩ ∈ log
  | .revoke token => .revoked token ∈ log
  | .revokeAttempt attemptId => .attemptRevoked attemptId ∈ log

theorem program_triple (call : Nat) (request : Call) :
    Triple (rules digest ttlSeconds call) (fun _ => True) (Call.program digest encryptor ttlSeconds request)
      (fun _ x => Succeeded call x.2 request) fun _ _ => True := by
  cases request with
  | issue task runnerId token grantId => exact issue_triple task runnerId token grantId
  | redeem token task runnerId =>
    exact .bind (redeem_triple encryptor token task runnerId) fun _ => .ret fun _ _ h => h
  | revoke token =>
    refine rejecting_triple (.bind (utcnow_triple lasting_true) fun now => ?_)
    exact step_triple lasting_true (fun w => rfl) (fun _ _ => trivial) fun w log a _ _ => by
      simp [noted, Succeeded]
  | revokeAttempt attemptId =>
    refine .bind (rejecting_triple (.bind (utcnow_triple lasting_true) fun now => ?_)) fun _ => .ret fun _ _ h => h
    exact step_triple lasting_true (fun w => rfl) (fun _ _ => trivial) fun w log a _ _ => by
      simp [noted, Succeeded]

theorem fits : Pool.Fits (machine digest encryptor ttlSeconds) (fun call _ => rules digest ttlSeconds call)
    (fun x => Consistent digest ttlSeconds x.1.grants x.2) fun _ _ => True where
  obs _ _ := rfl
  inv _ _ := rfl
  trust _ _ _ _ _ := trivial
  refl _ _ _ := List.Subset.refl _
  trans _ _ _ _ _ := List.Subset.trans
  others := by
    rintro _ _ _ _ _ x _ - - ⟨rfl, -⟩
    exact List.subset_append_left _ _
  idle _ _ _ _ _ _ _ _ _ := trivial
  outside _ _ h := ⟨h, fun _ _ => List.Subset.refl _, fun _ _ => trivial⟩

abbrev BrokerPool := Pool Call Label World (List Event) Exn

/-- Every state the broker can be in. -/
def Reachable (digest : String → String) (encryptor : SecretEncryptor) (ttlSeconds : Int) (outside : Outside) :
    BrokerPool → Prop :=
  Pool.Reaches (machine digest encryptor ttlSeconds) (fun _ _ => True) (start outside)

theorem sound {outside : Outside} {c : BrokerPool} (h : Reachable digest encryptor ttlSeconds outside c) :
    Pool.Sound (fun call _ => rules digest ttlSeconds call) (fun x => Consistent digest ttlSeconds x.1.grants x.2)
      (fun _ _ => True) (fun call request _ x => Succeeded call x.2 request) (fun _ _ _ _ => True) c := by
  refine Pool.Reaches.sound fits ?_ ?_ h
  · exact ⟨consistent_empty digest ttlSeconds, fun _ _ => trivial, fun _ _ _ h => by simp [start] at h⟩
  · intro c call request _ x hx _
    exact program_triple call request x hx trivial

theorem Succeeded.mono {call : Nat} {log log' : List Event} {request : Call} (hsub : log ⊆ log')
    (h : Succeeded call log request) : Succeeded call log' request := by
  cases request with
  | issue | redeem =>
    obtain ⟨now, answer, hmem⟩ := h
    exact ⟨now, answer, hsub hmem⟩
  | revoke | revokeAttempt => exact hsub h

/-- A call that returned is in the history. -/
theorem returned_noted {outside : Outside} {c : BrokerPool} (h : Reachable digest encryptor ttlSeconds outside c)
    {call : Nat} {request : Call} (hreturned : c.threads call = some (request, .ret ())) :
    Succeeded call c.history request := by
  obtain ⟨x, hrely, hsafe⟩ := (sound h).threads call request _ hreturned
  exact Succeeded.mono hrely hsafe

/-! ## Bindings -/

/-- The two occasions stand for one binding; the references are the same in any order. -/
structure SameBinding (a b : Occasion) : Prop where
  task : a.task.taskId = b.task.taskId
  tenant : a.task.tenantId = b.task.tenantId
  project : a.task.projectId = b.task.projectId
  run : a.task.runId = b.task.runId
  attempt : a.task.attemptId = b.task.attemptId
  runner : a.runnerId = b.runnerId
  environment : a.task.environmentId = b.task.environmentId
  revision : a.task.environmentRevision = b.task.environmentRevision
  references : a.task.secretReferences.Perm b.task.secretReferences

theorem canonical_perm {references canonical : List SecretReference}
    (h : canonicalSecretReferences references = .ok canonical) : canonical.Perm references := by
  unfold canonicalSecretReferences at h
  split at h
  · cases h
  · cases h
    exact List.perm_insertionSort _ _

theorem sameBinding_of_bindingFor {a b : Occasion} {binding : SecretGrantBinding}
    (ha : bindingFor a.task a.runnerId = .ok binding) (hb : bindingFor b.task b.runnerId = .ok binding) :
    SameBinding a b := by
  obtain ⟨ra, hra, hofa⟩ := (bind_eq_ok_iff _ _ _).mp ha
  obtain ⟨rb, hrb, hofb⟩ := (bind_eq_ok_iff _ _ _).mp hb
  obtain ⟨ea, va, hea, hva, rfl⟩ := bindingOf_ok hofa
  obtain ⟨eb, vb, heb, hvb, heq⟩ := bindingOf_ok hofb
  simp only [SecretGrantBinding.mk.injEq] at heq
  obtain ⟨htask, htenant, hproject, hrun, hattempt, hrunner, rfl, rfl, rfl⟩ := heq
  exact ⟨htask, htenant, hproject, hrun, hattempt, hrunner, by rw [hea, heb], by rw [hva, hvb],
    (canonical_perm hra).symm.trans (canonical_perm hrb)⟩

/-! ## Safety -/

def Event.token? : Event → Option String
  | .issued _ occasion | .redeemed _ occasion => some occasion.token
  | .revoked token => some token
  | .read _ _ _ | .attemptRevoked _ => none

/-- No two tokens of the history have one digest. -/
def DigestsDistinct (digest : String → String) (log : List Event) : Prop :=
  ∀ s ∈ log.filterMap Event.token?, ∀ t ∈ log.filterMap Event.token?, digest s = digest t → s = t

def Event.issuesToken (token : String) : Event → Bool
  | .issued _ occasion => occasion.token = token
  | _ => false

def Event.redeemsToken (token : String) : Event → Bool
  | .redeemed _ occasion => occasion.token = token
  | _ => false

/-- The redemption came strictly before the end of the grant: the issue's time with the TTL, the task's
deadline and the lease that the attempt had at the issue. -/
def InTime (ttlSeconds : Int) (issue redemption : Occasion) : Prop :=
  redemption.now < issue.now.addSeconds ttlSeconds ∧ redemption.now < issue.task.deadline ∧
    ∃ attempt lease, issue.answer = .ok attempt ∧ attempt.leaseExpiresAt = some lease ∧ redemption.now < lease

/-- What a state of the broker and the history that led to it promise. -/
structure CapabilitySafety (ttlSeconds : Int) (c : BrokerPool) : Prop where
  issuedOnce : ∀ token, (c.history.filter (Event.issuesToken token)).length ≤ 1
  once : ∀ token, (c.history.filter (Event.redeemsToken token)).length ≤ 1
  oneCall : ∀ token call task runnerId call' task' runnerId',
    c.threads call = some (.redeem token task runnerId, .ret ()) →
    c.threads call' = some (.redeem token task' runnerId', .ret ()) → call = call'
  noted : ∀ call token task runnerId, c.threads call = some (.redeem token task runnerId, .ret ()) →
    ∃ now answer, .redeemed call ⟨token, task, runnerId, now, answer⟩ ∈ c.history
  bound : ∀ call o, .redeemed call o ∈ c.history → ∃ call' o',
    [.issued call' o', .redeemed call o].Sublist c.history ∧ o'.token = o.token ∧ SameBinding o' o ∧
      InTime ttlSeconds o' o ∧ Attended c.history call o
  notRevoked : ∀ call o token call' o', token = o.token → o'.token = o.token →
    ¬ [.issued call o, .revoked token, .redeemed call' o'].Sublist c.history
  attemptNotRevoked : ∀ call o call' o', o'.token = o.token →
    ¬ [.issued call o, .attemptRevoked o.task.attemptId, .redeemed call' o'].Sublist c.history
  exclusive : ∀ record ∈ c.store.grants.values, ¬ (record.consumedAt.isSome ∧ record.revokedAt.isSome)

theorem redeemed_unique {log : List Event} {grants : Grants} (h : Consistent digest ttlSeconds grants log)
    {call call' : Nat} {o o' : Occasion} (hmem : .redeemed call o ∈ log) (hmem' : .redeemed call' o' ∈ log)
    (htoken : o.token = o'.token) : call = call' := by
  have hle := h.redeemed_once (digest o.token)
  have hin : Event.redeemed call o ∈ log.filter (Event.redeems digest (digest o.token)) :=
    List.mem_filter.mpr ⟨hmem, by simp [Event.redeems]⟩
  have hin' : Event.redeemed call' o' ∈ log.filter (Event.redeems digest (digest o.token)) :=
    List.mem_filter.mpr ⟨hmem', by simp [Event.redeems, htoken]⟩
  rcases hfilter : log.filter (Event.redeems digest (digest o.token)) with _ | ⟨e, _ | ⟨e', rest⟩⟩
  · simp [hfilter] at hin
  · rw [hfilter, List.mem_singleton] at hin hin'
    have heq := hin.trans hin'.symm
    injection heq
  · simp [hfilter] at hle

/-- In every state of every run, over all interleavings of broker calls with changes of attempts,
environments and clock, capabilities are safe. -/
theorem capability_safety (digest : String → String) (encryptor : SecretEncryptor) (ttlSeconds : Int)
    (outside : Outside) (c : BrokerPool) (h : Reachable digest encryptor ttlSeconds outside c)
    (hdistinct : DigestsDistinct digest c.history) : CapabilitySafety ttlSeconds c := by
  have hinv : Consistent digest ttlSeconds c.store.grants c.history := (sound h).inv
  have hnoted : ∀ call token task runnerId, c.threads call = some (.redeem token task runnerId, .ret ()) →
      ∃ now answer, .redeemed call ⟨token, task, runnerId, now, answer⟩ ∈ c.history :=
    fun call token task runnerId hreturned => returned_noted h hreturned
  refine ⟨?_, ?_, ?_, hnoted, ?_, ?_, ?_, ?_⟩
  · intro token
    refine (List.Sublist.length_le ?_).trans (hinv.issued_once (digest token))
    refine List.monotone_filter_right _ fun e he => ?_
    cases e with
    | issued call o => simp_all [Event.issuesToken, Event.issues]
    | _ => simp [Event.issuesToken] at he
  · intro token
    refine (List.Sublist.length_le ?_).trans (hinv.redeemed_once (digest token))
    refine List.monotone_filter_right _ fun e he => ?_
    cases e with
    | redeemed call o => simp_all [Event.redeemsToken, Event.redeems]
    | _ => simp [Event.redeemsToken] at he
  · intro token call task runnerId call' task' runnerId' hcall hcall'
    obtain ⟨_, _, hmem⟩ := hnoted _ _ _ _ hcall
    obtain ⟨_, _, hmem'⟩ := hnoted _ _ _ _ hcall'
    exact redeemed_unique hinv hmem hmem' rfl
  · intro call o hmem
    obtain ⟨call', o', hsub, hdigest, hcovers⟩ := hinv.redeemed_issued call o hmem
    obtain ⟨binding, hissue, hredeem⟩ := hcovers.binding
    have hissued : .issued call' o' ∈ c.history := hsub.subset (by simp)
    have htoken : o'.token = o.token := hdistinct _ (List.mem_filterMap.mpr ⟨_, hissued, rfl⟩) _
      (List.mem_filterMap.mpr ⟨_, hmem, rfl⟩) hdigest
    exact ⟨call', o', hsub, htoken, sameBinding_of_bindingFor hissue hredeem,
      ⟨hcovers.ttl, hcovers.deadline, hcovers.lease⟩, hinv.redeemed_attended call o hmem⟩
  · intro call o token call' o' htoken ho'
    exact hinv.not_after_revoke call o token call' o' (by rw [htoken]) (by rw [ho'])
  · intro call o call' o' ho'
    exact hinv.not_after_attempt call o call' o' (by rw [ho'])
  · rintro record hrecord ⟨hconsumed, hrevoked⟩
    obtain ⟨d, hd⟩ := (Dict.mem_values_iff _ _).mp hrecord
    rcases hinv.exclusive d record hd with hnone | hnone
    · simp [hnone] at hconsumed
    · simp [hnone] at hrevoked

/-! ## A capability redeemed -/

/-- SHA-256 on the token of the run below. -/
def tokenDigest (token : String) : String :=
  if token = "tok-1" then "65dcf16ea3dfa49069628089eb4a75483070f5584b2a21ee64912b5f621f12da" else token

def tokenTask : FullTaskEnvelope where
  runId := ⟨"r"⟩
  attemptId := ⟨"a"⟩
  engine := .http
  parameters := .empty
  executionPolicy := .plain .default
  taskId := ⟨"t"⟩
  tenantId := ⟨"n"⟩
  projectId := ⟨"p"⟩
  idempotencyKey := "k"
  createdAt := 0
  deadline := 30000000
  entrypoint := "login"
  runSpecId := none
  sourceRef := none
  contentDigest := none
  environmentVariables := .empty
  environmentId := some ⟨"e"⟩
  environmentRevision := some 2
  secretReferences := [⟨.commonParameter, "token", ⟨"s2"⟩⟩]

/-- The attempt of the task, preparing, with a lease of ten seconds. -/
def preparingAttempt : AttemptRecord :=
  { AttemptRecord.fresh ⟨"a"⟩ ⟨"r"⟩ 0 with
    state := .preparing, runnerId := some "node-1", leaseExpiresAt := some 10000000 }

def tokenOutside (clock : Instant) : Outside where
  runs := { RunRepository.empty with attempts := Dict.empty.set ⟨"a"⟩ preparingAttempt }
  environments := tokenActivated.2
  clock := clock

/-- A capability is issued at second 1 and redeemed at second 9. -/
def tokenMoves : List (Move Call Outside) :=
  .spawn 0 (.issue tokenTask "node-1" "tok-1" ⟨"g"⟩) :: List.replicate 4 (.step 0) ++
    .outside (tokenOutside 9000000) :: .spawn 1 (.redeem "tok-1" tokenTask "node-1") :: List.replicate 4 (.step 1)

def tokenRun : BrokerPool :=
  (start (tokenOutside 1000000)).runMoves (machine tokenDigest sizeTagEncryptor 60) tokenMoves

/-- Whether the second call has returned. -/
def tokenRedeemed : Bool :=
  match tokenRun.threads 1 with
  | some (.redeem token _ _, .ret _) => token = "tok-1"
  | _ => false

theorem tokenRun_evaluates : tokenRedeemed = true ∧ DigestsDistinct tokenDigest tokenRun.history := by
  unfold DigestsDistinct
  decide +kernel

theorem token_redeemed_in_time : ∃ o call' o', .redeemed 1 o ∈ tokenRun.history ∧ o.token = "tok-1" ∧
    [.issued call' o', .redeemed 1 o].Sublist tokenRun.history ∧ SameBinding o' o ∧ InTime 60 o' o := by
  have hsafe := capability_safety tokenDigest sizeTagEncryptor 60 (tokenOutside 1000000) tokenRun
    (Pool.reaches_runMoves _ _ _) tokenRun_evaluates.2
  have hredeemed := tokenRun_evaluates.1
  unfold tokenRedeemed at hredeemed
  split at hredeemed
  · next token task runnerId value hthread =>
    obtain ⟨now, answer, hmem⟩ := hsafe.noted 1 token task runnerId hthread
    obtain ⟨call', o', hsub, -, hsame, htime, -⟩ := hsafe.bound 1 _ hmem
    exact ⟨_, call', o', hmem, by simpa using hredeemed, hsub, hsame, htime⟩
  · simp at hredeemed

end SmartTest.Broker
