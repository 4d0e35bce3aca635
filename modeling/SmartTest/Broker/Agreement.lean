import SmartTest.Broker.Mirror

/-!
# The two grant stores agree

The store on SQL answers as the one in memory as long as no call breaks a constraint of its
table: one call at a time, and then every sequence of calls.
-/

open SmartTest.Lib SmartTest.Run

namespace SmartTest.Broker

/-! ## One call -/

/-- A call has the same answer from both stores exactly when it meets the constraints, and then they stay alike. -/
structure Agrees (columns : Columns) (scene : Scene) (grants : Grants) (table : GrantTable) (next : GrantCall) : Prop where
  answer : (table.call columns scene next).1 = (grants.call scene next).1 ↔ Meets columns scene grants next
  mirrors : Meets columns scene grants next →
    Mirrors (grants.call scene next).2 (table.call columns scene next).2

section Calls

variable {columns : Columns} {scene : Scene} {grants : Grants} {table : GrantTable}

theorem checked_fresh {record : SecretGrantRecord} (hconsumed : record.consumedAt = none)
    (hrevoked : record.revokedAt = none) : checked (toModel record) = true ↔ record.issuedAt < record.expiresAt := by
  unfold checked toModel
  simp [hconsumed, hrevoked]

/-- What the store on SQL makes of a record that it issues. -/
def SecretGrantRecord.issued (record : SecretGrantRecord) (expiresAt : Instant) : SecretGrantRecord :=
  { id := record.id, tokenDigest := record.tokenDigest, binding := record.binding
    issuedAt := record.issuedAt, expiresAt := expiresAt }

theorem issue_eq_ok_iff {grants' : Grants} {record : SecretGrantRecord} {now : Instant}
    {answer : Except Exn AttemptRecord} : grants.issue record now answer = .ok grants' ↔
      ∃ attempt lease, validAttempt answer record.binding now = .ok attempt ∧ attempt.leaseExpiresAt = some lease ∧
        now < min record.expiresAt lease ∧ grants.get? record.tokenDigest = none ∧
        grants.set record.tokenDigest { record with expiresAt := min record.expiresAt lease } = grants' := by
  unfold Grants.issue
  rw [bind_eq_ok_iff]
  constructor
  · rintro ⟨attempt, hvalid, h⟩
    cases hlease : attempt.leaseExpiresAt with
    | none =>
      rw [hlease] at h
      cases h
    | some lease =>
      simp only [hlease] at h
      obtain ⟨hnot, hset⟩ := (ite_error_eq_ok_iff _ _ _).mp h
      rw [not_or, not_le, Option.not_isSome_iff_eq_none] at hnot
      exact ⟨attempt, lease, hvalid, hlease, hnot.1, hnot.2, Except.ok.inj hset⟩
  · rintro ⟨attempt, lease, hvalid, hlease, hlt, hnone, rfl⟩
    refine ⟨attempt, hvalid, ?_⟩
    simp only [hlease]
    rw [if_neg (by rw [not_or, not_le, Option.not_isSome_iff_eq_none]; exact ⟨hlt, hnone⟩)]
    rfl

theorem sqlIssue_eq_ok_iff {table' : GrantTable} {record stored : SecretGrantRecord} {now : Instant} :
    GrantTable.issue columns scene table record now = .ok (stored, table') ↔
      ∃ attempt lease, validAttempt (scene.runs.getAttempt record.binding.attemptId) record.binding now = .ok attempt ∧
        attempt.leaseExpiresAt = some lease ∧ now < min record.expiresAt lease ∧
        record.issued (min record.expiresAt lease) = stored ∧
        GrantTable.insert columns scene table (toModel stored) = .ok table' := by
  unfold GrantTable.issue
  rw [GrantTable.rejecting_eq_ok_iff, bind_eq_ok_iff]
  constructor
  · rintro ⟨row, hvalid, h⟩
    rw [validAttempt_row, map_eq_ok_iff] at hvalid
    obtain ⟨attempt, hvalid, rfl⟩ := hvalid
    cases hlease : attempt.leaseExpiresAt with
    | none =>
      simp only [AttemptModel.of, hlease] at h
      cases h
    | some lease =>
      simp only [AttemptModel.of, hlease] at h
      obtain ⟨hnot, h⟩ := (ite_error_eq_ok_iff _ _ _).mp h
      obtain ⟨table'', hinsert, h⟩ := (bind_eq_ok_iff _ _ _).mp h
      cases h
      exact ⟨attempt, lease, hvalid, hlease, not_le.mp hnot, rfl, hinsert⟩
  · rintro ⟨attempt, lease, hvalid, hlease, hlt, rfl, hinsert⟩
    refine ⟨.of attempt, ?_, ?_⟩
    · rw [validAttempt_row, hvalid]
      rfl
    · simp only [AttemptModel.of, hlease]
      rw [if_neg (not_le.mpr hlt), bind_eq_ok_iff]
      exact ⟨table', hinsert, rfl⟩

theorem validAttempt_error {answer : Except Exn AttemptRecord} {binding : SecretGrantBinding} {now : Instant} {e : Exn}
    (h : validAttempt answer binding now = .error e) : e = capabilityRejected := by
  unfold validAttempt at h
  cases answer with
  | error e' =>
    cases h
    rfl
  | ok attempt =>
    simp only at h
    split at h
    · cases h
      rfl
    · cases h

theorem issue_error {record : SecretGrantRecord} {now : Instant} {answer : Except Exn AttemptRecord} {e : Exn}
    (h : grants.issue record now answer = .error e) : e = capabilityRejected := by
  unfold Grants.issue at h
  rcases (bind_eq_error_iff _ _ _).mp h with h | ⟨attempt, -, h⟩
  · exact validAttempt_error h
  · cases hlease : attempt.leaseExpiresAt with
    | none =>
      rw [hlease] at h
      cases h
      rfl
    | some lease =>
      simp only [hlease] at h
      split at h
      · cases h
        rfl
      · cases h

theorem Mirrors.get?_eq_none_iff (h : Mirrors grants table) (tokenDigest : String) :
    grants.get? tokenDigest = none ↔ ∀ row ∈ table, row.tokenDigest ≠ tokenDigest := by
  constructor
  · intro hnone row hmem heq
    obtain ⟨record, hget, rfl⟩ := (h.mem_iff row).mp hmem
    change record.tokenDigest = tokenDigest at heq
    rw [heq, hnone] at hget
    cases hget
  · intro hrows
    cases hget : grants.get? tokenDigest with
    | none => rfl
    | some record =>
      have hdigest := h.keyed hget
      have hmem := (h.mem_iff (toModel record)).mpr ⟨record, by rw [hdigest]; exact hget, rfl⟩
      exact absurd hdigest (hrows _ hmem)

theorem text_inj {a b : UUID} : a.text = b.text ↔ a = b := by
  obtain ⟨a⟩ := a
  obtain ⟨b⟩ := b
  simp

/-- What the table asks is what the insert checks. -/
theorem Mirrors.insert_iff (h : Mirrors grants table) (columns : Columns) (stored : SecretGrantRecord)
    {attempt : AttemptRecord}
    (hattempt : scene.runs.getAttempt stored.binding.attemptId = .ok attempt)
    (hnew : grants.get? stored.tokenDigest = none) (hconsumed : stored.consumedAt = none)
    (hrevoked : stored.revokedAt = none) (table' : GrantTable) :
    GrantTable.insert columns scene table (toModel stored) = .ok table' ↔
      TableAdmits columns scene grants stored ∧ table ++ [toModel stored] = table' := by
  have hrow : (scene.attemptRow (toModel stored).attemptId).isSome = true := by
    unfold RunRepository.getAttempt RunRepository.getAttemptLocked at hattempt
    unfold Scene.attemptRow
    change ((scene.runs.attempts.get? stored.binding.attemptId).map AttemptModel.of).isSome = true
    cases hfound : scene.runs.attempts.get? stored.binding.attemptId with
    | none =>
      rw [hfound] at hattempt
      cases hattempt
    | some found => rfl
  have hdigest := (h.get?_eq_none_iff stored.tokenDigest).mp hnew
  rw [GrantTable.insert_eq_ok_iff, checked_fresh hconsumed hrevoked]
  constructor
  · rintro ⟨hkeys, -, hrevision, hdates, hfits, htable⟩
    refine ⟨⟨hconsumed, hrevoked, ?_, hrevision, hdates, hfits⟩, htable⟩
    intro other hmem hid
    rw [h.rows] at hkeys
    exact (hkeys _ (List.mem_map_of_mem hmem)).1 (text_inj.mpr hid)
  · rintro ⟨hadmits, htable⟩
    refine ⟨?_, hrow, hadmits.revision, hadmits.dates, hadmits.fits, htable⟩
    intro other hmem
    refine ⟨?_, hdigest other hmem⟩
    rw [h.rows] at hmem
    obtain ⟨record, hrecord, rfl⟩ := List.mem_map.mp hmem
    exact fun hid => hadmits.newId record hrecord (text_inj.mp hid)

/-- A new row at the end of the table. -/
theorem Mirrors.insert (h : Mirrors grants table) (stored : SecretGrantRecord)
    (hnew : grants.get? stored.tokenDigest = none) (hvalid : stored.binding.Valid)
    (hchecked : Broker.checked (toModel stored) = true) :
    Mirrors (grants.set stored.tokenDigest stored) (table ++ [toModel stored]) := by
  constructor
  · rw [Dict.values_set_new _ _ _ hnew, List.map_append, ← h.rows]
    rfl
  · intro digest record hget
    rw [Dict.get?_set] at hget
    split at hget
    · next heq =>
      cases hget
      exact heq.symm
    · exact h.keyed hget
  · intro digest record hget
    rw [Dict.get?_set] at hget
    split at hget
    · cases hget
      exact hvalid
    · exact h.valid hget
  · intro digest record hget
    rw [Dict.get?_set] at hget
    split at hget
    · cases hget
      exact hchecked
    · exact h.checked hget

theorem sqlIssue_rejected {record : SecretGrantRecord} {now : Instant}
    (h : ∀ stored table', GrantTable.issue columns scene table record now ≠ .ok (stored, table')) :
    table.call columns scene (.issue record now) = (.error capabilityRejected, table) := by
  have hrejected : GrantTable.issue columns scene table record now = .error capabilityRejected := by
    cases hissue : GrantTable.issue columns scene table record now with
    | ok p => exact absurd hissue (h p.1 p.2)
    | error e =>
      unfold GrantTable.issue at hissue
      rw [GrantTable.rejecting_error hissue]
  unfold GrantTable.call
  simp only [hrejected]

theorem Mirrors.issue (h : Mirrors grants table) {record : SecretGrantRecord} (hvalid : record.binding.Valid)
    (now : Instant) : Agrees columns scene grants table (.issue record now) := by
  cases hissue : grants.issue record now (scene.runs.getAttempt record.binding.attemptId) with
  | error e =>
    obtain rfl := issue_error hissue
    have hmemory : grants.call scene (.issue record now) = (.error capabilityRejected, grants) := by
      unfold Grants.call
      simp only [hissue]
    have hsql : table.call columns scene (.issue record now) = (.error capabilityRejected, table) := by
      apply sqlIssue_rejected
      intro stored table' hok
      obtain ⟨attempt, lease, hfound, hlease, hlt, rfl, hinsert⟩ := sqlIssue_eq_ok_iff.mp hok
      have hnew := (h.get?_eq_none_iff record.tokenDigest).mpr
        fun row hmem => ((GrantTable.insert_eq_ok_iff.mp hinsert).1 row hmem).2
      have hok' := issue_eq_ok_iff.mpr ⟨attempt, lease, hfound, hlease, hlt, hnew, rfl⟩
      rw [hissue] at hok'
      cases hok'
    refine ⟨iff_of_true (by rw [hmemory, hsql]) ?_, fun _ => by rw [hmemory, hsql]; exact h⟩
    intro grants' stored hok
    rw [hissue] at hok
    cases hok
  | ok grants' =>
    obtain ⟨attempt, lease, hfound, hlease, hlt, hnew, rfl⟩ := issue_eq_ok_iff.mp hissue
    generalize hexpires : min record.expiresAt lease = expiresAt at *
    have hattempt := (validAttempt_ok hfound).1
    have hget : (grants.set record.tokenDigest { record with expiresAt := expiresAt }).get? record.tokenDigest =
        some { record with expiresAt := expiresAt } := Dict.get?_set_self _ _ _
    have hmemory : grants.call scene (.issue record now) = (.ok (.grant { record with expiresAt := expiresAt }),
        grants.set record.tokenDigest { record with expiresAt := expiresAt }) := by
      unfold Grants.call
      simp only [hissue]
      unfold Grants.stored
      rw [hget]
    have hmeets : Meets columns scene grants (.issue record now) ↔
        TableAdmits columns scene grants { record with expiresAt := expiresAt } := by
      constructor
      · exact fun hmeets => hmeets _ _ hissue hget
      · intro hadmits grants' stored hok hstored
        rw [hissue, Except.ok.injEq] at hok
        subst hok
        rw [hget, Option.some.injEq] at hstored
        rw [← hstored]
        exact hadmits
    -- The table stores the same record, or nothing.
    have hsql : TableAdmits columns scene grants { record with expiresAt := expiresAt } →
        table.call columns scene (.issue record now) = (.ok (.grant { record with expiresAt := expiresAt }),
          table ++ [toModel { record with expiresAt := expiresAt }]) := by
      intro hadmits
      have hsame : record.issued expiresAt = { record with expiresAt := expiresAt } := by
        have hconsumed : record.consumedAt = none := hadmits.consumed
        have hrevoked : record.revokedAt = none := hadmits.revoked
        unfold SecretGrantRecord.issued
        rw [hconsumed, hrevoked]
      have hinsert := (h.insert_iff columns { record with expiresAt := expiresAt } hattempt hnew hadmits.consumed
        hadmits.revoked _).mpr ⟨hadmits, rfl⟩
      have hok := sqlIssue_eq_ok_iff.mpr ⟨attempt, lease, hfound, hlease, hexpires ▸ hlt, hexpires ▸ hsame, hinsert⟩
      unfold GrantTable.call
      simp only [hok]
    constructor
    · rw [hmeets, hmemory]
      constructor
      · intro hanswer
        cases hok : GrantTable.issue columns scene table record now with
        | error e =>
          unfold GrantTable.call at hanswer
          simp only [hok] at hanswer
          cases hanswer
        | ok p =>
          obtain ⟨stored, table'⟩ := p
          obtain ⟨attempt', lease', hfound', hlease', -, rfl, hinsert⟩ := sqlIssue_eq_ok_iff.mp hok
          unfold GrantTable.call at hanswer
          simp only [hok, Except.ok.injEq, GrantAnswer.grant.injEq] at hanswer
          rw [← hanswer]
          rw [hfound, Except.ok.injEq] at hfound'
          subst hfound'
          rw [hlease, Option.some.injEq] at hlease'
          subst hlease'
          rw [hexpires] at hinsert ⊢
          exact ((h.insert_iff columns (record.issued expiresAt) hattempt hnew rfl rfl _).mp hinsert).1
      · intro hadmits
        rw [hsql hadmits]
    · intro hmeets'
      have hadmits := hmeets.mp hmeets'
      rw [hmemory, hsql hadmits]
      exact h.insert { record with expiresAt := expiresAt } hnew hvalid
        ((checked_fresh hadmits.consumed hadmits.revoked).mpr hadmits.dates)

/-! ## Marks -/

/-- The row with the time of its redemption. -/
def markConsumed (now : Instant) (row : SecretCapabilityGrantModel) : SecretCapabilityGrantModel :=
  { row with consumedAt := some now }

/-- The row with the time of its revocation. -/
def markRevoked (now : Instant) (row : SecretCapabilityGrantModel) : SecretCapabilityGrantModel :=
  { row with revokedAt := some now }

theorem live_iff {record : SecretGrantRecord} : record.live = true ↔ record.consumedAt = none ∧ record.revokedAt = none := by
  unfold SecretGrantRecord.live
  simp

theorem checked_consumed {record : SecretGrantRecord} {now : Instant} (hlive : record.live = true)
    (hchecked : checked (toModel record) = true) :
    checked (markConsumed now (toModel record)) = true ↔ record.issuedAt ≤ now := by
  obtain ⟨hconsumed, hrevoked⟩ := live_iff.mp hlive
  have hdates := (checked_fresh hconsumed hrevoked).mp hchecked
  unfold checked markConsumed toModel
  simp [hrevoked, hdates]

theorem checked_revoked {record : SecretGrantRecord} {now : Instant} (hlive : record.live = true)
    (hchecked : checked (toModel record) = true) :
    checked (markRevoked now (toModel record)) = true ↔ record.issuedAt ≤ now := by
  obtain ⟨hconsumed, hrevoked⟩ := live_iff.mp hlive
  have hdates := (checked_fresh hconsumed hrevoked).mp hchecked
  unfold checked markRevoked toModel
  simp [hconsumed, hdates]

theorem Mirrors.get?_self (h : Mirrors grants table) {record : SecretGrantRecord} (hmem : record ∈ grants.values) :
    grants.get? record.tokenDigest = some record := by
  obtain ⟨digest, hget⟩ := (grants.mem_values_iff record).mp hmem
  rw [h.keyed hget]
  exact hget

/-- A statement that marks live rows goes through exactly when none of them was issued later. -/
theorem Mirrors.marks_iff (h : Mirrors grants table) (chosen : SecretCapabilityGrantModel → Bool)
    (change : SecretCapabilityGrantModel → SecretCapabilityGrantModel) (now : Instant)
    (hlive : ∀ record, chosen (toModel record) = true → record.live = true)
    (hchange : ∀ record, record.live = true → Broker.checked (toModel record) = true →
      (Broker.checked (change (toModel record)) = true ↔ record.issuedAt ≤ now)) :
    (∀ row ∈ table, chosen row = true → Broker.checked (change row) = true) ↔
      ∀ record ∈ grants.values, chosen (toModel record) = true → record.issuedAt ≤ now := by
  rw [h.rows]
  constructor
  · intro hrows record hmem hchosen
    exact (hchange record (hlive record hchosen) (h.checked (h.get?_self hmem))).mp
      (hrows _ (List.mem_map_of_mem hmem) hchosen)
  · intro hrecords row hmem hchosen
    obtain ⟨record, hrecord, rfl⟩ := List.mem_map.mp hmem
    exact (hchange record (hlive record hchosen) (h.checked (h.get?_self hrecord))).mpr
      (hrecords record hrecord hchosen)

/-! ## Redeeming -/

theorem consume_error {tokenDigest : String} {binding : SecretGrantBinding} {now : Instant}
    {answer : Except Exn AttemptRecord} {e : Exn} (h : grants.consume tokenDigest binding now answer = .error e) :
    e = capabilityRejected := by
  unfold Grants.consume at h
  rcases (bind_eq_error_iff _ _ _).mp h with h | ⟨attempt, -, h⟩
  · exact validAttempt_error h
  · cases hget : grants.get? tokenDigest with
    | none =>
      rw [hget] at h
      cases h
      rfl
    | some record =>
      simp only [hget] at h
      split at h
      · cases h
        rfl
      · cases h

theorem consume_of_redeemable {record : SecretGrantRecord} {binding : SecretGrantBinding} {now : Instant}
    {answer : Except Exn AttemptRecord} {attempt : AttemptRecord} (hvalid : validAttempt answer binding now = .ok attempt)
    {tokenDigest : String} (hget : grants.get? tokenDigest = some record)
    (hredeemable : GrantTable.redeemable tokenDigest binding now (toModel record) = true) :
    grants.consume tokenDigest binding now answer =
      .ok (grants.set tokenDigest { record with consumedAt := some now }) := by
  obtain ⟨-, hbinding, hexpires, hlive⟩ := redeemable_toModel.mp hredeemable
  obtain ⟨hconsumed, hrevoked⟩ := live_iff.mp hlive
  unfold Grants.consume
  rw [hvalid, ok_bind]
  simp only [hget]
  rw [if_neg]
  · rfl
  · simp only [not_or, not_not, not_le]
    exact ⟨hbinding, hexpires, hconsumed, hrevoked⟩

theorem Mirrors.digests (h : Mirrors grants table) : (table.map (·.tokenDigest)).Nodup := by
  have hkeys : table.map (·.tokenDigest) = grants.keys := by
    rw [h.rows, List.map_map, Dict.keys, Dict.values, List.map_map]
    apply List.map_congr_left
    intro entry hmem
    exact h.keyed ((Dict.get?_eq_some_iff grants entry.1 entry.2).mpr hmem)
  rw [hkeys]
  exact grants.nodup

/-- Of the rows of a digest there is one at most. -/
theorem Mirrors.countP_eq_one (h : Mirrors grants table) {chosen : SecretCapabilityGrantModel → Bool}
    {tokenDigest : String} (hdigest : ∀ row, chosen row = true → row.tokenDigest = tokenDigest)
    {row : SecretCapabilityGrantModel} (hmem : row ∈ table) (hchosen : chosen row = true) : table.countP chosen = 1 := by
  have hnodup := h.digests
  obtain ⟨before, after, rfl⟩ := List.append_of_mem hmem
  rw [List.map_append, List.map_cons, List.nodup_append, List.nodup_cons] at hnodup
  obtain ⟨-, ⟨hafter, -⟩, hbefore⟩ := hnodup
  have hnone : ∀ other, other.tokenDigest ≠ row.tokenDigest → chosen other = false := by
    intro other hne
    cases hother : chosen other with
    | false => rfl
    | true => exact absurd ((hdigest other hother).trans (hdigest row hchosen).symm) hne
  have hzero : before.countP chosen = 0 := by
    rw [List.countP_eq_zero]
    intro other hother
    rw [hnone other (hbefore _ (List.mem_map_of_mem hother) _ List.mem_cons_self)]
    decide
  have hzero' : after.countP chosen = 0 := by
    rw [List.countP_eq_zero]
    intro other hother
    rw [hnone other fun heq => hafter (heq ▸ List.mem_map_of_mem hother)]
    decide
  rw [List.countP_append, List.countP_cons_of_pos hchosen, hzero, hzero']

theorem redeemable_digest {tokenDigest : String} {binding : SecretGrantBinding} {now : Instant}
    (row : SecretCapabilityGrantModel) (h : GrantTable.redeemable tokenDigest binding now row = true) :
    row.tokenDigest = tokenDigest := by
  unfold GrantTable.redeemable at h
  simp only [Bool.and_eq_true, decide_eq_true_eq] at h
  exact h.1.1.1.1.1.1.1.1.1.1.1.1

theorem sqlConsume_eq_ok_iff {table' : GrantTable} {tokenDigest : String} {binding : SecretGrantBinding} {now : Instant}
    {consumed : SecretGrantRecord} : GrantTable.consume scene table tokenDigest binding now = .ok (consumed, table') ↔
      ∃ attempt model, validAttempt (scene.runs.getAttempt binding.attemptId) binding now = .ok attempt ∧
        GrantTable.update table (GrantTable.redeemable tokenDigest binding now) (markConsumed now) = .ok (1, table') ∧
        table'.find? (·.tokenDigest = tokenDigest) = some model ∧ toRecord model = .ok consumed := by
  unfold GrantTable.consume
  rw [GrantTable.rejecting_eq_ok_iff, bind_eq_ok_iff]
  constructor
  · rintro ⟨row, hvalid, h⟩
    rw [validAttempt_row, map_eq_ok_iff] at hvalid
    obtain ⟨attempt, hvalid, -⟩ := hvalid
    obtain ⟨⟨count, left⟩, hupdate, h⟩ := (bind_eq_ok_iff _ _ _).mp h
    simp only at h
    obtain ⟨hcount, h⟩ := (ite_error_eq_ok_iff _ _ _).mp h
    obtain rfl := not_not.mp hcount
    cases hfind : left.find? (·.tokenDigest = tokenDigest) with
    | none =>
      rw [hfind] at h
      cases h
    | some model =>
      simp only [hfind] at h
      obtain ⟨record, hrecord, h⟩ := (bind_eq_ok_iff _ _ _).mp h
      cases h
      exact ⟨attempt, model, hvalid, hupdate, hfind, hrecord⟩
  · rintro ⟨attempt, model, hvalid, hupdate, hfind, hrecord⟩
    refine ⟨.of attempt, ?_, ?_⟩
    · rw [validAttempt_row, hvalid]
      rfl
    · rw [bind_eq_ok_iff]
      refine ⟨(1, table'), hupdate, ?_⟩
      simp only [hfind, hrecord]
      rfl

theorem sqlConsume_rejected {tokenDigest : String} {binding : SecretGrantBinding} {now : Instant}
    (h : ∀ record table', GrantTable.consume scene table tokenDigest binding now ≠ .ok (record, table')) :
    table.call columns scene (.consume tokenDigest binding now) = (.error capabilityRejected, table) := by
  have hrejected : GrantTable.consume scene table tokenDigest binding now = .error capabilityRejected := by
    cases hconsume : GrantTable.consume scene table tokenDigest binding now with
    | ok p => exact absurd hconsume (h p.1 p.2)
    | error e =>
      unfold GrantTable.consume at hconsume
      rw [GrantTable.rejecting_error hconsume]
  unfold GrantTable.call
  simp only [hrejected]

theorem Mirrors.consume (h : Mirrors grants table) (tokenDigest : String) (binding : SecretGrantBinding)
    (now : Instant) : Agrees columns scene grants table (.consume tokenDigest binding now) := by
  cases hconsume : grants.consume tokenDigest binding now (scene.runs.getAttempt binding.attemptId) with
  | error e =>
    obtain rfl := consume_error hconsume
    have hmemory : grants.call scene (.consume tokenDigest binding now) = (.error capabilityRejected, grants) := by
      unfold Grants.call
      simp only [hconsume]
    have hsql : table.call columns scene (.consume tokenDigest binding now) = (.error capabilityRejected, table) := by
      apply sqlConsume_rejected
      intro record table' hok
      obtain ⟨attempt, model, hvalid, hupdate, -, -⟩ := sqlConsume_eq_ok_iff.mp hok
      obtain ⟨-, hcount, -⟩ := GrantTable.update_eq_ok_iff.mp hupdate
      -- One row was chosen, so the grant in memory is redeemed as well.
      obtain ⟨row, hmem, hchosen⟩ := List.countP_pos_iff.mp (by rw [hcount]; exact Nat.one_pos)
      obtain ⟨found, hget, rfl⟩ := (h.mem_iff row).mp hmem
      have hdigest : found.tokenDigest = tokenDigest := redeemable_digest _ hchosen
      rw [hdigest] at hget
      rw [consume_of_redeemable hvalid hget hchosen] at hconsume
      cases hconsume
    refine ⟨iff_of_true (by rw [hmemory, hsql]) ?_, fun _ => by rw [hmemory, hsql]; exact h⟩
    intro grants' record hok
    rw [hconsume] at hok
    cases hok
  | ok grants' =>
    obtain ⟨attempt, record, hanswer, hholds, hget, hbinding, hexpires, hlive, rfl⟩ := consume_ok hconsume
    have hdigest := h.keyed hget
    have hreferences : record.binding.Valid := h.valid hget
    have hchosen : GrantTable.redeemable tokenDigest binding now (toModel record) = true :=
      redeemable_toModel.mpr ⟨hdigest, hbinding, hexpires, hlive⟩
    have hmem : record ∈ grants.values := (grants.mem_values_iff record).mpr ⟨_, hget⟩
    have hrow : toModel record ∈ table := (h.mem_iff _).mpr ⟨record, by rw [hdigest]; exact hget, rfl⟩
    have hvalid : ∃ attempt, validAttempt (scene.runs.getAttempt binding.attemptId) binding now = .ok attempt := by
      unfold Grants.consume at hconsume
      obtain ⟨attempt, hvalid, -⟩ := (bind_eq_ok_iff _ _ _).mp hconsume
      exact ⟨attempt, hvalid⟩
    obtain ⟨attempt', hvalid⟩ := hvalid
    have hmemory : grants.call scene (.consume tokenDigest binding now) =
        (.ok (.grant { record with consumedAt := some now }),
          grants.set tokenDigest { record with consumedAt := some now }) := by
      unfold Grants.call
      simp only [hconsume]
      unfold Grants.stored
      rw [Dict.get?_set_self]
    have hmeets : Meets columns scene grants (.consume tokenDigest binding now) ↔ record.issuedAt ≤ now := by
      constructor
      · exact fun hmeets => hmeets _ _ hconsume hget
      · intro hle grants'' record' _ hget'
        rw [hget, Option.some.injEq] at hget'
        rw [← hget']
        exact hle
    have honly : ∀ other ∈ grants.values,
        GrantTable.redeemable tokenDigest binding now (toModel other) = true → other = record := by
      intro other hother hredeemable
      have hsame := h.get?_self hother
      rw [(redeemable_toModel.mp hredeemable).1, hget, Option.some.injEq] at hsame
      exact hsame.symm
    have hmarks := h.marks_iff (GrantTable.redeemable tokenDigest binding now) (markConsumed now) now
      (fun other hredeemable => (redeemable_toModel.mp hredeemable).2.2.2) fun other => checked_consumed
    have hcan : (∀ row ∈ table, GrantTable.redeemable tokenDigest binding now row = true →
        Broker.checked (markConsumed now row) = true) ↔ record.issuedAt ≤ now := by
      rw [hmarks]
      constructor
      · exact fun hall => hall record hmem hchosen
      · intro hle other hother hredeemable
        rw [honly other hother hredeemable]
        exact hle
    have hafter : record.issuedAt ≤ now → Mirrors (grants.set tokenDigest { record with consumedAt := some now })
        (table.map fun row => if GrantTable.redeemable tokenDigest binding now row then markConsumed now row else row) := by
      intro hle
      refine h.update (fun r => { r with consumedAt := some now }) (Dict.keys_set_old _ _ _ _ hget) ?_
        (fun _ => rfl) (fun _ => rfl) (fun _ => rfl) (hcan.mpr hle)
      intro digest other hother
      rw [Dict.get?_set]
      by_cases hsame : digest = tokenDigest
      · rw [hsame, hget, Option.some.injEq] at hother
        rw [if_pos hsame, ← hother, if_pos hchosen]
      · rw [if_neg hsame, if_neg, hother]
        intro hredeemable
        exact hsame ((h.keyed hother).symm.trans (redeemable_toModel.mp hredeemable).1)
    have hsql : record.issuedAt ≤ now → table.call columns scene (.consume tokenDigest binding now) =
        (.ok (.grant { record with consumedAt := some now }),
          table.map fun row => if GrantTable.redeemable tokenDigest binding now row then markConsumed now row else row) := by
      intro hle
      have hok := sqlConsume_eq_ok_iff.mpr ⟨attempt', toModel { record with consumedAt := some now }, hvalid,
        GrantTable.update_eq_ok_iff.mpr ⟨hcan.mpr hle, h.countP_eq_one redeemable_digest hrow hchosen, rfl⟩,
        by rw [(hafter hle).find?, Dict.get?_set_self]; rfl, toRecord_toModel hreferences⟩
      unfold GrantTable.call
      simp only [hok]
    constructor
    · rw [hmeets, hmemory]
      constructor
      · intro hanswer'
        cases hok : GrantTable.consume scene table tokenDigest binding now with
        | error e =>
          unfold GrantTable.call at hanswer'
          simp only [hok] at hanswer'
          cases hanswer'
        | ok p =>
          obtain ⟨-, -, -, hupdate, -, -⟩ := sqlConsume_eq_ok_iff.mp hok
          exact hcan.mp (GrantTable.update_eq_ok_iff.mp hupdate).1
      · intro hle
        rw [hsql hle]
    · intro hmeets'
      have hle := hmeets.mp hmeets'
      rw [hmemory, hsql hle]
      exact hafter hle

/-! ## Revoking -/

/-- Rows of the grants that can still be revoked, of those that `picked` says. -/
def revocable (picked : SecretCapabilityGrantModel → Bool) (row : SecretCapabilityGrantModel) : Bool :=
  picked row && row.consumedAt.isNone && row.revokedAt.isNone

theorem revocable_toModel {picked : SecretCapabilityGrantModel → Bool} {record : SecretGrantRecord} :
    revocable picked (toModel record) = true ↔ picked (toModel record) = true ∧ record.live = true := by
  unfold revocable SecretGrantRecord.live
  simp only [Bool.and_eq_true, and_assoc]
  rfl

/-- Revoking on SQL what the store in memory has revoked under the same digests. -/
theorem Mirrors.revocation (h : Mirrors grants table) (grants' : Grants) (picked : SecretCapabilityGrantModel → Bool)
    (now : Instant) (hkeys : grants'.keys = grants.keys)
    (hget : ∀ digest record, grants.get? digest = some record →
      grants'.get? digest = some (if picked (toModel record) then record.revoked now else record)) :
    ((∀ row ∈ table, revocable picked row = true → Broker.checked (markRevoked now row) = true) ↔
      ∀ record ∈ grants.values, picked (toModel record) = true → record.live = true → record.issuedAt ≤ now) ∧
    ((∀ row ∈ table, revocable picked row = true → Broker.checked (markRevoked now row) = true) →
      Mirrors grants' (table.map fun row => if revocable picked row then markRevoked now row else row)) := by
  have hmarks := h.marks_iff (revocable picked) (markRevoked now) now
    (fun record hchosen => (revocable_toModel.mp hchosen).2) fun record => checked_revoked
  constructor
  · rw [hmarks]
    constructor
    · exact fun hall record hmem hpicked hlive => hall record hmem (revocable_toModel.mpr ⟨hpicked, hlive⟩)
    · intro hall record hmem hchosen
      obtain ⟨hpicked, hlive⟩ := revocable_toModel.mp hchosen
      exact hall record hmem hpicked hlive
  · intro hchecked
    refine h.update (fun r => { r with revokedAt := some now }) hkeys ?_ (fun _ => rfl) (fun _ => rfl) (fun _ => rfl)
      hchecked
    intro digest record hrecord
    rw [hget digest record hrecord]
    congr 1
    by_cases hpicked : picked (toModel record) = true
    · rw [if_pos hpicked]
      unfold SecretGrantRecord.revoked
      by_cases hlive : record.live = true
      · rw [if_pos hlive, if_pos (revocable_toModel.mpr ⟨hpicked, hlive⟩)]
      · rw [if_neg hlive, if_neg fun hchosen => hlive (revocable_toModel.mp hchosen).2]
    · rw [if_neg hpicked, if_neg fun hchosen => hpicked (revocable_toModel.mp hchosen).1]

theorem keys_revoke (tokenDigest : String) (now : Instant) : (grants.revoke tokenDigest now).keys = grants.keys := by
  unfold Grants.revoke
  cases hget : grants.get? tokenDigest with
  | none => rfl
  | some record =>
    simp only
    split
    · exact Dict.keys_set_old _ _ _ _ hget
    · rfl

theorem Mirrors.revoke (h : Mirrors grants table) (tokenDigest : String) (now : Instant) :
    Agrees columns scene grants table (.revoke tokenDigest now) := by
  have hmemory : grants.call scene (.revoke tokenDigest now) = (.ok .nothing, grants.revoke tokenDigest now) := rfl
  obtain ⟨hchecks, hafter⟩ := h.revocation (grants.revoke tokenDigest now)
    (fun row => row.tokenDigest = tokenDigest) now (keys_revoke tokenDigest now) fun digest record hget => by
      rw [get?_revoke, hget]
      have hdigest := h.keyed hget
      by_cases hsame : digest = tokenDigest
      · rw [if_pos hsame, if_pos (by rw [decide_eq_true_iff]; exact hdigest.trans hsame)]
        rfl
      · rw [if_neg hsame, if_neg]
        rw [decide_eq_true_iff]
        exact fun heq => hsame (hdigest.symm.trans heq)
  have hmeets : Meets columns scene grants (.revoke tokenDigest now) ↔
      ∀ record ∈ grants.values, decide ((toModel record).tokenDigest = tokenDigest) = true → record.live = true →
        record.issuedAt ≤ now := by
    constructor
    · intro hmeets record hmem hdigest hlive
      have hget := h.get?_self hmem
      rw [show record.tokenDigest = tokenDigest from of_decide_eq_true hdigest] at hget
      exact hmeets record hget hlive
    · intro hall record hget hlive
      exact hall record ((grants.mem_values_iff record).mpr ⟨_, hget⟩) (decide_eq_true (h.keyed hget)) hlive
  rw [← hchecks] at hmeets
  have hsql : ∀ table', GrantTable.revoke table tokenDigest now = .ok table' ↔
      (∀ row ∈ table, revocable (fun row => row.tokenDigest = tokenDigest) row = true →
        Broker.checked (markRevoked now row) = true) ∧
      (table.map fun row => if revocable (fun row => row.tokenDigest = tokenDigest) row then markRevoked now row
        else row) = table' := by
    intro table'
    unfold GrantTable.revoke
    rw [GrantTable.rejecting_eq_ok_iff, bind_eq_ok_iff]
    constructor
    · rintro ⟨⟨count, left⟩, hupdate, hleft⟩
      cases hleft
      obtain ⟨hchecked, -, hleft⟩ := GrantTable.update_eq_ok_iff.mp hupdate
      exact ⟨hchecked, hleft⟩
    · rintro ⟨hchecked, hleft⟩
      exact ⟨(_, table'), GrantTable.update_eq_ok_iff.mpr ⟨hchecked, rfl, hleft⟩, rfl⟩
  have hcall : ∀ table', GrantTable.revoke table tokenDigest now = .ok table' →
      table.call columns scene (.revoke tokenDigest now) = (.ok .nothing, table') := by
    intro table' hok
    unfold GrantTable.call
    simp only [hok]
  constructor
  · rw [hmeets, hmemory]
    constructor
    · intro hanswer
      cases hok : GrantTable.revoke table tokenDigest now with
      | error e =>
        unfold GrantTable.call at hanswer
        simp only [hok] at hanswer
        cases hanswer
      | ok table' => exact ((hsql table').mp hok).1
    · intro hchecked
      rw [hcall _ ((hsql _).mpr ⟨hchecked, rfl⟩)]
  · intro hmeets'
    have hchecked := hmeets.mp hmeets'
    rw [hmemory, hcall _ ((hsql _).mpr ⟨hchecked, rfl⟩)]
    exact hafter hchecked

/-- The loop of `revoke_attempt` counts what it revokes and adds no digest. -/
theorem revokeLoop_keys (attemptId : UUID) (now : Instant) (items : List (String × SecretGrantRecord))
    (acc : Grants × Nat) (hmem : ∀ item ∈ items, item.1 ∈ acc.1.keys) :
    (items.foldl (fun acc item =>
        if item.2.binding.attemptId = attemptId ∧ item.2.live then
          (acc.1.set item.1 { item.2 with revokedAt := some now }, acc.2 + 1)
        else acc) acc).1.keys = acc.1.keys ∧
    (items.foldl (fun acc item =>
        if item.2.binding.attemptId = attemptId ∧ item.2.live then
          (acc.1.set item.1 { item.2 with revokedAt := some now }, acc.2 + 1)
        else acc) acc).2 =
      acc.2 + items.countP fun item => item.2.binding.attemptId = attemptId ∧ item.2.live := by
  induction items generalizing acc with
  | nil => exact ⟨rfl, rfl⟩
  | cons item rest ih =>
    rw [List.forall_mem_cons] at hmem
    rw [List.foldl_cons, List.countP_cons]
    by_cases hrevoked : item.2.binding.attemptId = attemptId ∧ item.2.live = true
    · rw [if_pos hrevoked]
      obtain ⟨old, hold⟩ := Option.isSome_iff_exists.mp ((acc.1.mem_keys_iff item.1).mp hmem.1)
      have hkeys := Dict.keys_set_old acc.1 item.1 { item.2 with revokedAt := some now } old hold
      have hrest := ih (acc.1.set item.1 { item.2 with revokedAt := some now }, acc.2 + 1)
        (by rw [hkeys]; exact hmem.2)
      rw [hrest.1, hrest.2, hkeys, if_pos (decide_eq_true hrevoked)]
      exact ⟨rfl, by omega⟩
    · rw [if_neg hrevoked, if_neg (by rw [decide_eq_true_iff]; exact hrevoked)]
      exact ih acc hmem.2

theorem Mirrors.revokeAttempt (h : Mirrors grants table) (attemptId : UUID) (now : Instant) :
    Agrees columns scene grants table (.revokeAttempt attemptId now) := by
  have hloop := revokeLoop_keys attemptId now grants.entries (grants, 0) fun item hmem => List.mem_map_of_mem hmem
  have hpicked : ∀ record : SecretGrantRecord, decide ((toModel record).attemptId = attemptId.text) = true ↔
      record.binding.attemptId = attemptId := by
    intro record
    rw [decide_eq_true_iff]
    exact text_inj
  have hmemory : grants.call scene (.revokeAttempt attemptId now) =
      (.ok (.count (grants.revokeAttempt attemptId now).2), (grants.revokeAttempt attemptId now).1) := rfl
  have hcount : table.countP (revocable fun row => row.attemptId = attemptId.text) =
      (grants.revokeAttempt attemptId now).2 := by
    unfold Grants.revokeAttempt
    rw [hloop.2, h.rows, Dict.values, List.countP_map, List.countP_map, Nat.zero_add]
    apply List.countP_congr
    intro item _
    rw [Function.comp_apply, Function.comp_apply, revocable_toModel, hpicked, decide_eq_true_iff]
  obtain ⟨hchecks, hafter⟩ := h.revocation (grants.revokeAttempt attemptId now).1
    (fun row => row.attemptId = attemptId.text) now hloop.1 fun digest record hget => by
      rw [get?_revokeAttempt, hget, Option.map_some]
      congr 1
      by_cases hsame : record.binding.attemptId = attemptId
      · rw [if_pos hsame, if_pos ((hpicked record).mpr hsame)]
      · rw [if_neg hsame, if_neg fun hdecided => hsame ((hpicked record).mp hdecided)]
  have hmeets : Meets columns scene grants (.revokeAttempt attemptId now) ↔
      ∀ record ∈ grants.values, decide ((toModel record).attemptId = attemptId.text) = true → record.live = true →
        record.issuedAt ≤ now :=
    forall₂_congr fun record _ => by rw [hpicked]
  rw [← hchecks] at hmeets
  have hsql : ∀ count table', GrantTable.revokeAttempt table attemptId now = .ok (count, table') ↔
      (∀ row ∈ table, revocable (fun row => row.attemptId = attemptId.text) row = true →
        Broker.checked (markRevoked now row) = true) ∧ (grants.revokeAttempt attemptId now).2 = count ∧
      (table.map fun row => if revocable (fun row => row.attemptId = attemptId.text) row then markRevoked now row
        else row) = table' := by
    intro count table'
    unfold GrantTable.revokeAttempt
    rw [GrantTable.rejecting_eq_ok_iff, ← hcount]
    exact GrantTable.update_eq_ok_iff
  have hcall : ∀ count table', GrantTable.revokeAttempt table attemptId now = .ok (count, table') →
      table.call columns scene (.revokeAttempt attemptId now) = (.ok (.count count), table') := by
    intro count table' hok
    unfold GrantTable.call
    simp only [hok]
  constructor
  · rw [hmeets, hmemory]
    constructor
    · intro hanswer
      cases hok : GrantTable.revokeAttempt table attemptId now with
      | error e =>
        unfold GrantTable.call at hanswer
        simp only [hok] at hanswer
        cases hanswer
      | ok p => exact ((hsql p.1 p.2).mp hok).1
    · intro hchecked
      rw [hcall _ _ ((hsql _ _).mpr ⟨hchecked, rfl, rfl⟩)]
  · intro hmeets'
    have hchecked := hmeets.mp hmeets'
    rw [hmemory, hcall _ _ ((hsql _ _).mpr ⟨hchecked, rfl, rfl⟩)]
    exact hafter hchecked

theorem Mirrors.call (h : Mirrors grants table) {next : GrantCall} (hvalid : next.Valid) :
    Agrees columns scene grants table next := by
  cases next with
  | issue record now => exact h.issue hvalid now
  | consume tokenDigest binding now => exact h.consume tokenDigest binding now
  | revoke tokenDigest now => exact h.revoke tokenDigest now
  | revokeAttempt attemptId now => exact h.revokeAttempt attemptId now

end Calls

/-! ## Sequences of calls -/

/-- From stores that are alike the answers are the same exactly when every call meets the constraints. -/
theorem Mirrors.answers_iff {columns : Columns} {grants : Grants} {table : GrantTable} (h : Mirrors grants table)
    (calls : List (Scene × GrantCall)) (hvalid : ∀ next ∈ calls, next.2.Valid) :
    answers (fun scene table => GrantTable.call columns scene table) table calls =
        answers (fun scene grants => Grants.call scene grants) grants calls ↔
      AllMeet columns grants calls := by
  induction calls generalizing grants table with
  | nil => exact iff_of_true rfl trivial
  | cons next rest ih =>
    obtain ⟨scene, next⟩ := next
    rw [List.forall_mem_cons] at hvalid
    have hnext : Agrees columns scene grants table next := h.call hvalid.1
    unfold answers AllMeet
    rw [List.cons.injEq, hnext.answer]
    exact and_congr_right fun hmeets => ih (hnext.mirrors hmeets) hvalid.2

/-- The two stores answer a sequence of calls alike exactly when it meets the constraints of the table. -/
theorem grant_stores_agree_iff (columns : Columns) (calls : List (Scene × GrantCall))
    (hvalid : ∀ next ∈ calls, next.2.Valid) :
    answers (fun scene table => GrantTable.call columns scene table) [] calls =
        answers (fun scene grants => Grants.call scene grants) Dict.empty calls ↔
      AllMeet columns .empty calls :=
  Mirrors.empty.answers_iff calls hvalid

/-! ## Two sequences -/

/-- An attempt that runs until second 10. -/
def heldAttempt : AttemptRecord :=
  { AttemptRecord.fresh ⟨"a"⟩ ⟨"r"⟩ 0 with
    state := .running, runnerId := some "node-1", leaseExpiresAt := some 10000000 }

def heldScene : Scene where
  runs := { RunRepository.empty with attempts := Dict.empty.set ⟨"a"⟩ heldAttempt }
  environmentRevisions := [("e", 2)]

/-- A grant of second 3. -/
def heldGrant : SecretGrantRecord where
  id := ⟨"g"⟩
  tokenDigest := "d"
  binding := ⟨⟨"t"⟩, ⟨"n"⟩, ⟨"p"⟩, ⟨"r"⟩, ⟨"a"⟩, "node-1", ⟨"e"⟩, 2, [⟨.commonParameter, "token", ⟨"s"⟩⟩]⟩
  issuedAt := 3000000
  expiresAt := 8000000

/-- The grant is issued and redeemed. -/
def heldCalls (now : Instant) : List (Scene × GrantCall) :=
  [(heldScene, .issue heldGrant 3000000), (heldScene, .consume "d" heldGrant.binding now)]

theorem heldCalls_valid (now : Instant) : ∀ next ∈ heldCalls now, next.2.Valid := by
  have hbinding : heldGrant.binding.Valid := by
    unfold SecretGrantBinding.Valid
    decide +kernel
  unfold heldCalls
  simp only [List.forall_mem_cons, List.not_mem_nil, false_imp_iff, implies_true, and_true]
  exact ⟨hbinding, hbinding⟩

/-- What the issue leaves in memory. -/
def heldGrants : Grants := Dict.empty.set "d" heldGrant

theorem held_issue : Grants.issue .empty heldGrant 3000000 (heldScene.runs.getAttempt heldGrant.binding.attemptId) =
    .ok heldGrants := rfl

theorem held_stored : (Grants.call heldScene .empty (.issue heldGrant 3000000)).2 = heldGrants := by
  unfold Grants.call
  simp only [held_issue]

theorem held_get : heldGrants.get? "d" = some heldGrant := rfl

theorem heldCalls_meet {now : Instant} (hlate : 3000000 ≤ now) : AllMeet (fun _ => true) .empty (heldCalls now) := by
  refine ⟨?_, ?_, trivial⟩
  · intro grants' stored hok hget
    rw [held_issue, Except.ok.injEq] at hok
    subst hok
    rw [show heldGrant.tokenDigest = "d" from rfl, held_get, Option.some.injEq] at hget
    subst hget
    exact ⟨rfl, rfl, by simp, by decide, by decide, rfl⟩
  · intro grants' record _ hget
    rw [held_stored, held_get, Option.some.injEq] at hget
    subst hget
    exact hlate

theorem stores_agree_at_4 : answers (fun scene table => GrantTable.call (fun _ => true) scene table) []
    (heldCalls 4000000) = answers (fun scene grants => Grants.call scene grants) Dict.empty (heldCalls 4000000) :=
  (grant_stores_agree_iff (fun _ => true) (heldCalls 4000000) (heldCalls_valid _)).mpr (heldCalls_meet (by decide))

/-- Redeemed before it was issued, the grant is given by one store only. -/
theorem stores_differ_at_2 : ¬ ∀ (columns : Columns) (calls : List (Scene × GrantCall)),
    (∀ next ∈ calls, next.2.Valid) →
    answers (fun scene table => GrantTable.call columns scene table) [] calls =
      answers (fun scene grants => Grants.call scene grants) Dict.empty calls := by
  intro h
  have hvalid := heldCalls_valid 2000000
  obtain ⟨-, hmeets, -⟩ := (Mirrors.empty.answers_iff _ hvalid).mp (h (fun _ => true) _ hvalid)
  rw [held_stored] at hmeets
  exact absurd (hmeets _ _ rfl held_get) (by decide)

end SmartTest.Broker
