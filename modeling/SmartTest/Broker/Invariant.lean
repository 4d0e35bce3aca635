import SmartTest.Broker.Steps

/-!
# Grants and history agree

Every grant goes back to an `issued` entry of the history, a redeemed one is consumed, and
a revoked one is dead. `Admits` says what a step must do for the entry it adds.
-/

open SmartTest.Lib SmartTest.Run SmartTest.Environment

namespace SmartTest.Broker

/-! ## Order in a history -/

/-- What ends with the last entry is old, or ends there. -/
theorem sublist_concat {α : Type} {l log : List α} {a e : α} (h : (l ++ [a]).Sublist (log ++ [e])) :
    (l ++ [a]).Sublist log ∨ l.Sublist log ∧ a = e := by
  rw [← List.reverse_sublist, List.reverse_append, List.reverse_append] at h
  rcases List.cons_sublist_cons'.mp h with hold | ⟨hlast, hold⟩
  · left
    rw [← List.reverse_sublist, List.reverse_append]
    exact hold
  · exact .inr ⟨List.reverse_sublist.mp hold, hlast⟩

theorem pair_concat {α : Type} {a b e : α} {log : List α} (h : [a, b].Sublist (log ++ [e])) :
    [a, b].Sublist log ∨ a ∈ log ∧ b = e := by
  rcases sublist_concat (l := [a]) h with hold | ⟨hold, hlast⟩
  · exact .inl hold
  · exact .inr ⟨List.singleton_sublist.mp hold, hlast⟩

theorem triple_concat {α : Type} {a b c e : α} {log : List α} (h : [a, b, c].Sublist (log ++ [e])) :
    [a, b, c].Sublist log ∨ [a, b].Sublist log ∧ c = e := sublist_concat (l := [a, b]) h

theorem pair_of_mem {α : Type} {a e : α} {log : List α} (h : a ∈ log) : [a, e].Sublist (log ++ [e]) :=
  (List.singleton_sublist.mpr h).append (List.Sublist.refl [e])

/-- A new entry of a kind that was not there is the only one of its kind. -/
theorem filter_concat_le {α : Type} {p : α → Bool} {log : List α} {e : α} (hold : (log.filter p).length ≤ 1)
    (hnew : p e = true → log.filter p = []) : ((log ++ [e]).filter p).length ≤ 1 := by
  rw [List.filter_append, List.length_append]
  cases hp : p e with
  | false => simpa [hp] using hold
  | true => simp [hp, hnew hp]

/-! ## The invariant -/

variable (digest : String → String) (ttlSeconds : Int)

def Event.issues (d : String) : Event → Bool
  | .issued _ occasion => digest occasion.token = d
  | _ => false

def Event.redeems (d : String) : Event → Bool
  | .redeemed _ occasion => digest occasion.token = d
  | _ => false

/-- The grant is the one made on that occasion, and ends no later than its three limits. -/
structure Granted (occasion : Occasion) (record : SecretGrantRecord) : Prop where
  binding : bindingFor occasion.task occasion.runnerId = .ok record.binding
  ttl : record.expiresAt ≤ occasion.now.addSeconds ttlSeconds
  deadline : record.expiresAt ≤ occasion.task.deadline
  lease : ∃ attempt lease, occasion.answer = .ok attempt ∧ attempt.leaseExpiresAt = some lease ∧
    record.expiresAt ≤ lease

/-- The redemption has the binding of the issue and comes before each of its limits. -/
structure Covers (issue redemption : Occasion) : Prop where
  binding : ∃ binding, bindingFor issue.task issue.runnerId = .ok binding ∧
    bindingFor redemption.task redemption.runnerId = .ok binding
  ttl : redemption.now < issue.now.addSeconds ttlSeconds
  deadline : redemption.now < issue.task.deadline
  lease : ∃ attempt lease, issue.answer = .ok attempt ∧ attempt.leaseExpiresAt = some lease ∧
    redemption.now < lease

/-- The redemption's call read an attempt that the runner holds. -/
def Attended (log : List Event) (call : Nat) (occasion : Occasion) : Prop :=
  [.read call occasion.task.attemptId occasion.answer, .redeemed call occasion].Sublist log ∧
    ∃ attempt, occasion.answer = .ok attempt ∧
      Holds attempt occasion.task.runId occasion.runnerId occasion.now

structure Consistent (grants : Grants) (log : List Event) : Prop where
  issued_of_grant : ∀ d r, grants.get? d = some r →
    ∃ call o, .issued call o ∈ log ∧ digest o.token = d ∧ Granted ttlSeconds o r
  grant_of_issued : ∀ call o, .issued call o ∈ log →
    ∃ r, grants.get? (digest o.token) = some r ∧ r.binding.attemptId = o.task.attemptId
  issued_once : ∀ d, (log.filter (Event.issues digest d)).length ≤ 1
  consumed_of_redeemed : ∀ call o, .redeemed call o ∈ log →
    ∃ r, grants.get? (digest o.token) = some r ∧ r.live = false
  redeemed_once : ∀ d, (log.filter (Event.redeems digest d)).length ≤ 1
  redeemed_issued : ∀ call o, .redeemed call o ∈ log → ∃ call' o',
    [.issued call' o', .redeemed call o].Sublist log ∧ digest o'.token = digest o.token ∧ Covers ttlSeconds o' o
  redeemed_attended : ∀ call o, .redeemed call o ∈ log → Attended log call o
  revoked_dead : ∀ call o token, [.issued call o, .revoked token].Sublist log → digest token = digest o.token →
    ∃ r, grants.get? (digest o.token) = some r ∧ r.live = false
  attempt_dead : ∀ call o, [.issued call o, .attemptRevoked o.task.attemptId].Sublist log →
    ∃ r, grants.get? (digest o.token) = some r ∧ r.live = false
  not_after_revoke : ∀ call o token call' o', digest token = digest o.token → digest o'.token = digest o.token →
    ¬ [.issued call o, .revoked token, .redeemed call' o'].Sublist log
  not_after_attempt : ∀ call o call' o', digest o'.token = digest o.token →
    ¬ [.issued call o, .attemptRevoked o.task.attemptId, .redeemed call' o'].Sublist log
  exclusive : ∀ d r, grants.get? d = some r → r.consumedAt = none ∨ r.revokedAt = none

/-- What a step that adds `e` does to the grants. -/
structure Admits (grants grants' : Grants) (log : List Event) (e : Event) : Prop where
  kept : ∀ d r, grants.get? d = some r → ∃ r', grants'.get? d = some r' ∧ r'.binding = r.binding ∧
    r'.expiresAt = r.expiresAt ∧ (r.live = false → r'.live = false)
  fresh : ∀ d r', grants'.get? d = some r' → grants.get? d = none →
    ∃ call o, e = .issued call o ∧ digest o.token = d ∧ Granted ttlSeconds o r'
  issued : ∀ call o, e = .issued call o → grants.get? (digest o.token) = none ∧
    ∃ r', grants'.get? (digest o.token) = some r' ∧ r'.binding.attemptId = o.task.attemptId
  redeemed : ∀ call o, e = .redeemed call o → .read call o.task.attemptId o.answer ∈ log ∧
    (∃ attempt, o.answer = .ok attempt ∧ Holds attempt o.task.runId o.runnerId o.now) ∧
    (∃ r, grants.get? (digest o.token) = some r ∧ r.live = true ∧
      bindingFor o.task o.runnerId = .ok r.binding ∧ o.now < r.expiresAt) ∧
    ∃ r', grants'.get? (digest o.token) = some r' ∧ r'.live = false
  revoked : ∀ token, e = .revoked token → ∀ r', grants'.get? (digest token) = some r' → r'.live = false
  attemptRevoked : ∀ attemptId, e = .attemptRevoked attemptId → ∀ d r', grants'.get? d = some r' →
    r'.binding.attemptId = attemptId → r'.live = false
  exclusive : ∀ d r', grants'.get? d = some r' → r'.consumedAt = none ∨ r'.revokedAt = none

theorem consistent_empty : Consistent digest ttlSeconds .empty [] := by
  constructor <;> simp

variable {digest ttlSeconds} {grants grants' : Grants} {log : List Event} {e : Event}

/-- A grant that was dead is so after the step. -/
theorem Admits.dead (h : Admits digest ttlSeconds grants grants' log e) {d : String}
    (hdead : ∃ r, grants.get? d = some r ∧ r.live = false) :
    ∃ r, grants'.get? d = some r ∧ r.live = false := by
  obtain ⟨r, hr, hlive⟩ := hdead
  obtain ⟨r', hr', -, -, hdead'⟩ := h.kept d r hr
  exact ⟨r', hr', hdead' hlive⟩

/-- What is redeemed was alive, so its token had not been redeemed. -/
theorem Consistent.unredeemed (h : Consistent digest ttlSeconds grants log) {d : String} {r : SecretGrantRecord}
    (hr : grants.get? d = some r) (hlive : r.live = true) : log.filter (Event.redeems digest d) = [] := by
  rw [List.filter_eq_nil_iff]
  intro e he hredeems
  cases e with
  | redeemed call o =>
    obtain ⟨r', hr', hdead⟩ := h.consumed_of_redeemed call o he
    have hd : digest o.token = d := by simpa [Event.redeems] using hredeems
    rw [hd, hr] at hr'
    cases hr'
    simp [hlive] at hdead
  | _ => simp [Event.redeems] at hredeems

theorem Consistent.unissued (h : Consistent digest ttlSeconds grants log) {d : String}
    (hnone : grants.get? d = none) : log.filter (Event.issues digest d) = [] := by
  rw [List.filter_eq_nil_iff]
  intro e he hissues
  cases e with
  | issued call o =>
    obtain ⟨r, hr, -⟩ := h.grant_of_issued call o he
    have hd : digest o.token = d := by simpa [Event.issues] using hissues
    simp [hd, hnone] at hr
  | _ => simp [Event.issues] at hissues

theorem Consistent.covers (h : Consistent digest ttlSeconds grants log) {o : Occasion} {r : SecretGrantRecord}
    (hr : grants.get? (digest o.token) = some r) (hbinding : bindingFor o.task o.runnerId = .ok r.binding)
    (hnow : o.now < r.expiresAt) :
    ∃ call' o', .issued call' o' ∈ log ∧ digest o'.token = digest o.token ∧ Covers ttlSeconds o' o := by
  obtain ⟨call', o', hissued, hdigest, hgranted⟩ := h.issued_of_grant _ r hr
  obtain ⟨attempt, lease, hanswer, hlease, hle⟩ := hgranted.lease
  exact ⟨call', o', hissued, hdigest, ⟨r.binding, hgranted.binding, hbinding⟩,
    lt_of_lt_of_le hnow hgranted.ttl, lt_of_lt_of_le hnow hgranted.deadline,
    attempt, lease, hanswer, hlease, lt_of_lt_of_le hnow hle⟩

/-- The run lemma's one step: an admitted entry keeps grants and history in agreement. -/
theorem Consistent.append (h : Consistent digest ttlSeconds grants log)
    (ha : Admits digest ttlSeconds grants grants' log e) : Consistent digest ttlSeconds grants' (log ++ [e]) where
  issued_of_grant d r' hr' := by
    cases hr : grants.get? d with
    | none =>
      obtain ⟨call, o, rfl, hdigest, hgranted⟩ := ha.fresh d r' hr' hr
      exact ⟨call, o, by simp, hdigest, hgranted⟩
    | some r =>
      obtain ⟨found, hfound, hbinding, hexpires, -⟩ := ha.kept d r hr
      obtain ⟨call, o, hissued, hdigest, hgranted⟩ := h.issued_of_grant d r hr
      rw [hr', Option.some.injEq] at hfound
      subst hfound
      obtain ⟨hb, httl, hdeadline, hlease⟩ := hgranted
      exact ⟨call, o, List.mem_append_left _ hissued, hdigest, by rwa [hbinding], by rwa [hexpires],
        by rwa [hexpires], by rwa [hexpires]⟩
  grant_of_issued call o hmem := by
    rcases List.mem_append.mp hmem with hmem | hmem
    · obtain ⟨r, hr, hattempt⟩ := h.grant_of_issued call o hmem
      obtain ⟨r', hr', hbinding, -⟩ := ha.kept _ r hr
      exact ⟨r', hr', by rw [hbinding, hattempt]⟩
    · exact (ha.issued call o (List.mem_singleton.mp hmem).symm).2
  issued_once d := by
    refine filter_concat_le (h.issued_once d) fun hissues => ?_
    cases e with
    | issued call o =>
      have hd : digest o.token = d := by simpa [Event.issues] using hissues
      exact h.unissued (hd ▸ (ha.issued call o rfl).1)
    | _ => simp [Event.issues] at hissues
  consumed_of_redeemed call o hmem := by
    rcases List.mem_append.mp hmem with hmem | hmem
    · exact ha.dead (h.consumed_of_redeemed call o hmem)
    · exact (ha.redeemed call o (List.mem_singleton.mp hmem).symm).2.2.2
  redeemed_once d := by
    refine filter_concat_le (h.redeemed_once d) fun hredeems => ?_
    cases e with
    | redeemed call o =>
      have hd : digest o.token = d := by simpa [Event.redeems] using hredeems
      obtain ⟨-, -, ⟨r, hr, hlive, -⟩, -⟩ := ha.redeemed call o rfl
      exact h.unredeemed (hd ▸ hr) hlive
    | _ => simp [Event.redeems] at hredeems
  redeemed_issued call o hmem := by
    rcases List.mem_append.mp hmem with hmem | hmem
    · obtain ⟨call', o', hsub, hdigest, hcovers⟩ := h.redeemed_issued call o hmem
      exact ⟨call', o', hsub.trans (List.sublist_append_left _ _), hdigest, hcovers⟩
    · have he := (List.mem_singleton.mp hmem).symm
      obtain ⟨-, -, ⟨r, hr, -, hbinding, hnow⟩, -⟩ := ha.redeemed call o he
      obtain ⟨call', o', hissued, hdigest, hcovers⟩ := h.covers hr hbinding hnow
      exact ⟨call', o', he ▸ pair_of_mem hissued, hdigest, hcovers⟩
  redeemed_attended call o hmem := by
    rcases List.mem_append.mp hmem with hmem | hmem
    · obtain ⟨hsub, hholds⟩ := h.redeemed_attended call o hmem
      exact ⟨hsub.trans (List.sublist_append_left _ _), hholds⟩
    · have he := (List.mem_singleton.mp hmem).symm
      obtain ⟨hread, hholds, -⟩ := ha.redeemed call o he
      exact ⟨he ▸ pair_of_mem hread, hholds⟩
  revoked_dead call o token hsub hdigest := by
    rcases pair_concat hsub with hsub | ⟨hmem, he⟩
    · exact ha.dead (h.revoked_dead call o token hsub hdigest)
    · obtain ⟨r, hr, -⟩ := h.grant_of_issued call o hmem
      obtain ⟨r', hr', -⟩ := ha.kept _ r hr
      exact ⟨r', hr', ha.revoked token he.symm r' (hdigest ▸ hr')⟩
  attempt_dead call o hsub := by
    rcases pair_concat hsub with hsub | ⟨hmem, he⟩
    · exact ha.dead (h.attempt_dead call o hsub)
    · obtain ⟨r, hr, hattempt⟩ := h.grant_of_issued call o hmem
      obtain ⟨r', hr', hbinding, -⟩ := ha.kept _ r hr
      exact ⟨r', hr', ha.attemptRevoked _ he.symm _ r' hr' (by rw [hbinding, hattempt])⟩
  not_after_revoke call o token call' o' htoken ho' hsub := by
    rcases triple_concat hsub with hsub | ⟨hsub, he⟩
    · exact h.not_after_revoke call o token call' o' htoken ho' hsub
    · obtain ⟨r, hr, hdead⟩ := h.revoked_dead call o token hsub htoken
      obtain ⟨-, -, ⟨r', hr', hlive, -⟩, -⟩ := ha.redeemed call' o' he.symm
      rw [ho', hr] at hr'
      cases hr'
      simp [hlive] at hdead
  not_after_attempt call o call' o' ho' hsub := by
    rcases triple_concat hsub with hsub | ⟨hsub, he⟩
    · exact h.not_after_attempt call o call' o' ho' hsub
    · obtain ⟨r, hr, hdead⟩ := h.attempt_dead call o hsub
      obtain ⟨-, -, ⟨r', hr', hlive, -⟩, -⟩ := ha.redeemed call' o' he.symm
      rw [ho', hr] at hr'
      cases hr'
      simp [hlive] at hdead
  exclusive := ha.exclusive

end SmartTest.Broker
