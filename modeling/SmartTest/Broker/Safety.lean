import SmartTest.Broker.Invariant
import SmartTest.Environment.Secrets

/-!
# Secret capabilities are safe

A token is redeemed at most once, for the binding it was issued for, before it expires and
not after it was revoked, in every interleaving of broker calls with changes of the
attempts, the environments and the clock.
-/

open SmartTest.Lib SmartTest.Lib.Prog SmartTest.Run SmartTest.Environment

namespace SmartTest.Broker

/-! ## What each step does to the grants -/

@[simp] theorem revoked_binding (record : SecretGrantRecord) (now : Instant) :
    (record.revoked now).binding = record.binding := by
  unfold SecretGrantRecord.revoked
  split <;> rfl

@[simp] theorem revoked_expiresAt (record : SecretGrantRecord) (now : Instant) :
    (record.revoked now).expiresAt = record.expiresAt := by
  unfold SecretGrantRecord.revoked
  split <;> rfl

@[simp] theorem revoked_live (record : SecretGrantRecord) (now : Instant) : (record.revoked now).live = false := by
  unfold SecretGrantRecord.revoked
  split
  · simp [SecretGrantRecord.live]
  · next h => simpa using h

theorem revoked_exclusive {record : SecretGrantRecord} (now : Instant)
    (h : record.consumedAt = none ∨ record.revokedAt = none) :
    (record.revoked now).consumedAt = none ∨ (record.revoked now).revokedAt = none := by
  unfold SecretGrantRecord.revoked
  split
  · next hlive => exact .inl (by simp_all [SecretGrantRecord.live])
  · exact h

variable {digest : String → String} {ttlSeconds : Int} {grants grants' : Grants} {log : List Event} {call : Nat}

theorem admits_read (h : Consistent digest ttlSeconds grants log) (attemptId : UUID)
    (answer : Except Exn AttemptRecord) :
    Admits digest ttlSeconds grants grants log (.read call attemptId answer) where
  kept d r hr := ⟨r, hr, rfl, rfl, id⟩
  fresh d r' hr' hnone := by simp [hnone] at hr'
  issued _ _ he := by cases he
  redeemed _ _ he := by cases he
  revoked _ he := by cases he
  attemptRevoked _ he := by cases he
  exclusive := h.exclusive

theorem admits_issued (h : Consistent digest ttlSeconds grants log) {occasion : Occasion}
    {record : SecretGrantRecord} (hasks : Asks digest ttlSeconds occasion record)
    (hok : grants.issue record occasion.now occasion.answer = .ok grants') :
    Admits digest ttlSeconds grants grants' log (.issued call occasion) := by
  obtain ⟨attempt, lease, hanswer, hlease, hnone, rfl⟩ := issue_ok hok
  set stored : SecretGrantRecord := { record with expiresAt := min record.expiresAt lease } with hstored
  rw [hasks.digest] at hnone ⊢
  obtain ⟨references, hcanonical, hbinding⟩ := (bind_eq_ok_iff _ _ _).mp hasks.binding
  obtain ⟨_, _, -, -, hrecord⟩ := bindingOf_ok hbinding
  have hgranted : Granted ttlSeconds occasion stored := by
    refine ⟨hasks.binding, ?_, ?_, attempt, lease, hanswer, hlease, min_le_right _ _⟩
    · exact (min_le_left _ _).trans (hasks.expires.le.trans (min_le_left _ _))
    · exact (min_le_left _ _).trans (hasks.expires.le.trans (min_le_right _ _))
  refine ⟨?_, ?_, ?_, by simp, by simp, by simp, ?_⟩
  · intro d r hr
    have hne : d ≠ digest occasion.token := fun he => by simp [he, hnone] at hr
    exact ⟨r, by rw [Dict.get?_set_ne _ _ hne, hr], rfl, rfl, id⟩
  · intro d r' hr' hold
    by_cases hd : d = digest occasion.token
    · rw [hd, Dict.get?_set_self, Option.some.injEq] at hr'
      exact ⟨call, occasion, rfl, hd.symm, hr' ▸ hgranted⟩
    · rw [Dict.get?_set_ne _ _ hd, hold] at hr'
      cases hr'
  · rintro _ _ ⟨⟩
    exact ⟨hnone, stored, Dict.get?_set_self _ _ _, by simp [hstored, hrecord]⟩
  · intro d r' hr'
    by_cases hd : d = digest occasion.token
    · rw [hd, Dict.get?_set_self, Option.some.injEq] at hr'
      have hlive := hasks.live
      rw [SecretGrantRecord.live, Bool.and_eq_true, Option.isNone_iff_eq_none] at hlive
      exact .inl (hr' ▸ hlive.1)
    · rw [Dict.get?_set_ne _ _ hd] at hr'
      exact h.exclusive d r' hr'

theorem admits_redeemed (h : Consistent digest ttlSeconds grants log) {occasion : Occasion}
    {binding : SecretGrantBinding} (hbinding : bindingFor occasion.task occasion.runnerId = .ok binding)
    (hread : .read call occasion.task.attemptId occasion.answer ∈ log)
    (hok : grants.consume (digest occasion.token) binding occasion.now occasion.answer = .ok grants') :
    Admits digest ttlSeconds grants grants' log (.redeemed call occasion) := by
  obtain ⟨attempt, record, hanswer, hholds, hrecord, rfl, hexpires, hlive, rfl⟩ := consume_ok hok
  obtain ⟨references, -, hof⟩ := (bind_eq_ok_iff _ _ _).mp hbinding
  obtain ⟨_, _, -, -, hfields⟩ := bindingOf_ok hof
  set consumed : SecretGrantRecord := { record with consumedAt := some occasion.now } with hstored
  have hconsumed : consumed.live = false := by simp [hstored, SecretGrantRecord.live]
  refine ⟨?_, ?_, by simp, ?_, by simp, by simp, ?_⟩
  · intro d r hr
    by_cases hd : d = digest occasion.token
    · rw [hd, hrecord] at hr
      cases hr
      exact ⟨consumed, by rw [hd, Dict.get?_set_self], rfl, rfl, fun _ => hconsumed⟩
    · exact ⟨r, by rw [Dict.get?_set_ne _ _ hd, hr], rfl, rfl, id⟩
  · intro d r' hr' hold
    by_cases hd : d = digest occasion.token
    · simp [hd, hrecord] at hold
    · rw [Dict.get?_set_ne _ _ hd, hold] at hr'
      cases hr'
  · rintro _ _ ⟨⟩
    refine ⟨hread, ⟨attempt, hanswer, ?_⟩, ⟨record, hrecord, hlive, hbinding, hexpires⟩, consumed,
      Dict.get?_set_self _ _ _, hconsumed⟩
    simpa [hfields] using hholds
  · intro d r' hr'
    by_cases hd : d = digest occasion.token
    · rw [hd, Dict.get?_set_self, Option.some.injEq] at hr'
      rw [SecretGrantRecord.live, Bool.and_eq_true, Option.isNone_iff_eq_none, Option.isNone_iff_eq_none] at hlive
      exact .inr (hr' ▸ hlive.2)
    · rw [Dict.get?_set_ne _ _ hd] at hr'
      exact h.exclusive d r' hr'

/-- Revoking some of the grants. -/
theorem admits_revoked (h : Consistent digest ttlSeconds grants log) {e : Event} (now : Instant)
    (hit : String → SecretGrantRecord → Prop) [∀ d r, Decidable (hit d r)]
    (hget : ∀ d, grants'.get? d = (grants.get? d).map fun r => if hit d r then r.revoked now else r)
    (hissued : ∀ call o, e ≠ .issued call o) (hredeemed : ∀ call o, e ≠ .redeemed call o)
    (hrevoked : ∀ token, e = .revoked token → ∀ r, hit (digest token) r)
    (hattempt : ∀ attemptId, e = .attemptRevoked attemptId → ∀ d r, r.binding.attemptId = attemptId → hit d r) :
    Admits digest ttlSeconds grants grants' log e := by
  have hnew : ∀ d r', grants'.get? d = some r' → ∃ r, grants.get? d = some r ∧
      r' = if hit d r then r.revoked now else r := by
    intro d r' hr'
    rw [hget, Option.map_eq_some_iff] at hr'
    obtain ⟨r, hr, rfl⟩ := hr'
    exact ⟨r, hr, rfl⟩
  refine ⟨?_, ?_, fun c o he => absurd he (hissued c o), fun c o he => absurd he (hredeemed c o), ?_, ?_, ?_⟩
  · intro d r hr
    refine ⟨if hit d r then r.revoked now else r, by rw [hget, hr]; rfl, ?_⟩
    split
    · simp
    · exact ⟨rfl, rfl, id⟩
  · intro d r' hr' hold
    obtain ⟨r, hr, -⟩ := hnew d r' hr'
    simp [hold] at hr
  · intro token he r' hr'
    obtain ⟨r, -, rfl⟩ := hnew _ r' hr'
    simp [hrevoked token he r]
  · intro attemptId he d r' hr' hid
    obtain ⟨r, -, rfl⟩ := hnew d r' hr'
    by_cases hhit : hit d r
    · simp [hhit]
    · rw [if_neg hhit] at hid
      exact absurd (hattempt attemptId he d r hid) hhit
  · intro d r' hr'
    obtain ⟨r, hr, rfl⟩ := hnew d r' hr'
    split
    · exact revoked_exclusive now (h.exclusive d r hr)
    · exact h.exclusive d r hr

/-- The step lemma: grants and history agree after every justified step. -/
theorem Consistent.act {w : World} {label : Label} (h : Consistent digest ttlSeconds w.grants log)
    (hjustified : label.Justified digest ttlSeconds call log) :
    Consistent digest ttlSeconds (label.act digest w).grants (log ++ noted digest call label w) := by
  cases label with
  | read => simpa [Label.act, noted] using h
  | getAttempt attemptId => exact h.append (admits_read h _ _)
  | issue occasion record =>
    simp only [Label.act, noted, World.onGrants]
    cases hok : w.grants.issue record occasion.now occasion.answer with
    | error e => simpa [Except.isOk, Except.toBool] using h
    | ok grants' =>
      simpa [Except.isOk, Except.toBool] using h.append (admits_issued h hjustified.1 hok)
  | consume occasion binding =>
    simp only [Label.act, noted, World.onGrants]
    cases hok : w.grants.consume (digest occasion.token) binding occasion.now occasion.answer with
    | error e => simpa [Except.isOk, Except.toBool] using h
    | ok grants' =>
      simpa [Except.isOk, Except.toBool] using h.append (admits_redeemed h hjustified.1 hjustified.2 hok)
  | revoke token now =>
    refine h.append (admits_revoked h now (fun d _ => d = digest token) ?_ (by simp) (by simp)
      (by simp) (by simp))
    intro d
    rw [Label.act, get?_revoke]
    split <;> simp
  | revokeAttempt attemptId now =>
    refine h.append (admits_revoked h now (fun _ r => r.binding.attemptId = attemptId)
      (fun d => get?_revokeAttempt _ _ _ d) (by simp) (by simp) (by simp) ?_)
    rintro _ ⟨⟩ _ _ hid
    exact hid

/-! ## Every call keeps to its label -/

variable (digest ttlSeconds) in
/-- A call relies on the history to grow only, and takes justified steps. -/
def rules (call : Nat) : Rules Label World (List Event) where
  obs seen log := log ++ noted digest call seen.label seen.before
  inv x := Consistent digest ttlSeconds x.1.grants x.2
  rely x y := x.2 ⊆ y.2
  trust _ _ _ := True
  guar label x y := y = (label.act digest x.1, x.2 ++ noted digest call label x.1) ∧
    label.Justified digest ttlSeconds call x.2
  guar_inv := by
    rintro label x _ hx - ⟨rfl, hjustified⟩
    exact hx.act hjustified

/-- What a longer history does not undo. -/
def Lasting (F : List Event → Prop) : Prop := ∀ l l', l ⊆ l' → F l → F l'

theorem lasting_mem (e : Event) : Lasting (e ∈ ·) := fun _ _ hsub h => hsub h

theorem lasting_true : Lasting fun _ => True := fun _ _ _ _ => trivial

theorem Lasting.stable {F : List Event → Prop} (hF : Lasting F) :
    Stable (rules digest ttlSeconds call) fun x => F x.2 := fun _ _ _ _ hrely h => hF _ _ hrely h

/-- A step of a call: it must be justified, and its postcondition hold after it. -/
theorem step_triple {α : Type} {F : List Event → Prop} (hF : Lasting F) {label : Label}
    {f : World → Except Exn α × World} {Q : α → World × List Event → Prop}
    (hact : ∀ w, (f w).2 = label.act digest w)
    (hjustified : ∀ log, F log → label.Justified digest ttlSeconds call log)
    (hpost : ∀ w log a, F log → (f w).1 = .ok a →
      Q a (label.act digest w, log ++ noted digest call label w)) :
    Triple (rules digest ttlSeconds call) (fun x => F x.2) (.op label f) Q fun _ _ => True := by
  refine Triple.op hF.stable ?_
  intro y _ hy _
  have hafter : (rules digest ttlSeconds call).after label (fun s => (f s).2) y =
      (label.act digest y.1, y.2 ++ noted digest call label y.1) := by
    simp [Rules.after, rules, hact]
  rw [hafter]
  refine ⟨⟨rfl, hjustified _ hy⟩, ?_⟩
  cases hf : (f y.1).1 with
  | error e => trivial
  | ok a => exact hpost _ _ _ hy hf

theorem read_triple {α : Type} {F : List Event → Prop} (hF : Lasting F) (f : World → Except Exn α) :
    Triple (rules digest ttlSeconds call) (fun x => F x.2) (.op .read (World.reading f))
      (fun a x => F x.2 ∧ ∃ w, f w = .ok a) fun _ _ => True := by
  refine step_triple hF (fun w => rfl) (fun _ _ => trivial) ?_
  intro w log a hlog hf
  exact ⟨by simpa [noted] using hlog, w, hf⟩

theorem getAttempt_triple {F : List Event → Prop} (hF : Lasting F) (attemptId : UUID) :
    Triple (rules digest ttlSeconds call) (fun x => F x.2) (getAttempt attemptId)
      (fun answer x => .read call attemptId answer ∈ x.2) fun _ _ => True := by
  refine step_triple hF (fun w => rfl) (fun _ _ => trivial) ?_
  intro w log answer _ hf
  cases hf
  simp [noted]

theorem rejecting_triple {α : Type} {P : World × List Event → Prop} {p : Proc α}
    {Q : α → World × List Event → Prop}
    (h : Triple (rules digest ttlSeconds call) P p Q fun _ _ => True) :
    Triple (rules digest ttlSeconds call) P (rejecting p) Q fun _ _ => True :=
  h.handle fun _ => .raise fun _ _ _ => trivial

theorem lift_triple {α : Type} {P : World × List Event → Prop} (x : Except Exn α) :
    Triple (rules digest ttlSeconds call) P (lift x) (fun a y => P y ∧ x = .ok a) fun _ _ => True := by
  cases x with
  | error e => exact .raise fun _ _ _ => trivial
  | ok a => exact .ret fun y _ hy => ⟨hy, rfl⟩

theorem utcnow_triple {F : List Event → Prop} (hF : Lasting F) :
    Triple (rules digest ttlSeconds call) (fun x => F x.2) utcnow (fun _ x => F x.2) fun _ _ => True :=
  (read_triple hF _).weaken (fun _ _ h => h) (fun _ _ _ h => h.1) fun _ _ _ h => h

theorem issue_triple (task : FullTaskEnvelope) (runnerId token : String) (grantId : UUID) :
    Triple (rules digest ttlSeconds call) (fun _ => True) (issue digest ttlSeconds task runnerId token grantId)
      (fun _ x => ∃ now answer, .issued call ⟨token, task, runnerId, now, answer⟩ ∈ x.2) fun _ _ => True := by
  unfold issue
  split
  · split
    · exact .raise fun _ _ _ => trivial
    · refine .bind (rejecting_triple (read_triple lasting_true _)) fun references => ?_
      refine Triple.assume ?_
      rintro ⟨w, hreferences⟩
      have hcanonical := validateSecretReferences_ok hreferences
      refine .bind (utcnow_triple lasting_true) fun now => ?_
      refine .bind (lift_triple _) fun binding => Triple.assume fun hbinding => ?_
      have hattempt : binding.attemptId = task.attemptId := by
        obtain ⟨_, _, -, -, rfl⟩ := bindingOf_ok hbinding
        rfl
      refine .bind (getAttempt_triple lasting_true _) fun answer => rejecting_triple ?_
      refine step_triple (lasting_mem _) (fun w => rfl) ?_ ?_
      · intro log hread
        exact ⟨⟨rfl, by rw [bindingFor_eq hcanonical, hbinding], rfl, rfl⟩, hattempt ▸ hread⟩
      · intro w log a _ hok
        refine ⟨now, answer, ?_⟩
        simp only [noted]
        cases hissue : w.grants.issue _ now answer with
        | error e => simp [World.onGrants, hissue] at hok
        | ok grants' => simp [Except.isOk, Except.toBool]
  · exact .raise fun _ _ _ => trivial

theorem redeem_triple (encryptor : SecretEncryptor) (token : String) (task : FullTaskEnvelope) (runnerId : String) :
    Triple (rules digest ttlSeconds call) (fun _ => True) (redeem digest encryptor token task runnerId)
      (fun _ x => ∃ now answer, .redeemed call ⟨token, task, runnerId, now, answer⟩ ∈ x.2) fun _ _ => True := by
  have hlasting : Lasting fun log => ∃ now answer, .redeemed call ⟨token, task, runnerId, now, answer⟩ ∈ log :=
    fun _ _ hsub ⟨now, answer, h⟩ => ⟨now, answer, hsub h⟩
  unfold redeem
  refine .bind (rejecting_triple ?_) fun binding => rejecting_triple
    ((read_triple hlasting _).weaken (fun _ _ h => h) (fun _ _ _ h => h.1) fun _ _ _ h => h)
  refine .bind (lift_triple _) fun references => Triple.assume fun hcanonical => ?_
  refine .bind (lift_triple _) fun binding => Triple.assume fun hbinding => ?_
  have hattempt : binding.attemptId = task.attemptId := by
    obtain ⟨_, _, -, -, rfl⟩ := bindingOf_ok hbinding
    rfl
  refine .bind (utcnow_triple lasting_true) fun now => ?_
  refine .bind (getAttempt_triple lasting_true _) fun answer => ?_
  refine .bind (step_triple (lasting_mem _) (fun w => rfl) ?_ ?_) fun _ => .ret fun _ _ h => h
  · intro log hread
    exact ⟨by rw [bindingFor_eq hcanonical, hbinding], hattempt ▸ hread⟩
  · intro w log a _ hok
    refine ⟨now, answer, ?_⟩
    simp only [noted]
    cases hconsume : w.grants.consume (digest token) binding now answer with
    | error e => simp [World.onGrants, hconsume] at hok
    | ok grants' => simp [Except.isOk, Except.toBool]

end SmartTest.Broker
