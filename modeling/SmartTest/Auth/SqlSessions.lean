import SmartTest.Auth.Sessions

/-!
# Users and sessions in SQL

`SqlAuthRepository` of `services/api/auth_sql_repository.py`, one call at a time, on a database
that keeps times and compares texts exactly, as SQLite does. Whether it checks foreign keys is
the parameter `foreignKeys`.
-/

open SmartTest.Lib SmartTest.Run

namespace SmartTest.Auth

structure SqlAuthRepository (Password : Type) where
  /-- The user of the row of `auth_bootstrap`. -/
  bootstrap : Option UUID
  users : Dict UUID (UserRecord Password)
  sessions : List Session

variable {Password : Type}

namespace SqlAuthRepository

def empty : SqlAuthRepository Password := ⟨none, .empty, []⟩

def integrityError : Exn := ⟨.integrityError, "constraint failed"⟩

variable (repo : SqlAuthRepository Password) (now : Instant)

/-- A user breaks a constraint of its table with an id or a name that is taken. -/
def userTaken (newId : UUID) (username : String) : Bool :=
  (repo.users.get? newId).isSome || repo.users.values.any (·.username = username)

def initializeAdmin (normalize : String → String) (newId : UUID) (username displayName : String)
    (password : Password) : Except Exn (UserRecord Password × SqlAuthRepository Password) := do
  let normalized ← validateUsername normalize username
  if repo.bootstrap.isSome then .error alreadyInitialized
  if repo.userTaken newId normalized then
    -- the transaction is rolled back, and `is_initialized` looks again
    if repo.bootstrap.isSome then .error alreadyInitialized
    .error usernameConflict
  let user : UserRecord Password := ⟨newId, normalized, displayName, .admin, true, now, now, password⟩
  return (user, { repo with bootstrap := some newId, users := repo.users.set newId user })

def findUser (normalize : String → String) (username : String) : Option (UserRecord Password) :=
  repo.users.values.find? (·.username = normalize username)

/-- Nothing is deleted when the insert fails. -/
def createSession (foreignKeys : Bool) (userId : UUID) (tokenDigest : Digest) (expiresAt : Instant) :
    Except Exn (SqlAuthRepository Password) :=
  let kept := repo.sessions.filter (AuthRepository.live now)
  if kept.any (·.tokenDigest = tokenDigest) || foreignKeys && (repo.users.get? userId).isNone then
    .error integrityError
  else .ok { repo with sessions := kept ++ [⟨userId, tokenDigest, expiresAt, none⟩] }

def resolveSession (tokenDigest : Digest) : Option (UserRecord Password) :=
  (repo.sessions.find? fun session => session.tokenDigest = tokenDigest ∧ AuthRepository.live now session).bind
    fun session => (repo.users.get? session.userId).filter (·.isActive)

def revokeSession (tokenDigest : Digest) : SqlAuthRepository Password :=
  { repo with sessions := AuthRepository.revokeFirst now tokenDigest repo.sessions }

/-- A call at a time. -/
def on (foreignKeys : Bool) (normalize : String → String) (repo : SqlAuthRepository Password) :
    Instant × AuthCall Password → Except Exn (AuthAnswer Password) × SqlAuthRepository Password
  | (_, .isInitialized) => (.ok (.flag repo.bootstrap.isSome), repo)
  | (now, .initializeAdmin newId username displayName password) =>
    match repo.initializeAdmin now normalize newId username displayName password with
    | .ok (user, after) => (.ok (.user user), after)
    | .error e => (.error e, repo)
  | (_, .findUser username) => (.ok (.found (repo.findUser normalize username)), repo)
  | (now, .createSession userId tokenDigest expiresAt) =>
    match repo.createSession now foreignKeys userId tokenDigest expiresAt with
    | .ok after => (.ok .done, after)
    | .error e => (.error e, repo)
  | (now, .resolveSession tokenDigest) => (.ok (.found (repo.resolveSession now tokenDigest)), repo)
  | (now, .revokeSession tokenDigest) => (.ok .done, repo.revokeSession now tokenDigest)

end SqlAuthRepository

/-! ## Callers -/

/-- A session is created for a user that is stored. -/
def AuthCall.hasOwner (repo : AuthRepository Password) : AuthCall Password → Bool
  | .createSession userId _ _ => (repo.users.get? userId).isSome
  | _ => true

/-- So is every session of the calls. -/
def owned (normalize : String → String) : AuthRepository Password → List (Instant × AuthCall Password) → Bool
  | _, [] => true
  | repo, call :: rest => call.2.hasOwner repo && owned normalize (AuthRepository.on normalize repo call).2 rest

/-! ## The two repositories -/

structure Twins (drawn : List Digest) (repo : AuthRepository Password) (sql : SqlAuthRepository Password) : Prop where
  sole : SoleAdmin repo
  bootstrap : sql.bootstrap.isSome = repo.initialized
  users : sql.users = repo.users
  sessions : sql.sessions = repo.sessions
  distinct : (repo.sessions.map (·.tokenDigest)).Nodup
  issued : ∀ session ∈ repo.sessions, session.tokenDigest ∈ drawn

namespace Twins

variable {drawn : List Digest} {repo : AuthRepository Password} {sql : SqlAuthRepository Password}
  {normalize : String → String}

theorem empty : Twins [] (AuthRepository.empty : AuthRepository Password) .empty where
  sole := Or.inl ⟨rfl, rfl, rfl⟩
  bootstrap := rfl
  users := rfl
  sessions := rfl
  distinct := by simp [AuthRepository.empty]
  issued := by simp [AuthRepository.empty]

theorem findUser (h : Twins drawn repo sql) (username : String) :
    sql.findUser normalize username = repo.findUser normalize username := by
  unfold SqlAuthRepository.findUser AuthRepository.findUser
  rw [h.users]
  rcases h.sole with ⟨-, husers, husernames⟩ | ⟨-, admin, -, husers, husernames⟩
  · simp [husers, husernames]
  · have hvalues : repo.users.values = [admin] := by
      rw [husers]
      rfl
    rw [hvalues, husers, husernames, Dict.get?_set, Dict.get?_empty]
    by_cases hname : normalize username = admin.username
    · simp [hname]
    · simp [hname, Ne.symm hname]

/-- With one session a digest, the condition on the time may stand in the search or after it. -/
theorem resolveSession (h : Twins drawn repo sql) (now : Instant) (tokenDigest : Digest) :
    sql.resolveSession now tokenDigest = repo.resolveSession now tokenDigest := by
  unfold SqlAuthRepository.resolveSession AuthRepository.resolveSession
  rw [h.users, h.sessions]
  have hdistinct := h.distinct
  generalize repo.sessions = sessions at hdistinct
  induction sessions with
  | nil => rfl
  | cons session rest ih =>
    rw [List.map_cons, List.nodup_cons] at hdistinct
    by_cases hd : session.tokenDigest = tokenDigest
    · have hrest : rest.find? (fun other => decide (other.tokenDigest = tokenDigest) && AuthRepository.live now other) =
          none := by
        rw [List.find?_eq_none]
        intro other hother
        have hne : other.tokenDigest ≠ tokenDigest :=
          fun heq => hdistinct.1 (List.mem_map.mpr ⟨other, hother, heq.trans hd.symm⟩)
        simp [hne]
      cases hlive : AuthRepository.live now session with
      | false => simp [hd, hlive, hrest]
      | true => simp [hd, hlive]
    · simpa [List.find?_cons, hd] using ih hdistinct.2

/-- The tables have room for a user exactly when nobody is initialized. -/
theorem initializeAdmin (h : Twins drawn repo sql) (normalize : String → String) (now : Instant) (newId : UUID)
    (username displayName : String) (password : Password) :
    (∃ e, repo.initializeAdmin now normalize newId username displayName password = .error e ∧
      sql.initializeAdmin now normalize newId username displayName password = .error e) ∨
    ∃ user after, repo.initializeAdmin now normalize newId username displayName password = .ok (user, after) ∧
      sql.initializeAdmin now normalize newId username displayName password =
        .ok (user, { sql with bootstrap := some user.id, users := after.users }) := by
  unfold AuthRepository.initializeAdmin SqlAuthRepository.initializeAdmin
  cases hvalid : validateUsername normalize username with
  | error e => exact Or.inl ⟨e, rfl, rfl⟩
  | ok normalized =>
    rcases h.sole with ⟨hinit, husers, husernames⟩ | ⟨hinit, -⟩
    · have hboot : sql.bootstrap.isSome = false := h.bootstrap.trans hinit
      have hfree : sql.userTaken newId normalized = false := by
        unfold SqlAuthRepository.userTaken
        rw [h.users, husers]
        rfl
      refine Or.inr ⟨⟨newId, normalized, displayName, .admin, true, now, now, password⟩, { repo with
        initialized := true
        users := repo.users.set newId ⟨newId, normalized, displayName, .admin, true, now, now, password⟩
        usernames := repo.usernames.set normalized newId }, ?_, ?_⟩
      · simp [bind, Except.bind, pure, Except.pure, hinit, husernames]
      · simp [bind, Except.bind, pure, Except.pure, hboot, hfree, h.users]
    · have hboot : sql.bootstrap.isSome = true := h.bootstrap.trans hinit
      exact Or.inl ⟨alreadyInitialized, by simp [bind, Except.bind, hinit], by simp [bind, Except.bind, hboot]⟩

theorem unused (h : Twins drawn repo sql) {tokenDigest : Digest} (hnew : tokenDigest ∉ drawn) :
    ∀ session ∈ repo.sessions, session.tokenDigest ≠ tokenDigest := by
  rintro session hsession rfl
  exact hnew (h.issued session hsession)

theorem createSession (h : Twins drawn repo sql) (now : Instant) (foreignKeys : Bool) {userId : UUID}
    {tokenDigest : Digest} (expiresAt : Instant) (hnew : tokenDigest ∉ drawn)
    (howner : (repo.users.get? userId).isSome = true) :
    sql.createSession now foreignKeys userId tokenDigest expiresAt =
      .ok { sql with sessions := (repo.createSession now userId tokenDigest expiresAt).sessions } := by
  have hkept : (repo.sessions.filter (AuthRepository.live now)).any (·.tokenDigest = tokenDigest) = false := by
    rw [List.any_eq_false]
    intro session hsession heq
    exact h.unused hnew session (List.mem_filter.mp hsession).1 (of_decide_eq_true heq)
  have hsome : (repo.users.get? userId).isNone = false := by
    rw [← Option.not_isSome, howner, Bool.not_true]
  unfold SqlAuthRepository.createSession
  simp only [h.sessions, h.users, hkept, hsome, Bool.and_false, Bool.or_self, Bool.false_eq_true, if_false]
  rfl

theorem step (h : Twins drawn repo sql) (foreignKeys : Bool) (called : Instant) (call : AuthCall Password)
    (hnew : ∀ tokenDigest, AuthCall.issues (called, call) = some tokenDigest → tokenDigest ∉ drawn)
    (howner : call.hasOwner repo = true) :
    (AuthRepository.on normalize repo (called, call)).1 =
        (SqlAuthRepository.on foreignKeys normalize sql (called, call)).1 ∧
      Twins (drawn ++ (AuthCall.issues (called, call)).toList) (AuthRepository.on normalize repo (called, call)).2
        (SqlAuthRepository.on foreignKeys normalize sql (called, call)).2 := by
  have hread : Twins (drawn ++ []) repo sql := by simpa using h
  cases call with
  | isInitialized => exact ⟨by simp only [AuthRepository.on, SqlAuthRepository.on, h.bootstrap], hread⟩
  | findUser username =>
    exact ⟨by simp only [AuthRepository.on, SqlAuthRepository.on, h.findUser], hread⟩
  | resolveSession tokenDigest =>
    exact ⟨by simp only [AuthRepository.on, SqlAuthRepository.on, h.resolveSession], hread⟩
  | initializeAdmin newId username displayName password =>
    have hsole : SoleAdmin (AuthRepository.on normalize repo
        (called, .initializeAdmin newId username displayName password)).2 := h.sole.on _
    simp only [AuthRepository.on, SqlAuthRepository.on] at hsole ⊢
    rcases h.initializeAdmin normalize called newId username displayName password with
      ⟨e, hmemory, hsql⟩ | ⟨user, after, hmemory, hsql⟩
    · rw [hmemory, hsql]
      exact ⟨rfl, hread⟩
    · rw [hmemory] at hsole
      rw [hmemory, hsql]
      obtain ⟨-, -, rfl⟩ := AuthRepository.initializeAdmin_ok hmemory
      exact ⟨rfl, hsole, rfl, rfl, h.sessions, h.distinct, hread.issued⟩
  | createSession userId tokenDigest expiresAt =>
    have hsql := h.createSession called foreignKeys expiresAt (hnew tokenDigest rfl) howner
    simp only [AuthRepository.on, SqlAuthRepository.on, hsql]
    refine ⟨trivial, h.sole, h.bootstrap, h.users, rfl, ?_, ?_⟩
    · exact AuthRepository.created_distinct h.distinct (h.unused (hnew tokenDigest rfl)) called userId expiresAt
    · intro session hsession
      rcases List.mem_append.mp hsession with hold | hlast
      · exact List.mem_append_left _ (h.issued session (List.mem_filter.mp hold).1)
      · obtain rfl := List.mem_singleton.mp hlast
        simp [AuthCall.issues]
  | revokeSession tokenDigest =>
    have hdigests := AuthRepository.revokeFirst_digests called tokenDigest repo.sessions
    simp only [AuthRepository.on, SqlAuthRepository.on, AuthRepository.revokeSession, SqlAuthRepository.revokeSession,
      h.sessions]
    refine ⟨trivial, h.sole, h.bootstrap, h.users, rfl, ?_, ?_⟩
    · rw [hdigests]
      exact h.distinct
    · intro session hsession
      have hmem : session.tokenDigest ∈ repo.sessions.map (·.tokenDigest) := by
        rw [← hdigests]
        exact List.mem_map_of_mem hsession
      obtain ⟨before, hbefore, heq⟩ := List.mem_map.mp hmem
      rw [← heq]
      exact List.mem_append_left _ (h.issued before hbefore)

end Twins

/-! ## Every sequence of calls -/

theorem Twins.answer_alike (foreignKeys : Bool) (normalize : String → String) {drawn : List Digest}
    {repo : AuthRepository Password} {sql : SqlAuthRepository Password} (h : Twins drawn repo sql)
    {calls : List (Instant × AuthCall Password)} (hissued : DrawnOnce AuthCall.issues drawn calls)
    (howned : owned normalize repo calls = true) :
    answers (AuthRepository.on normalize) repo calls =
      answers (SqlAuthRepository.on foreignKeys normalize) sql calls := by
  induction calls generalizing drawn repo sql with
  | nil => rfl
  | cons call rest ih =>
    obtain ⟨hnew, hrest⟩ := drawnOnce_cons hissued
    obtain ⟨howner, hownedRest⟩ := Bool.and_eq_true_iff.mp howned
    obtain ⟨hsame, hnext⟩ := h.step foreignKeys call.1 call.2 hnew howner
    unfold answers
    rw [hsame, ih hnext hrest hownedRest]

/-- Both repositories answer every sequence of calls alike, errors included, whether or not the database checks
foreign keys. -/
theorem auth_answers_alike (foreignKeys : Bool) (normalize : String → String)
    (calls : List (Instant × AuthCall Password)) (hissued : DrawnOnce AuthCall.issues [] calls)
    (howned : owned normalize .empty calls = true) :
    answers (AuthRepository.on normalize) .empty calls =
      answers (SqlAuthRepository.on foreignKeys normalize) .empty calls :=
  Twins.empty.answer_alike foreignKeys normalize hissued howned

theorem admin_answers_alike : owned id .empty adminCalls = true ∧
    answers (AuthRepository.on id) .empty adminCalls =
      answers (SqlAuthRepository.on true id) .empty adminCalls := by
  have howned : owned id .empty adminCalls = true := by decide
  exact ⟨howned, auth_answers_alike true id adminCalls (by decide) howned⟩

end SmartTest.Auth
