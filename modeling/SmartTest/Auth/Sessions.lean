import SmartTest.Lib.Dict
import SmartTest.Lib.Transactions
import SmartTest.Run.Domain

/-!
# Users and sessions

`AuthRepository` of `services/api/auth_repository.py`. Every method holds the lock, so one call is
one step. Creating a session drops the sessions that are over: a ledger that drops none says which
digests resolve. The normalization of Unicode is the parameter `normalize`.
-/

open SmartTest.Lib SmartTest.Run

namespace SmartTest.Auth

/-! ## Records -/

abbrev Digest := List UInt8

inductive UserRole where
  | admin
  deriving DecidableEq, Repr

/-- The digest of the password is the parameter `Password`. -/
structure UserRecord (Password : Type) where
  id : UUID
  username : String
  displayName : String
  role : UserRole
  isActive : Bool
  createdAt : Instant
  updatedAt : Instant
  password : Password

structure Session where
  userId : UUID
  tokenDigest : Digest
  expiresAt : Instant
  revokedAt : Option Instant
  deriving DecidableEq

def isUsernameChar (c : Char) : Bool :=
  ('A' ≤ c ∧ c ≤ 'Z') ∨ ('a' ≤ c ∧ c ≤ 'z') ∨ ('0' ≤ c ∧ c ≤ '9') ∨ c = '.' ∨ c = '_' ∨ c = '-'

/-- `USERNAME_PATTERN.fullmatch`. -/
def isUsername (username : String) : Bool :=
  3 ≤ username.length ∧ username.length ≤ 64 ∧ username.toList.all isUsernameChar

/-- `validate_username`. -/
def validateUsername (normalize : String → String) (username : String) : Except Exn String :=
  if isUsername (normalize username) then .ok (normalize username)
  else .error ⟨.valueError, "username contains unsafe characters"⟩

def alreadyInitialized : Exn := ⟨.other "AuthAlreadyInitialized", "authentication is already initialized"⟩

def usernameConflict : Exn := ⟨.other "UsernameConflict", "username is already in use"⟩

/-! ## The repository -/

structure AuthRepository (Password : Type) where
  initialized : Bool
  users : Dict UUID (UserRecord Password)
  usernames : Dict String UUID
  sessions : List Session

variable {Password : Type}

/-- A call of a method, with the ids that it draws. -/
inductive AuthCall (Password : Type) where
  | isInitialized
  | initializeAdmin (newId : UUID) (username displayName : String) (password : Password)
  | findUser (username : String)
  | createSession (userId : UUID) (tokenDigest : Digest) (expiresAt : Instant)
  | resolveSession (tokenDigest : Digest)
  | revokeSession (tokenDigest : Digest)

inductive AuthAnswer (Password : Type) where
  | flag (value : Bool)
  | user (record : UserRecord Password)
  | found (record : Option (UserRecord Password))
  | done

namespace AuthRepository

def empty : AuthRepository Password := ⟨false, .empty, .empty, []⟩

variable (repo : AuthRepository Password) (now : Instant)

def initializeAdmin (normalize : String → String) (newId : UUID) (username displayName : String)
    (password : Password) : Except Exn (UserRecord Password × AuthRepository Password) := do
  let normalized ← validateUsername normalize username
  if repo.initialized then .error alreadyInitialized
  if (repo.usernames.get? normalized).isSome then .error usernameConflict
  let user : UserRecord Password := ⟨newId, normalized, displayName, .admin, true, now, now, password⟩
  return (user, { repo with
    initialized := true
    users := repo.users.set newId user
    usernames := repo.usernames.set normalized newId })

theorem initializeAdmin_ok {repo : AuthRepository Password} {now : Instant} {normalize : String → String} {newId : UUID}
    {username displayName : String} {password : Password} {user : UserRecord Password} {after : AuthRepository Password}
    (h : repo.initializeAdmin now normalize newId username displayName password = .ok (user, after)) :
    repo.initialized = false ∧ user.isActive = true ∧ after = { repo with
      initialized := true
      users := repo.users.set user.id user
      usernames := repo.usernames.set user.username user.id } := by
  simp only [initializeAdmin, bind, Except.bind] at h
  split at h
  · cases h
  · split_ifs at h with hinitialized hconflict
    cases h
    exact ⟨by simpa using hinitialized, rfl, rfl⟩

def findUser (normalize : String → String) (username : String) : Option (UserRecord Password) :=
  (repo.usernames.get? (normalize username)).bind repo.users.get?

/-- A session that is neither revoked nor over. -/
def live (session : Session) : Bool := session.revokedAt.isNone ∧ session.expiresAt > now

def createSession (userId : UUID) (tokenDigest : Digest) (expiresAt : Instant) : AuthRepository Password :=
  { repo with sessions := repo.sessions.filter (live now) ++ [⟨userId, tokenDigest, expiresAt, none⟩] }

theorem created_distinct {sessions : List Session} {tokenDigest : Digest}
    (hdistinct : (sessions.map (·.tokenDigest)).Nodup)
    (hother : ∀ session ∈ sessions, session.tokenDigest ≠ tokenDigest) (now : Instant) (userId : UUID)
    (expiresAt : Instant) :
    ((sessions.filter (live now) ++ [(⟨userId, tokenDigest, expiresAt, none⟩ : Session)]).map
      (·.tokenDigest)).Nodup := by
  rw [List.map_append, List.map_singleton, List.nodup_append]
  refine ⟨hdistinct.sublist (List.filter_sublist.map _), by simp, ?_⟩
  intro d hd d' hd'
  obtain ⟨session, hsession, rfl⟩ := List.mem_map.mp hd
  obtain rfl := List.mem_singleton.mp hd'
  exact hother session (List.mem_filter.mp hsession).1

/-- The first session with the digest decides. -/
def resolveSession (tokenDigest : Digest) : Option (UserRecord Password) :=
  match repo.sessions.find? (·.tokenDigest = tokenDigest) with
  | none => none
  | some session => (repo.users.get? session.userId).filter fun user => live now session && user.isActive

def revokeFirst (tokenDigest : Digest) : List Session → List Session
  | [] => []
  | session :: rest =>
    if session.tokenDigest = tokenDigest then { session with revokedAt := some (session.revokedAt.getD now) } :: rest
    else session :: revokeFirst tokenDigest rest

theorem revokeFirst_digests (now : Instant) (tokenDigest : Digest) (sessions : List Session) :
    (revokeFirst now tokenDigest sessions).map (·.tokenDigest) = sessions.map (·.tokenDigest) := by
  induction sessions with
  | nil => rfl
  | cons session rest ih =>
    unfold revokeFirst
    split
    · rfl
    · rw [List.map_cons, List.map_cons, ih]

def revokeSession (tokenDigest : Digest) : AuthRepository Password :=
  { repo with sessions := revokeFirst now tokenDigest repo.sessions }

/-- A call at a time. -/
def on (normalize : String → String) (repo : AuthRepository Password) :
    Instant × AuthCall Password → Except Exn (AuthAnswer Password) × AuthRepository Password
  | (_, .isInitialized) => (.ok (.flag repo.initialized), repo)
  | (now, .initializeAdmin newId username displayName password) =>
    match repo.initializeAdmin now normalize newId username displayName password with
    | .ok (user, after) => (.ok (.user user), after)
    | .error e => (.error e, repo)
  | (_, .findUser username) => (.ok (.found (repo.findUser normalize username)), repo)
  | (now, .createSession userId tokenDigest expiresAt) =>
    (.ok .done, repo.createSession now userId tokenDigest expiresAt)
  | (now, .resolveSession tokenDigest) => (.ok (.found (repo.resolveSession now tokenDigest)), repo)
  | (now, .revokeSession tokenDigest) => (.ok .done, repo.revokeSession now tokenDigest)

end AuthRepository

/-! ## The ledger -/

/-- What was issued under a digest. -/
structure Issued where
  userId : UUID
  expiresAt : Instant
  revoked : Bool
  deriving DecidableEq

/-- Every session that was ever created, by its digest. -/
def ledgerOn (ledger : Dict Digest Issued) : Instant × AuthCall Password → Dict Digest Issued
  | (_, .createSession userId tokenDigest expiresAt) => ledger.set tokenDigest ⟨userId, expiresAt, false⟩
  | (_, .revokeSession tokenDigest) =>
    match ledger.get? tokenDigest with
    | some issued => ledger.set tokenDigest { issued with revoked := true }
    | none => ledger
  | _ => ledger

def ledgerOf (calls : List (Instant × AuthCall Password)) : Dict Digest Issued := calls.foldl ledgerOn .empty

/-- The digest that a call issues. -/
def AuthCall.issues : Instant × AuthCall Password → Option Digest
  | (_, .createSession _ tokenDigest _) => some tokenDigest
  | _ => none

/-- What a call does to one entry of the ledger. -/
theorem get?_ledgerOn (ledger : Dict Digest Issued) (called : Instant) (call : AuthCall Password) (d : Digest) :
    (ledgerOn ledger (called, call)).get? d = match call with
      | .createSession userId tokenDigest expiresAt =>
        if d = tokenDigest then some ⟨userId, expiresAt, false⟩ else ledger.get? d
      | .revokeSession tokenDigest =>
        (ledger.get? d).map fun issued => if d = tokenDigest then { issued with revoked := true } else issued
      | _ => ledger.get? d := by
  cases call with
  | createSession userId tokenDigest expiresAt => exact Dict.get?_set ..
  | revokeSession tokenDigest =>
    simp only [ledgerOn]
    cases hget : ledger.get? tokenDigest with
    | none =>
      by_cases hd : d = tokenDigest
      · simp [hd, hget]
      · simp [hd]
    | some issued =>
      rw [Dict.get?_set]
      by_cases hd : d = tokenDigest
      · simp [hd, hget]
      · simp [hd]
  | isInitialized => rfl
  | initializeAdmin newId username displayName password => rfl
  | findUser username => rfl
  | resolveSession tokenDigest => rfl

/-! ## The invariant -/

/-- The sessions are among those of the ledger, and those that are dropped are over. -/
structure Recorded (now : Instant) (ledger : Dict Digest Issued) (sessions : List Session) : Prop where
  distinct : (sessions.map (·.tokenDigest)).Nodup
  issued : ∀ session ∈ sessions, ledger.get? session.tokenDigest =
    some ⟨session.userId, session.expiresAt, session.revokedAt.isSome⟩
  kept : ∀ tokenDigest issued, ledger.get? tokenDigest = some issued → issued.revoked = false →
    now < issued.expiresAt → ∃ session ∈ sessions, session.tokenDigest = tokenDigest

namespace Recorded

variable {now : Instant} {ledger : Dict Digest Issued} {sessions : List Session}

theorem empty (now : Instant) : Recorded now .empty [] where
  distinct := by simp
  issued := by simp
  kept := by simp

theorem create (h : Recorded now ledger sessions) {created : Instant} (hcreated : created ≤ now) {tokenDigest : Digest}
    (hnew : ledger.get? tokenDigest = none) (userId : UUID) (expiresAt : Instant) :
    Recorded now (ledger.set tokenDigest ⟨userId, expiresAt, false⟩)
      (sessions.filter (AuthRepository.live created) ++ [⟨userId, tokenDigest, expiresAt, none⟩]) := by
  have hother : ∀ session ∈ sessions, session.tokenDigest ≠ tokenDigest := by
    rintro session hsession rfl
    simp [h.issued session hsession] at hnew
  constructor
  · exact AuthRepository.created_distinct h.distinct hother created userId expiresAt
  · intro session hsession
    rcases List.mem_append.mp hsession with hold | hnew
    · have hmem := (List.mem_filter.mp hold).1
      rw [Dict.get?_set, if_neg (hother session hmem), h.issued session hmem]
    · obtain rfl := List.mem_singleton.mp hnew
      simp
  · intro d issued hissued hrevoked hlive
    rw [Dict.get?_set] at hissued
    split at hissued
    · next heq => exact ⟨_, List.mem_append_right _ (List.mem_singleton_self _), heq.symm⟩
    · next hne =>
      obtain ⟨session, hsession, rfl⟩ := h.kept d issued hissued hrevoked hlive
      have hstill : created < session.expiresAt := by
        rw [h.issued session hsession, Option.some.injEq] at hissued
        subst hissued
        exact Int.lt_of_le_of_lt hcreated hlive
      refine ⟨session, List.mem_append_left _ (List.mem_filter.mpr ⟨hsession, ?_⟩), rfl⟩
      rw [h.issued session hsession, Option.some.injEq] at hissued
      subst hissued
      simp only at hrevoked hlive
      rw [Option.isSome_eq_false_iff] at hrevoked
      simp [AuthRepository.live, hrevoked, hstill]

/-- With one session a digest, the first one is the only one. -/
theorem revokeFirst_eq {tokenDigest : Digest} (hdistinct : (sessions.map (·.tokenDigest)).Nodup) (revoked : Instant) :
    AuthRepository.revokeFirst revoked tokenDigest sessions = sessions.map fun session =>
      if session.tokenDigest = tokenDigest then { session with revokedAt := some (session.revokedAt.getD revoked) }
      else session := by
  induction sessions with
  | nil => rfl
  | cons session rest ih =>
    rw [List.map_cons, List.nodup_cons] at hdistinct
    unfold AuthRepository.revokeFirst
    rw [List.map_cons]
    split
    · next heq =>
      subst heq
      have hrest : ∀ other ∈ rest, other.tokenDigest ≠ session.tokenDigest :=
        fun other hother heq => hdistinct.1 (List.mem_map.mpr ⟨other, hother, heq⟩)
      rw [List.map_congr_left fun other hother => if_neg (hrest other hother), List.map_id']
    · rw [ih hdistinct.2]

theorem revoke (h : Recorded now ledger sessions) (revoked : Instant) (tokenDigest : Digest) :
    Recorded now (ledgerOn ledger ((revoked, .revokeSession tokenDigest) : Instant × AuthCall Password))
      (AuthRepository.revokeFirst revoked tokenDigest sessions) := by
  rw [revokeFirst_eq h.distinct revoked]
  have hdigest : ∀ session : Session, (if session.tokenDigest = tokenDigest then
      { session with revokedAt := some (session.revokedAt.getD revoked) } else session).tokenDigest =
      session.tokenDigest := by
    intro session
    split <;> rfl
  have hledger : ∀ d, (ledgerOn ledger ((revoked, .revokeSession tokenDigest) : Instant × AuthCall Password)).get? d =
      (ledger.get? d).map fun issued => if d = tokenDigest then { issued with revoked := true } else issued :=
    get?_ledgerOn ledger revoked (.revokeSession tokenDigest : AuthCall Password)
  constructor
  · rw [← revokeFirst_eq h.distinct revoked, AuthRepository.revokeFirst_digests]
    exact h.distinct
  · intro session hsession
    obtain ⟨before, hbefore, rfl⟩ := List.mem_map.mp hsession
    rw [hdigest, hledger, h.issued before hbefore]
    by_cases hd : before.tokenDigest = tokenDigest
    · simp [hd]
    · simp [hd]
  · intro d issued hissued hrevoked hlive
    rw [hledger, Option.map_eq_some_iff] at hissued
    obtain ⟨before, hbefore, rfl⟩ := hissued
    have hd : d ≠ tokenDigest := by
      rintro rfl
      simp at hrevoked
    rw [if_neg hd] at hrevoked hlive
    obtain ⟨session, hsession, heq⟩ := h.kept d before hbefore hrevoked hlive
    exact ⟨_, List.mem_map_of_mem hsession, (hdigest session).trans heq⟩

/-- What resolves is what the ledger has, neither revoked nor over. -/
theorem resolve_iff {repo : AuthRepository Password} (h : Recorded now ledger repo.sessions)
    (tokenDigest : Digest) (user : UserRecord Password) : repo.resolveSession now tokenDigest = some user ↔
      ∃ userId expiresAt, ledger.get? tokenDigest = some ⟨userId, expiresAt, false⟩ ∧ now < expiresAt ∧
        repo.users.get? userId = some user ∧ user.isActive = true := by
  unfold AuthRepository.resolveSession
  cases hfind : repo.sessions.find? (·.tokenDigest = tokenDigest) with
  | none =>
    simp only [reduceCtorEq, false_iff]
    rintro ⟨userId, expiresAt, hissued, hlive, -⟩
    obtain ⟨session, hsession, heq⟩ := h.kept _ _ hissued rfl hlive
    have := List.find?_eq_none.mp hfind session hsession
    simp [heq] at this
  | some session =>
    have hsession := List.mem_of_find?_eq_some hfind
    obtain rfl : session.tokenDigest = tokenDigest := by simpa using List.find?_some hfind
    have hissued := h.issued session hsession
    simp only [Option.filter_eq_some_iff, AuthRepository.live, hissued, Option.some.injEq, Issued.mk.injEq]
    constructor
    · rintro ⟨huser, hlive⟩
      simp only [Bool.and_eq_true, decide_eq_true_eq, Option.isNone_iff_eq_none] at hlive
      exact ⟨_, _, ⟨rfl, rfl, by simp [hlive.1.1]⟩, hlive.1.2, huser, hlive.2⟩
    · rintro ⟨_, _, ⟨rfl, rfl, hrevoked⟩, hlive, huser, hactive⟩
      refine ⟨huser, ?_⟩
      rw [Option.isSome_eq_false_iff] at hrevoked
      simp [hrevoked, hlive, hactive]

end Recorded


/-! ## Runs -/

/-- The repository after the calls. -/
def repoAfter (normalize : String → String) (calls : List (Instant × AuthCall Password)) : AuthRepository Password :=
  stateAfter (AuthRepository.on normalize) .empty calls

variable {normalize : String → String} {calls : List (Instant × AuthCall Password)} {now : Instant}

theorem repoAfter_concat (call : Instant × AuthCall Password) :
    repoAfter normalize (calls ++ [call]) = (AuthRepository.on normalize (repoAfter normalize calls) call).2 := by
  unfold repoAfter
  rw [stateAfter_append]
  rfl

theorem ledgerOf_concat (call : Instant × AuthCall Password) :
    ledgerOf (calls ++ [call]) = ledgerOn (ledgerOf calls) call := by
  unfold ledgerOf
  rw [List.foldl_append]
  rfl

theorem drawnOnce_concat {call : Instant × AuthCall Password} (h : DrawnOnce AuthCall.issues [] (calls ++ [call])) :
    DrawnOnce AuthCall.issues [] calls ∧
      ∀ tokenDigest, AuthCall.issues call = some tokenDigest → tokenDigest ∉ calls.filterMap AuthCall.issues := by
  unfold DrawnOnce at h ⊢
  rw [List.nil_append, List.filterMap_append, List.nodup_append] at h
  obtain ⟨hcalls, -, hapart⟩ := h
  refine ⟨by simpa using hcalls, ?_⟩
  intro tokenDigest hissues hmem
  exact hapart tokenDigest hmem tokenDigest (by simp [hissues]) rfl

/-- The ledger has no digest that was never issued. -/
theorem ledger_none {d : Digest} (h : d ∉ calls.filterMap AuthCall.issues) : (ledgerOf calls).get? d = none := by
  induction calls using List.reverseRecOn with
  | nil => rfl
  | append_singleton calls call ih =>
    obtain ⟨called, call⟩ := call
    rw [List.filterMap_append, List.mem_append, not_or] at h
    rw [ledgerOf_concat, get?_ledgerOn, ih h.1]
    cases call with
    | createSession userId tokenDigest expiresAt =>
      have hne : d ≠ tokenDigest := by simpa [AuthCall.issues] using h.2
      simp [hne]
    | revokeSession tokenDigest => rfl
    | isInitialized => rfl
    | initializeAdmin newId username displayName password => rfl
    | findUser username => rfl
    | resolveSession tokenDigest => rfl

/-- Only the two calls that touch sessions change them. -/
theorem on_sessions (repo : AuthRepository Password) (called : Instant) (call : AuthCall Password) :
    (AuthRepository.on normalize repo (called, call)).2.sessions = match call with
      | .createSession userId tokenDigest expiresAt =>
        repo.sessions.filter (AuthRepository.live called) ++ [⟨userId, tokenDigest, expiresAt, none⟩]
      | .revokeSession tokenDigest => AuthRepository.revokeFirst called tokenDigest repo.sessions
      | _ => repo.sessions := by
  cases call with
  | initializeAdmin newId username displayName password =>
    simp only [AuthRepository.on]
    split
    · next user after hok =>
      obtain ⟨-, -, rfl⟩ := AuthRepository.initializeAdmin_ok hok
      rfl
    · rfl
  | createSession userId tokenDigest expiresAt => rfl
  | revokeSession tokenDigest => rfl
  | isInitialized => rfl
  | findUser username => rfl
  | resolveSession tokenDigest => rfl

theorem Recorded.run (hissued : DrawnOnce AuthCall.issues [] calls)
    (hnow : ∀ call ∈ calls, (AuthCall.issues call).isSome → call.1 ≤ now) :
    Recorded now (ledgerOf calls) (repoAfter normalize calls).sessions := by
  induction calls using List.reverseRecOn with
  | nil => exact .empty now
  | append_singleton calls call ih =>
    obtain ⟨called, call⟩ := call
    obtain ⟨hbefore, hnew⟩ := drawnOnce_concat hissued
    have h := ih hbefore fun call hcall => hnow call (List.mem_append_left _ hcall)
    rw [ledgerOf_concat, repoAfter_concat, on_sessions]
    cases call with
    | createSession userId tokenDigest expiresAt =>
      have hcreated : called ≤ now :=
        hnow (called, .createSession userId tokenDigest expiresAt) (List.mem_append_right _ List.mem_cons_self) rfl
      exact h.create hcreated (ledger_none (hnew tokenDigest rfl)) userId expiresAt
    | revokeSession tokenDigest => exact h.revoke called tokenDigest
    | isInitialized => exact h
    | initializeAdmin newId username displayName password => exact h
    | findUser username => exact h
    | resolveSession tokenDigest => exact h

/-! ## What the ledger means -/

/-- A session was created under the digest and not revoked since. -/
def StillOpen (calls : List (Instant × AuthCall Password)) (tokenDigest : Digest) (userId : UUID)
    (expiresAt : Instant) : Prop :=
  ∃ before created after, calls = before ++ (created, .createSession userId tokenDigest expiresAt) :: after ∧
    ∀ revoked, (revoked, .revokeSession tokenDigest) ∉ after

theorem stillOpen_concat {called : Instant} {call : AuthCall Password} {d : Digest} {userId : UUID}
    {expiresAt : Instant} : StillOpen (calls ++ [(called, call)]) d userId expiresAt ↔
      call = .createSession userId d expiresAt ∨ StillOpen calls d userId expiresAt ∧ call ≠ .revokeSession d := by
  constructor
  · rintro ⟨before, created, after, heq, hopen⟩
    rcases List.eq_nil_or_concat after with rfl | ⟨after, last, rfl⟩
    · obtain ⟨-, hlast⟩ := List.append_inj' heq rfl
      exact Or.inl (Prod.mk.inj (List.cons.inj hlast).1).2
    · rw [List.concat_eq_append, ← List.cons_append, ← List.append_assoc] at heq
      obtain ⟨hcalls, hlast⟩ := List.append_inj' heq rfl
      obtain rfl := (List.cons.inj hlast).1
      rw [List.concat_eq_append] at hopen
      refine Or.inr ⟨⟨before, created, after, hcalls, ?_⟩, ?_⟩
      · exact fun revoked hmem => hopen revoked (List.mem_append_left _ hmem)
      · rintro rfl
        exact hopen called (by simp)
  · rintro (rfl | ⟨⟨before, created, after, rfl, hopen⟩, hcall⟩)
    · exact ⟨calls, called, [], rfl, by simp⟩
    · refine ⟨before, created, after ++ [(called, call)], by simp, ?_⟩
      intro revoked hmem
      rcases List.mem_append.mp hmem with hmem | hmem
      · exact hopen revoked hmem
      · exact hcall (Prod.mk.inj (List.mem_singleton.mp hmem)).2.symm

/-- The ledger holds what is open. -/
theorem ledger_open_iff (hissued : DrawnOnce AuthCall.issues [] calls) {d : Digest} {userId : UUID}
    {expiresAt : Instant} :
    (ledgerOf calls).get? d = some ⟨userId, expiresAt, false⟩ ↔ StillOpen calls d userId expiresAt := by
  induction calls using List.reverseRecOn with
  | nil =>
    simp only [ledgerOf, List.foldl_nil, Dict.get?_empty, reduceCtorEq, false_iff]
    rintro ⟨before, created, after, heq, -⟩
    simp at heq
  | append_singleton calls call ih =>
    obtain ⟨called, call⟩ := call
    obtain ⟨hbefore, hnew⟩ := drawnOnce_concat hissued
    rw [ledgerOf_concat, get?_ledgerOn, stillOpen_concat, ← ih hbefore]
    cases call with
    | createSession creator tokenDigest expiry =>
      by_cases hd : d = tokenDigest
      · subst hd
        simp [ledger_none (hnew d rfl)]
      · simp [hd, Ne.symm hd]
    | revokeSession tokenDigest =>
      by_cases hd : d = tokenDigest
      · simp [hd]
      · simp [hd, Ne.symm hd]
    | isInitialized => simp
    | initializeAdmin newId username displayName password => simp
    | findUser username => simp
    | resolveSession tokenDigest => simp

/-! ## The only user -/

/-- Nobody before the initialization, one active administrator after it. -/
def SoleAdmin (repo : AuthRepository Password) : Prop :=
  repo.initialized = false ∧ repo.users = .empty ∧ repo.usernames = .empty ∨
    repo.initialized = true ∧ ∃ user : UserRecord Password, user.isActive = true ∧
      repo.users = Dict.empty.set user.id user ∧ repo.usernames = Dict.empty.set user.username user.id

theorem SoleAdmin.on {repo : AuthRepository Password} (h : SoleAdmin repo) (call : Instant × AuthCall Password) :
    SoleAdmin (AuthRepository.on normalize repo call).2 := by
  obtain ⟨called, call⟩ := call
  cases call with
  | initializeAdmin newId username displayName password =>
    simp only [AuthRepository.on]
    split
    · next user after hok =>
      obtain ⟨hinitialized, hactive, rfl⟩ := AuthRepository.initializeAdmin_ok hok
      rcases h with ⟨-, husers, husernames⟩ | ⟨hdone, -⟩
      · rw [husers, husernames]
        exact Or.inr ⟨rfl, user, hactive, rfl, rfl⟩
      · simp [hinitialized] at hdone
    · exact h
  | createSession userId tokenDigest expiresAt => exact h
  | revokeSession tokenDigest => exact h
  | isInitialized => exact h
  | findUser username => exact h
  | resolveSession tokenDigest => exact h

theorem soleAdmin_run (normalize : String → String) (calls : List (Instant × AuthCall Password)) :
    SoleAdmin (repoAfter normalize calls) := by
  induction calls using List.reverseRecOn with
  | nil => exact Or.inl ⟨rfl, rfl, rfl⟩
  | append_singleton calls call ih =>
    rw [repoAfter_concat]
    exact ih.on call

theorem SoleAdmin.active_iff {repo : AuthRepository Password} (h : SoleAdmin repo) {userId : UUID}
    {user : UserRecord Password} : repo.users.get? userId = some user ∧ user.isActive = true ↔
      repo.users.values = [user] ∧ userId = user.id := by
  rcases h with ⟨-, husers, -⟩ | ⟨-, admin, hactive, husers, -⟩
  · simp [husers]
  · have hvalues : repo.users.values = [admin] := by
      rw [husers]
      rfl
    rw [hvalues, husers, Dict.get?_set, Dict.get?_empty, List.singleton_inj]
    constructor
    · rintro ⟨hget, -⟩
      split at hget
      · next hid => exact ⟨Option.some.inj hget, hid.trans (congrArg UserRecord.id (Option.some.inj hget))⟩
      · cases hget
    · rintro ⟨rfl, rfl⟩
      exact ⟨by rw [if_pos rfl], hactive⟩

/-! ## Every run -/

/-- A session gives the only user exactly while it is open and not over, whatever was dropped in between. -/
theorem sessions_exact (normalize : String → String) {calls : List (Instant × AuthCall Password)} {now : Instant}
    (hissued : DrawnOnce AuthCall.issues [] calls)
    (hnow : ∀ call ∈ calls, (AuthCall.issues call).isSome → call.1 ≤ now) (tokenDigest : Digest)
    (user : UserRecord Password) : (repoAfter normalize calls).resolveSession now tokenDigest = some user ↔
      (repoAfter normalize calls).users.values = [user] ∧
        ∃ expiresAt, StillOpen calls tokenDigest user.id expiresAt ∧ now < expiresAt := by
  have hsole := soleAdmin_run normalize calls
  rw [(Recorded.run hissued hnow).resolve_iff]
  constructor
  · rintro ⟨userId, expiresAt, hledger, hlive, hactive⟩
    obtain ⟨husers, rfl⟩ := hsole.active_iff.mp hactive
    exact ⟨husers, expiresAt, (ledger_open_iff hissued).mp hledger, hlive⟩
  · rintro ⟨husers, expiresAt, hopen, hlive⟩
    exact ⟨user.id, expiresAt, (ledger_open_iff hissued).mpr hopen, hlive, hsole.active_iff.mpr ⟨husers, rfl⟩⟩

/-- A session that is dropped, one that is revoked and one that is open. -/
def adminCalls : List (Instant × AuthCall Unit) :=
  [(0, .initializeAdmin ⟨"a"⟩ "admin" "Admin" ()), (1, .createSession ⟨"a"⟩ [1] 3), (2, .createSession ⟨"a"⟩ [2] 9),
    (2, .revokeSession [2]), (4, .createSession ⟨"a"⟩ [3] 9)]

def admin : UserRecord Unit := ⟨⟨"a"⟩, "admin", "Admin", .admin, true, 0, 0, ()⟩

theorem admin_session_exact : (repoAfter id adminCalls).users.values = [admin] ∧
    (repoAfter id adminCalls).resolveSession 5 [3] = some admin := by
  have husers : (repoAfter id adminCalls).users.values = [admin] := rfl
  have hopen : StillOpen adminCalls [3] admin.id 9 := ⟨adminCalls.take 4, 4, [], rfl, by simp⟩
  exact ⟨husers, (sessions_exact id (by decide) (by decide) [3] admin).mpr ⟨husers, 9, hopen, by decide⟩⟩

end SmartTest.Auth
