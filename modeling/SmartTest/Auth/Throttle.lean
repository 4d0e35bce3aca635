import Mathlib.Algebra.Order.Ring.Rat
import Mathlib.Data.List.TakeWhile
import SmartTest.Lib.Crew
import SmartTest.Lib.Dict
import SmartTest.Lib.SlidingWindow

/-!
# Login throttling

`LoginThrottle` of `services/api/auth_throttle.py` and the route `login` of
`services/api/auth_routes.py` that uses it. Any number of logins run at once. A step is what
one of them does under the lock, with the semaphore, or between two such moments.
-/

open SmartTest.Lib

namespace SmartTest.Auth

/-! ## The throttle -/

/-- The arguments of `LoginThrottle`. -/
structure ThrottleConfig where
  maxFailures : Nat
  windowSeconds : Rat
  maxConcurrent : Nat

/-- `slots` is the value of the semaphore. -/
structure LoginThrottle where
  attempts : Dict String (List Rat)
  slots : Nat

namespace LoginThrottle

def start (config : ThrottleConfig) : LoginThrottle := ⟨.empty, config.maxConcurrent⟩

/-- The `defaultdict`. -/
def recent (t : LoginThrottle) (key : String) : List Rat := (t.attempts.get? key).getD []

/-- `self._slots.acquire(blocking=False)`. -/
def acquire (t : LoginThrottle) : Option LoginThrottle :=
  if t.slots = 0 then none else some { t with slots := t.slots - 1 }

/-- A `BoundedSemaphore` is not released past its first value. -/
def release (config : ThrottleConfig) (t : LoginThrottle) : Option LoginThrottle :=
  if t.slots < config.maxConcurrent then some { t with slots := t.slots + 1 } else none

/-- The block of `attempt` under the lock; the answer says whether the attempt goes on. -/
def check (config : ThrottleConfig) (now : Rat) (key : String) (t : LoginThrottle) : Bool × LoginThrottle :=
  let attempts := dropOld (now - config.windowSeconds) (t.recent key)
  (attempts.length < config.maxFailures, { t with attempts := t.attempts.set key attempts })

def recordFailure (now : Rat) (key : String) (t : LoginThrottle) : LoginThrottle :=
  { t with attempts := t.attempts.set key (t.recent key ++ [now]) }

def recordSuccess (key : String) (t : LoginThrottle) : LoginThrottle :=
  { t with attempts := t.attempts.erase key }

end LoginThrottle

/-! ## Logins -/

/-- How a call of `login` ends. -/
inductive LoginEnd where
  | rateLimited | invalidCredentials | loggedIn
  /-- Another exception of the block. -/
  | raised
  /-- `release` raised. -/
  | overReleased
  deriving DecidableEq

/-- Where a call of `login` is. -/
inductive Phase where
  | started
  /-- With a slot, before the check. -/
  | holding
  /-- In the block of the `with` statement. -/
  | inside
  /-- Before the slot is released. -/
  | leaving (outcome : LoginEnd)
  | ended (outcome : LoginEnd)
  deriving DecidableEq

/-- What the block finds out. An unknown user, a wrong password and an inactive user are refused. -/
inductive Verdict where
  | refused | accepted | raised

structure Login where
  key : String
  phase : Phase

/-- `log` is history: what was recorded, and for which key. -/
structure System where
  throttle : LoginThrottle
  logins : List Login
  clock : Rat
  log : List (String × Mark Rat)

namespace System

def start (config : ThrottleConfig) (clock : Rat) : System := ⟨.start config, [], clock, []⟩

def move (s : System) (i : Nat) (login : Login) (phase : Phase) : System :=
  { s with logins := s.logins.set i { login with phase := phase } }

def record (s : System) (key : String) (throttle : LoginThrottle) (resets : Bool) : System :=
  { s with throttle := throttle, log := s.log ++ [(key, ⟨s.clock, resets⟩)] }

/-- The next step of a login. -/
def advance (config : ThrottleConfig) (s : System) (i : Nat) (login : Login) (verdict : Verdict) : System :=
  match login.phase with
  | .started =>
    match s.throttle.acquire with
    | none => s.move i login (.ended .rateLimited)
    | some throttle => { s with throttle := throttle }.move i login .holding
  | .holding =>
    let (passed, throttle) := s.throttle.check config s.clock login.key
    { s with throttle := throttle }.move i login (if passed then .inside else .leaving .rateLimited)
  | .inside =>
    match verdict with
    | .refused =>
      (s.record login.key (s.throttle.recordFailure s.clock login.key) false).move i login
        (.leaving .invalidCredentials)
    | .accepted => (s.record login.key (s.throttle.recordSuccess login.key) true).move i login (.leaving .loggedIn)
    | .raised => s.move i login (.leaving .raised)
  | .leaving outcome =>
    match s.throttle.release config with
    | none => s.move i login (.ended .overReleased)
    | some throttle => { s with throttle := throttle }.move i login (.ended outcome)
  | .ended _ => s

inductive Act where
  | arrive (key : String)
  | advance (i : Nat) (verdict : Verdict)

/-- A step at the time `now`, as far as the clock does not go back. A login that is not there does nothing. -/
def step (config : ThrottleConfig) (s : System) (now : Rat) (act : Act) : System :=
  let s := { s with clock := max s.clock now }
  match act with
  | .arrive key => { s with logins := s.logins ++ [⟨key, .started⟩] }
  | .advance i verdict =>
    match s.logins[i]? with
    | none => s
    | some login => s.advance config i login verdict

def run (config : ThrottleConfig) (clock : Rat) (acts : List (Rat × Act)) : System :=
  acts.foldl (fun s a => s.step config a.1 a.2) (start config clock)

/-- What was recorded for a key. -/
def marksOf (log : List (String × Mark Rat)) (key : String) : List (Mark Rat) := (log.filter (·.1 = key)).map (·.2)

def marks (s : System) (key : String) : List (Mark Rat) := marksOf s.log key

end System

/-- The failures since the last success that are less than a window old. -/
def System.recentFailures (config : ThrottleConfig) (s : System) (now : Rat) (key : String) : Nat :=
  (sinceReset (s.marks key)).countP fun t => now - config.windowSeconds < t

def Phase.inAttempt : Phase → Bool
  | .holding | .inside | .leaving _ => true
  | _ => false

/-- The slots a login holds. -/
def Phase.slots (phase : Phase) : Nat := if phase.inAttempt then 1 else 0

def Login.slots (login : Login) : Nat := login.phase.slots

/-- A login that may still record something for the key. -/
def Login.pending (key : String) (login : Login) : Nat := if login.key = key ∧ login.phase = .inside then 1 else 0

/-! ## The throttle's state -/

namespace LoginThrottle

variable {config : ThrottleConfig} {t t' : LoginThrottle} {key other : String} {now : Rat}

theorem recent_set (times : List Rat) :
    ({ t with attempts := t.attempts.set key times } : LoginThrottle).recent other =
      if other = key then times else t.recent other := by
  unfold recent
  rw [Dict.get?_set]
  split <;> simp_all

theorem recent_check : (t.check config now key).2.recent other =
    if other = key then dropOld (now - config.windowSeconds) (t.recent key) else t.recent other := recent_set _

theorem recent_recordFailure : (t.recordFailure now key).recent other =
    if other = key then t.recent key ++ [now] else t.recent other := recent_set _

theorem recent_recordSuccess : (t.recordSuccess key).recent other = if other = key then [] else t.recent other := by
  unfold recordSuccess recent
  rw [Dict.get?_erase]
  split <;> simp_all

theorem acquire_eq_some (h : t.acquire = some t') : t'.attempts = t.attempts ∧ t'.slots + 1 = t.slots := by
  unfold acquire at h
  split at h
  · cases h
  · obtain rfl := Option.some.inj h
    exact ⟨rfl, by simp only; omega⟩

theorem release_eq_some (h : t.release config = some t') : t'.attempts = t.attempts ∧ t'.slots = t.slots + 1 := by
  unfold release at h
  split at h
  · obtain rfl := Option.some.inj h
    exact ⟨rfl, rfl⟩
  · cases h

end LoginThrottle

/-! ## What a step can do -/

namespace System

variable {config : ThrottleConfig} {s : System}

theorem marks_record (s : System) (key : String) (throttle : LoginThrottle) (resets : Bool) (other : String) :
    (s.record key throttle resets).marks other =
      if other = key then s.marks key ++ [⟨s.clock, resets⟩] else s.marks other := by
  by_cases h : other = key
  · subst h
    simp [marks, marksOf, record]
  · have hne : ¬ key = other := fun heq => h heq.symm
    simp [marks, marksOf, record, h, hne]

/-- The slots, the failures that are kept and what has been recorded, together. -/
structure Inv (config : ThrottleConfig) (s : System) : Prop where
  slots : s.throttle.slots + crewSum Login.slots s.logins = config.maxConcurrent
  ended : ∀ login ∈ s.logins, login.phase ≠ .ended .overReleased ∧ login.phase ≠ .leaving .overReleased
  ordered : ∀ key, (s.marks key).Pairwise (·.time ≤ ·.time)
  past : ∀ key, ∀ mark ∈ s.marks key, mark.time ≤ s.clock
  kept : ∀ key, ∃ dropped, sinceReset (s.marks key) = dropped ++ s.throttle.recent key ∧
    ∀ t ∈ dropped, t ≤ s.clock - config.windowSeconds

/-- Failures in a window that has no success, with those that may still come while the window goes on. -/
def WithinBound (config : ThrottleConfig) (s : System) (key : String) (inside : Rat → Bool) : Prop :=
  (∀ mark ∈ s.marks key, mark.resets = true → inside mark.time = false) →
    countedIn inside (s.marks key) ≤ config.maxFailures + config.maxConcurrent - 1 ∧
    (∀ u, s.clock ≤ u → inside u = true →
      countedIn inside (s.marks key) + crewSum (Login.pending key) s.logins ≤
        config.maxFailures + config.maxConcurrent - 1)

theorem inv_start (config : ThrottleConfig) (clock : Rat) : Inv config (start config clock) where
  slots := by simp [start, LoginThrottle.start, crewSum]
  ended := by simp [start]
  ordered key := by simp [start, marks, marksOf]
  past key := by simp [start, marks, marksOf]
  kept key := ⟨[], by simp [start, marks, marksOf, sinceReset, LoginThrottle.start, LoginThrottle.recent], by simp⟩

/-- The failures that the check counts. -/
theorem Inv.check_eq (h : Inv config s) (key : String) :
    dropOld (s.clock - config.windowSeconds) (s.throttle.recent key) =
      (sinceReset (s.marks key)).filter fun t => s.clock - config.windowSeconds < t := by
  obtain ⟨dropped, hkept, hdropped⟩ := h.kept key
  have hsorted := sinceReset_sorted (h.ordered key)
  rw [hkept] at hsorted ⊢
  exact dropOld_kept le_rfl hdropped hsorted

/-- A login with a slot can release it. -/
theorem Inv.release (h : Inv config s) {i : Nat} {login : Login} (hi : s.logins[i]? = some login)
    (hslot : login.slots = 1) : ∃ throttle, s.throttle.release config = some throttle := by
  have hle : login.slots ≤ crewSum Login.slots s.logins := le_crewSum (List.mem_of_getElem? hi)
  have hslots := h.slots
  unfold LoginThrottle.release
  rw [if_pos (by omega)]
  exact ⟨_, rfl⟩

/-- The record of a login that ends its block. -/
def recorded (s : System) (login : Login) (resets : Bool) : System :=
  s.record login.key
    (if resets then s.throttle.recordSuccess login.key else s.throttle.recordFailure s.clock login.key) resets

theorem marks_recorded (s : System) (login : Login) (resets : Bool) (other : String) :
    (s.recorded login resets).marks other =
      if other = login.key then s.marks login.key ++ [⟨s.clock, resets⟩] else s.marks other :=
  marks_record s login.key _ resets other

theorem advance_cases (h : Inv config s) {i : Nat} {login : Login} (hi : s.logins[i]? = some login) (verdict : Verdict) :
    s.advance config i login verdict = s ∨
    (∃ throttle phase, s.advance config i login verdict = { s with throttle := throttle }.move i login phase ∧
      throttle.attempts = s.throttle.attempts ∧ throttle.slots + phase.slots = s.throttle.slots + login.slots ∧
      phase ≠ .inside ∧ phase ≠ .ended .overReleased ∧ phase ≠ .leaving .overReleased) ∨
    (login.phase = .holding ∧ s.advance config i login verdict =
      { s with throttle := (s.throttle.check config s.clock login.key).2 }.move i login
        (if (s.throttle.check config s.clock login.key).1 then .inside else .leaving .rateLimited)) ∨
    (login.phase = .inside ∧ ∃ resets outcome, outcome ≠ .overReleased ∧
      s.advance config i login verdict = (s.recorded login resets).move i login (.leaving outcome)) := by
  obtain ⟨key, phase⟩ := login
  cases phase with
  | started =>
    cases hacquire : s.throttle.acquire with
    | none =>
      exact .inr (.inl ⟨s.throttle, .ended .rateLimited, by simp [advance, hacquire], rfl, rfl, by simp, by simp, by simp⟩)
    | some throttle =>
      obtain ⟨hattempts, hslots⟩ := LoginThrottle.acquire_eq_some hacquire
      exact .inr (.inl ⟨throttle, .holding, by simp [advance, hacquire], hattempts, hslots, by simp, by simp, by simp⟩)
  | holding => exact .inr (.inr (.inl ⟨rfl, rfl⟩))
  | inside =>
    cases verdict with
    | refused => exact .inr (.inr (.inr ⟨rfl, false, .invalidCredentials, by simp, rfl⟩))
    | accepted => exact .inr (.inr (.inr ⟨rfl, true, .loggedIn, by simp, rfl⟩))
    | raised => exact .inr (.inl ⟨s.throttle, .leaving .raised, rfl, rfl, rfl, by simp, by simp, by simp⟩)
  | leaving outcome =>
    obtain ⟨throttle, hrelease⟩ := h.release hi rfl
    obtain ⟨hattempts, hslots⟩ := LoginThrottle.release_eq_some hrelease
    have hended := (h.ended _ (List.mem_of_getElem? hi)).2
    exact .inr (.inl ⟨throttle, .ended outcome, by simp [advance, hrelease], hattempts, hslots, by simp,
      by simpa using hended, by simp⟩)
  | ended _ => exact .inl rfl

/-! ## The invariant -/

/-- Moving a login keeps the invariant where what it leaves behind does. -/
theorem Inv.move (h : Inv config s) {i : Nat} {login : Login} (hi : s.logins[i]? = some login)
    {throttle : LoginThrottle} {log : List (String × Mark Rat)} {phase : Phase}
    (hslots : throttle.slots + phase.slots = s.throttle.slots + login.slots)
    (hended : phase ≠ .ended .overReleased ∧ phase ≠ .leaving .overReleased)
    (hordered : ∀ key, (marksOf log key).Pairwise (·.time ≤ ·.time))
    (hpast : ∀ key, ∀ mark ∈ marksOf log key, mark.time ≤ s.clock)
    (hkept : ∀ key, ∃ dropped, sinceReset (marksOf log key) = dropped ++ throttle.recent key ∧
      ∀ t ∈ dropped, t ≤ s.clock - config.windowSeconds) :
    Inv config ({ s with throttle := throttle, log := log }.move i login phase) where
  slots := by
    have hset := crewSum_set hi Login.slots { login with phase := phase }
    have hold := h.slots
    change throttle.slots + crewSum Login.slots (s.logins.set i { login with phase := phase }) = config.maxConcurrent
    change _ + Login.slots login = _ + phase.slots at hset
    omega
  ended := forall_mem_set h.ended hended
  ordered := hordered
  past := hpast
  kept := hkept

theorem inv_advance (h : Inv config s) {i : Nat} {login : Login} (hi : s.logins[i]? = some login) (verdict : Verdict) :
    Inv config (s.advance config i login verdict) := by
  rcases advance_cases h hi verdict with
    hsame | ⟨throttle, phase, heq, hattempts, hslots, -, hended⟩ | ⟨hphase, heq⟩ | ⟨hphase, resets, outcome, hne, heq⟩
  · rw [hsame]
    exact h
  · rw [heq]
    have hrecent : ∀ key, throttle.recent key = s.throttle.recent key := fun key => by
      rw [LoginThrottle.recent, hattempts]
      rfl
    refine Inv.move h hi hslots hended ?_ ?_ ?_
    · exact h.ordered
    · exact h.past
    · exact fun key => hrecent key ▸ h.kept key
  · rw [heq]
    refine @Inv.move _ _ h _ _ hi _ s.log _ ?_ ?_ h.ordered h.past ?_
    · rw [Login.slots, hphase]
      cases (s.throttle.check config s.clock login.key).1 <;> rfl
    · cases (s.throttle.check config s.clock login.key).1 <;> simp
    · intro key
      obtain ⟨dropped, hkept, hdropped⟩ := h.kept key
      rw [LoginThrottle.recent_check]
      split
      · next hkey =>
        subst hkey
        -- The failures that are dropped now follow those that were dropped before.
        refine ⟨dropped ++ (s.throttle.recent login.key).takeWhile (· ≤ s.clock - config.windowSeconds), ?_, ?_⟩
        · rw [List.append_assoc, dropOld, List.takeWhile_append_dropWhile]
          exact hkept
        · intro t ht
          rcases List.mem_append.mp ht with ht | ht
          · exact hdropped t ht
          · simpa using List.mem_takeWhile_imp ht
      · exact ⟨dropped, hkept, hdropped⟩
  · rw [heq]
    have hmarks : ∀ key, marksOf (s.recorded login resets).log key =
        if key = login.key then s.marks login.key ++ [⟨s.clock, resets⟩] else s.marks key :=
      marks_recorded s login resets
    refine @Inv.move _ _ h _ _ hi _ (s.recorded login resets).log _ ?_ ⟨by simp, by simpa using hne⟩ ?_ ?_ ?_
    · rw [Login.slots, hphase]
      cases resets <;> rfl
    · intro key
      rw [hmarks]
      split
      · refine List.pairwise_append.mpr ⟨h.ordered _, List.pairwise_singleton _ _, ?_⟩
        intro mark hmark last hlast
        rw [List.mem_singleton.mp hlast]
        exact h.past _ mark hmark
      · exact h.ordered key
    · intro key mark hmark
      rw [hmarks] at hmark
      split at hmark
      · rcases List.mem_append.mp hmark with hold | hnew
        · exact h.past _ mark hold
        · rw [List.mem_singleton.mp hnew]
      · exact h.past key mark hmark
    · intro key
      rw [hmarks]
      obtain ⟨dropped, hkept, hdropped⟩ := h.kept key
      by_cases hkey : key = login.key
      · subst hkey
        rw [if_pos rfl, sinceReset_append]
        cases resets with
        | true => exact ⟨[], by simp [LoginThrottle.recent_recordSuccess], by simp⟩
        | false =>
          refine ⟨dropped, ?_, hdropped⟩
          simp [LoginThrottle.recent_recordFailure, hkept]
      · rw [if_neg hkey]
        refine ⟨dropped, ?_, hdropped⟩
        cases resets <;>
          simp [LoginThrottle.recent_recordSuccess, LoginThrottle.recent_recordFailure, hkey, hkept]

/-! ## The bound -/

variable {key : String} {inside : Rat → Bool}

theorem Login.pending_le_slots (login : Login) : login.pending key ≤ login.slots := by
  unfold Login.pending Login.slots
  split
  · next h =>
    rw [h.2]
    exact Nat.le_refl _
  · exact Nat.zero_le _

/-- Whoever passes the check finds fewer failures than the limit, and with him no more are in flight than slots. -/
theorem Inv.bound_of_check (h : Inv config s) (hwindow : Window config.windowSeconds inside)
    (hreset : ∀ mark ∈ s.marks key, mark.resets = true → inside mark.time = false)
    (hpassed : (s.throttle.check config s.clock key).1 = true) {u : Rat} (hu : s.clock ≤ u) (hinside : inside u = true) :
    countedIn inside (s.marks key) < config.maxFailures := by
  have hcount := countedIn_le_kept hwindow hinside hu (h.ordered key) (fun mark hmark => (h.past key mark hmark).trans hu)
    hreset
  have hlength : (dropOld (s.clock - config.windowSeconds) (s.throttle.recent key)).length < config.maxFailures := by
    simpa [LoginThrottle.check] using hpassed
  rw [h.check_eq, ← List.countP_eq_length_filter] at hlength
  omega

theorem bound_advance (h : Inv config s) (hwindow : Window config.windowSeconds inside)
    (hbound : WithinBound config s key inside) {i : Nat} {login : Login} (hi : s.logins[i]? = some login)
    (verdict : Verdict) : WithinBound config (s.advance config i login verdict) key inside := by
  have hnext := inv_advance h hi verdict
  rcases advance_cases h hi verdict with
    hsame | ⟨throttle, phase, heq, -, -, hphase, -⟩ | ⟨hphase, heq⟩ | ⟨hphase, resets, outcome, -, heq⟩
  · rw [hsame]
    exact hbound
  · rw [heq]
    intro hreset
    obtain ⟨hcounted, hopen⟩ := hbound hreset
    refine ⟨hcounted, ?_⟩
    intro u hu hinside
    have hset := crewSum_set hi (Login.pending key) { login with phase := phase }
    have hnone : Login.pending key { login with phase := phase } = 0 := by simp [Login.pending, hphase]
    have := hopen u hu hinside
    change countedIn inside (s.marks key) + crewSum (Login.pending key) (s.logins.set i _) ≤ _
    omega
  · rw [heq] at hnext ⊢
    intro hreset
    obtain ⟨hcounted, hopen⟩ := hbound hreset
    refine ⟨hcounted, ?_⟩
    intro u hu hinside
    by_cases hpassed : (s.throttle.check config s.clock login.key).1 = true ∧ key = login.key
    · obtain ⟨hpassed, rfl⟩ := hpassed
      have hfew := h.bound_of_check hwindow hreset hpassed hu hinside
      have hflight := hnext.slots
      have hpending := @crewSum_mono _ ({ s with throttle := (s.throttle.check config s.clock login.key).2 }.move i
        login (if (s.throttle.check config s.clock login.key).1 then .inside else .leaving .rateLimited)).logins
        (Login.pending login.key) Login.slots Login.pending_le_slots
      change countedIn inside (s.marks login.key) + _ ≤ _
      omega
    · have hset := crewSum_set hi (Login.pending key)
        { login with phase := if (s.throttle.check config s.clock login.key).1 then .inside else .leaving .rateLimited }
      have hnone : Login.pending key { login with phase :=
          if (s.throttle.check config s.clock login.key).1 then .inside else .leaving .rateLimited } = 0 := by
        unfold Login.pending
        rw [if_neg]
        rintro ⟨hkey, hinside'⟩
        refine hpassed ⟨?_, hkey.symm⟩
        by_contra hfailed
        simp [hfailed] at hinside'
      have := hopen u hu hinside
      change countedIn inside (s.marks key) + crewSum (Login.pending key) (s.logins.set i _) ≤ _
      omega
  · rw [heq]
    intro hreset
    have hset := crewSum_set hi (Login.pending key) { login with phase := .leaving outcome }
    have hnone : Login.pending key { login with phase := .leaving outcome } = 0 := by simp [Login.pending]
    have hmarks : ((s.recorded login resets).move i login (.leaving outcome)).marks key =
        if key = login.key then s.marks login.key ++ [⟨s.clock, resets⟩] else s.marks key :=
      marks_recorded s login resets key
    change _ ∧ ∀ u, s.clock ≤ u → inside u = true →
      _ + crewSum (Login.pending key) (s.logins.set i { login with phase := .leaving outcome }) ≤ _
    rw [hmarks] at hreset ⊢
    by_cases hkey : key = login.key
    · subst hkey
      rw [if_pos rfl] at hreset ⊢
      obtain ⟨hcounted, hopen⟩ := hbound fun mark hmark => hreset mark (List.mem_append_left _ hmark)
      have hone : login.pending login.key = 1 := by simp [Login.pending, hphase]
      rw [countedIn_append]
      -- A failure inside the window was pending in it.
      split
      · next hnew =>
        have := hopen s.clock le_rfl hnew.2
        exact ⟨by omega, fun u _ _ => by omega⟩
      · exact ⟨hcounted, fun u hu hinside => by have := hopen u hu hinside; omega⟩
    · rw [if_neg hkey] at hreset ⊢
      obtain ⟨hcounted, hopen⟩ := hbound hreset
      exact ⟨hcounted, fun u hu hinside => by have := hopen u hu hinside; omega⟩

/-! ## Whole runs -/

/-- The clock goes on. -/
theorem inv_tick (h : Inv config s) {now : Rat} (hnow : s.clock ≤ now) : Inv config { s with clock := now } where
  slots := h.slots
  ended := h.ended
  ordered := h.ordered
  past key mark hmark := (h.past key mark hmark).trans hnow
  kept key := by
    obtain ⟨dropped, hkept, hdropped⟩ := h.kept key
    exact ⟨dropped, hkept, fun t ht => (hdropped t ht).trans (sub_le_sub_right hnow _)⟩

theorem bound_tick (h : WithinBound config s key inside) {now : Rat} (hnow : s.clock ≤ now) :
    WithinBound config { s with clock := now } key inside := by
  intro hreset
  obtain ⟨hcounted, hopen⟩ := h hreset
  exact ⟨hcounted, fun u hu => hopen u (hnow.trans hu)⟩

theorem inv_arrive (h : Inv config s) (key : String) :
    Inv config { s with logins := s.logins ++ [⟨key, .started⟩] } where
  slots := by
    have := h.slots
    simp only [crewSum_append]
    exact this
  ended := by
    intro login hlogin
    rcases List.mem_append.mp hlogin with hold | hnew
    · exact h.ended login hold
    · rw [List.mem_singleton.mp hnew]
      simp
  ordered := h.ordered
  past := h.past
  kept := h.kept

theorem bound_arrive (h : WithinBound config s key inside) (other : String) :
    WithinBound config { s with logins := s.logins ++ [⟨other, .started⟩] } key inside := by
  intro hreset
  obtain ⟨hcounted, hopen⟩ := h hreset
  refine ⟨hcounted, ?_⟩
  intro u hu hinside
  change countedIn inside (s.marks key) + crewSum (Login.pending key) (s.logins ++ [⟨other, .started⟩]) ≤ _
  have hnone : crewSum (Login.pending key) [⟨other, .started⟩] = 0 := by simp [crewSum, Login.pending]
  rw [crewSum_append, hnone, Nat.add_zero]
  exact hopen u hu hinside

theorem step_keeps (h : Inv config s ∧ ∀ key inside, Window config.windowSeconds inside → WithinBound config s key inside)
    (now : Rat) (act : Act) :
    Inv config (s.step config now act) ∧
      ∀ key inside, Window config.windowSeconds inside → WithinBound config (s.step config now act) key inside := by
  have htick := inv_tick h.1 (le_max_left s.clock now)
  have hbound := fun key inside hwindow => bound_tick (h.2 key inside hwindow) (le_max_left s.clock now)
  unfold step
  cases act with
  | arrive key => exact ⟨inv_arrive htick key, fun other inside hwindow => bound_arrive (hbound other inside hwindow) key⟩
  | advance i verdict =>
    simp only
    split
    · exact ⟨htick, hbound⟩
    · next login hi =>
      exact ⟨inv_advance htick hi verdict,
        fun key inside hwindow => bound_advance htick hwindow (hbound key inside hwindow) hi verdict⟩

theorem run_keeps (config : ThrottleConfig) (clock : Rat) (acts : List (Rat × Act)) :
    Inv config (run config clock acts) ∧
      ∀ key inside, Window config.windowSeconds inside → WithinBound config (run config clock acts) key inside := by
  induction acts using List.reverseRecOn with
  | nil =>
    refine ⟨inv_start config clock, ?_⟩
    intro key inside _ _
    simp [run, start, marks, marksOf, countedIn, crewSum]
  | append_singleton acts act ih =>
    rw [run, List.foldl_append]
    exact step_keeps ih act.1 act.2

end System

theorem crewSum_slots (logins : List Login) : crewSum Login.slots logins = logins.countP (·.phase.inAttempt) := by
  induction logins with
  | nil => rfl
  | cons login rest ih =>
    simp only [crewSum, List.map_cons, List.sum_cons, List.countP_cons] at ih ⊢
    rw [ih, Login.slots, Phase.slots, Nat.add_comm]

/-- However logins interleave: in a window without a success no more failures are recorded than the limit leaves
and the slots add, too many recent failures keep every attempt out, and slots are held only inside `attempt`. -/
theorem logins_throttled (config : ThrottleConfig) (clock : Rat) (acts : List (Rat × System.Act)) :
    let s := System.run config clock acts
    (∀ key start,
      let window := fun t : Rat => decide (start ≤ t ∧ t < start + config.windowSeconds)
      (∀ mark ∈ s.marks key, mark.resets = true → window mark.time = false) →
        countedIn window (s.marks key) ≤ config.maxFailures + config.maxConcurrent - 1) ∧
    (∀ key start,
      let window := fun t : Rat => decide (start < t ∧ t ≤ start + config.windowSeconds)
      (∀ mark ∈ s.marks key, mark.resets = true → window mark.time = false) →
        countedIn window (s.marks key) ≤ config.maxFailures + config.maxConcurrent - 1) ∧
    (∀ i login now verdict, s.logins[i]? = some login → login.phase = .holding → s.clock ≤ now →
      (s.step config now (.advance i verdict)).logins[i]? = some ⟨login.key,
        if config.maxFailures ≤ s.recentFailures config now login.key then .leaving .rateLimited else .inside⟩) ∧
    s.throttle.slots + s.logins.countP (·.phase.inAttempt) = config.maxConcurrent ∧
    (∀ login ∈ s.logins, login.phase ≠ .ended .overReleased) := by
  intro s
  obtain ⟨hinv, hbound⟩ := System.run_keeps config clock acts
  refine ⟨?_, ?_, ?_, crewSum_slots s.logins ▸ hinv.slots, fun login hlogin => (hinv.ended login hlogin).1⟩
  · intro key start window hreset
    exact (hbound key window (window_ico _ _) hreset).1
  · intro key start window hreset
    exact (hbound key window (window_ioc _ _) hreset).1
  · intro i login now verdict hi hphase hnow
    have htick := System.inv_tick hinv hnow
    have hmax : max s.clock now = now := max_eq_right hnow
    have hlength : (dropOld (now - config.windowSeconds) (s.throttle.recent login.key)).length =
        s.recentFailures config now login.key := by
      rw [System.recentFailures, List.countP_eq_length_filter]
      exact congrArg List.length (htick.check_eq login.key)
    have hlt : i < s.logins.length := (List.getElem?_eq_some_iff.mp hi).1
    simp only [System.step, hmax, hi, System.advance, hphase, System.move, List.getElem?_set_self hlt,
      LoginThrottle.check, decide_eq_true_eq]
    congr 2
    split_ifs <;> first | rfl | omega

end SmartTest.Auth
