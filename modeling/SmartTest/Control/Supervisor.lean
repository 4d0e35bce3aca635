import SmartTest.Control.Texts
import SmartTest.Lib.Steps
import SmartTest.Run.Domain

/-!
# The supervisor and the request file

`request_restart` writes over the one request file; the loop of `PlatformSupervisor.run` claims
it by a rename, waits, restarts and unlinks. A request is lost exactly where another one
is written over it before it was claimed: an accepted service stays covered as long as no
request drops a service from the file that no restart under way will come to.
-/

open SmartTest.Lib SmartTest.Run

namespace SmartTest.Control

open RequestFile (RequestId Library AwareTime)

/-! ## The loop -/

/-- Where the loop of `run` stands. -/
inductive Stage where
  /-- `_ensure_children_running`, with the services it has still to look at. -/
  | ensure (rest : List Service)
  | heartbeat
  | claim
  | parse
  /-- The processing file could not be read and is unlinked. -/
  | discard
  | due
  /-- `_restart`: the services that it has still to stop, of those it restarts. -/
  | stopping (rest targets : List Service)
  | starting (rest targets : List Service)
  /-- The processing file is unlinked. -/
  | finish (targets : List Service)

/-- The control directory, the supervisor, and what has been asked of it. -/
structure Platform where
  /-- `restart-request.json`. -/
  request : Option (List Char)
  /-- `restart-request.processing.json`. -/
  processing : Option (List Char)
  /-- `heartbeat.json`. -/
  heartbeat : Option (List Char)
  pending : Option ControlRequest
  stage : Stage
  running : Service → Bool
  /-- How often a service has been started. -/
  starts : Service → Nat
  /-- The services of the accepted requests, with how often they had been started by then. -/
  accepted : List (Service × Nat)

namespace Platform

variable (codec : Codec) (enabled : Bool)

/-- `_start`. -/
def start (c : Platform) (service : Service) : Platform :=
  { c with
    running := Function.update c.running service true
    starts := Function.update c.starts service (c.starts service + 1) }

def unavailable (message : String) : Exn := ⟨.other "ServiceControlUnavailable", message⟩

def overflowError : Exn := ⟨.other "OverflowError", "date value out of range"⟩

/-- `request_restart`. The clock is read for the heartbeat and for the request; a time that leaves the calendar
raises. -/
def requestRestart (c : Platform) (target : String) (requestId : RequestId) (checkedAt now : Instant) :
    Except Exn ControlRequest × Platform :=
  match ServiceTarget.ofValue target with
  | none => (.error ⟨.valueError, "target must be frontend, backend, or all"⟩, c)
  | some target =>
    if !enabled || !supervisorOnline codec c.heartbeat checkedAt then
      (.error (unavailable "service supervisor is unavailable"), c)
    else if !codec.inCalendar now || !codec.inCalendar (now.addSeconds RESTART_DELAY_SECONDS) then
      (.error overflowError, c)
    else
      let request : ControlRequest := ⟨target, requestId.uuid, now, now.addSeconds RESTART_DELAY_SECONDS⟩
      if utf8Length (request.encoded codec) > MAX_CONTROL_FILE_BYTES then
        (.error (unavailable "restart request exceeds size limit"), c)
      else (.ok request, { c with
        request := some (request.encoded codec)
        accepted := c.accepted ++ target.services.map fun service => (service, c.starts service) })

/-- The next operation of the loop; `beats` says whether a heartbeat is due and its write goes through. -/
def supervise (c : Platform) (now : Instant) (beats : Bool) : Platform :=
  match c.stage with
  | .ensure (service :: rest) =>
    let c' := if c.running service then c else c.start service
    { c' with stage := .ensure rest }
  | .ensure [] => { c with stage := .heartbeat }
  | .heartbeat =>
    { c with heartbeat := if beats then some (heartbeatText codec now) else c.heartbeat, stage := .claim }
  | .claim =>
    if c.pending.isSome then { c with stage := .due }
    else if c.processing.isSome then { c with stage := .parse }
    else match c.request with
      | none => { c with stage := .due }
      | some content => { c with request := none, processing := some content, stage := .parse }
  | .parse =>
    let pending := parseControlRequest codec c.processing
    { c with pending := pending, stage := if pending.isNone then .discard else .due }
  | .discard => { c with processing := none, stage := .due }
  | .due =>
    match c.pending with
    | none => { c with stage := .ensure [.frontend, .backend] }
    | some request =>
      if request.notBefore ≤ now then { c with stage := .stopping request.target.services request.target.services }
      else { c with stage := .ensure [.frontend, .backend] }
  | .stopping (service :: rest) targets =>
    { c with running := Function.update c.running service false, stage := .stopping rest targets }
  | .stopping [] targets => { c with stage := .starting targets targets }
  | .starting (service :: rest) targets => { c.start service with stage := .starting rest targets }
  | .starting [] targets => { c with stage := .finish targets }
  | .finish _ => { c with processing := none, pending := none, stage := .ensure [.frontend, .backend] }

inductive Event where
  | request (target : String) (requestId : RequestId) (checkedAt now : Instant)
  | supervise (now : Instant) (beats : Bool)
  /-- A child process ends by itself. -/
  | ends (service : Service)

def step (c : Platform) : Event → Option Platform
  | .request target requestId checkedAt now =>
    some (requestRestart codec enabled c target requestId checkedAt now).2
  | .supervise now beats => some (supervise codec c now beats)
  | .ends service => some { c with running := Function.update c.running service false }

/-! ## Covered services -/

/-- The services a control file asks for. -/
def named (file : Option (List Char)) : List Service :=
  match parseControlRequest codec file with
  | some request => request.target.services
  | none => []

/-- The services the pending request asks for. -/
def asked (c : Platform) : List Service :=
  match c.pending with
  | some request => request.target.services
  | none => []

/-- An accepted request named the service, and it has not been started since. -/
def Owed (c : Platform) (service : Service) : Prop := (service, c.starts service) ∈ c.accepted

def Covered (c : Platform) (service : Service) : Prop :=
  service ∈ c.asked ∨ service ∈ named codec c.processing ∨ service ∈ named codec c.request

/-- The services the restart under way is through with. -/
def restarted (c : Platform) : List Service :=
  match c.stage with
  | .starting rest targets => targets.filter (· ∉ rest)
  | .finish targets => targets
  | _ => []

/-- A request that was claimed will still come to the service. -/
def Upcoming (c : Platform) (service : Service) : Prop :=
  (service ∈ c.asked ∨ service ∈ named codec c.processing) ∧ service ∉ c.restarted

/-- No accepted request drops an owed service from the file, unless a claimed request will still come to it. -/
def NoneDropped (c : Platform) : Event → Prop
  | .request target requestId checkedAt now => ∀ request,
    (requestRestart codec enabled c target requestId checkedAt now).1 = .ok request → ∀ service,
      c.Owed service → service ∈ named codec c.request →
      service ∈ request.target.services ∨ Upcoming codec c service
  | _ => True

/-! ## The invariant -/

/-- The services a restart under way goes through. -/
def restarts (c : Platform) : Option (List Service) :=
  match c.stage with
  | .stopping _ targets | .starting _ targets | .finish targets => some targets
  | _ => none

/-- The pending request is the one in the processing file, and what a restart goes through is what it asks for. -/
structure Sound (c : Platform) : Prop where
  counted : ∀ entry ∈ c.accepted, entry.2 ≤ c.starts entry.1
  claimed : ∀ request, c.pending = some request → parseControlRequest codec c.processing = some request
  restarting : ∀ targets, c.restarts = some targets →
    ∃ request, c.pending = some request ∧ request.target.services = targets
  parsing : c.stage = .parse ∨ c.stage = .discard → c.pending = none
  discarding : c.stage = .discard → parseControlRequest codec c.processing = none
  covered : ∀ service, c.Owed service → Upcoming codec c service ∨ service ∈ named codec c.request

variable {codec enabled}

/-- A service that has just been started is not owed. -/
theorem Sound.not_owed_start {c : Platform} (h : Sound codec c) (service : Service) :
    ¬ (c.start service).Owed service := by
  intro howed
  simp only [Owed, start, Function.update_self] at howed
  exact absurd (h.counted _ howed) (by simp)

theorem owed_of_start {c : Platform} {service other : Service} (hne : other ≠ service)
    (h : (c.start service).Owed other) : c.Owed other := by
  simpa [Owed, start, Function.update_of_ne hne] using h

theorem Sound.counted_start {c : Platform} (h : Sound codec c) (service : Service) :
    ∀ entry ∈ (c.start service).accepted, entry.2 ≤ (c.start service).starts entry.1 := by
  intro entry hentry
  have hle := h.counted entry hentry
  simp only [start, Function.update_apply]
  split
  · next heq =>
    rw [heq] at hle
    omega
  · exact hle

/-- The loop goes to another stage, outside of a restart. -/
theorem Sound.goTo {c : Platform} (h : Sound codec c) {stage : Stage}
    (hrestarts : Platform.restarts { c with stage := stage } = none)
    (hparse : stage = .parse ∨ stage = .discard → c.pending = none)
    (hdiscard : stage = .discard → parseControlRequest codec c.processing = none) :
    Sound codec { c with stage := stage } := by
  have hrestarted : Platform.restarted { c with stage := stage } = [] := by
    cases stage with
    | starting | finish => cases hrestarts
    | ensure | heartbeat | claim | parse | discard | due | stopping => rfl
  refine ⟨h.counted, h.claimed, ?_, hparse, hdiscard, ?_⟩
  · intro targets htargets
    cases hrestarts.symm.trans htargets
  · intro service howed
    rcases h.covered service howed with ⟨hcovered, -⟩ | hnamed
    · exact .inl ⟨hcovered, by simp [hrestarted]⟩
    · exact .inr hnamed

theorem Sound.ensure {c : Platform} (h : Sound codec c) (service : Service) (rest : List Service) :
    Sound codec { (if c.running service then c else c.start service) with stage := .ensure rest } := by
  split
  · exact h.goTo rfl (by simp) (by simp)
  · refine ⟨h.counted_start service, h.claimed, by simp [restarts], by simp, by simp, ?_⟩
    intro other howed
    have hne : other ≠ service := by
      rintro rfl
      exact h.not_owed_start other howed
    rcases h.covered other (owed_of_start hne howed) with ⟨hcovered, -⟩ | hnamed
    · exact .inl ⟨hcovered, List.not_mem_nil⟩
    · exact .inr hnamed

/-- The rename carries what the request file names into the processing file. -/
theorem Sound.claim {c : Platform} (h : Sound codec c) (hpending : c.pending = none)
    (hprocessing : c.processing = none) {content : List Char} (hrequest : c.request = some content) :
    Sound codec { c with request := none, processing := some content, stage := .parse } := by
  refine ⟨h.counted, ?_, by simp [restarts], fun _ => hpending, by simp, ?_⟩
  · intro request hsome
    cases hpending.symm.trans hsome
  · intro service howed
    rcases h.covered service howed with ⟨hcovered | hcovered, -⟩ | hnamed
    · rw [asked, hpending] at hcovered
      cases hcovered
    · rw [hprocessing] at hcovered
      cases hcovered
    · rw [hrequest] at hnamed
      exact .inl ⟨.inr hnamed, List.not_mem_nil⟩

/-- What is parsed is pending, or it names nothing. -/
theorem Sound.parse {c : Platform} (h : Sound codec c) (hstage : c.stage = .parse) :
    Sound codec { c with
      pending := parseControlRequest codec c.processing
      stage := if (parseControlRequest codec c.processing).isNone then .discard else .due } := by
  have hasked : c.asked = [] := by simp [asked, h.parsing (.inl hstage)]
  have hcovered : ∀ service, c.Owed service →
      service ∈ named codec c.processing ∨ service ∈ named codec c.request := by
    intro service howed
    rcases h.covered service howed with ⟨hcovered | hcovered, -⟩ | hnamed
    · rw [hasked] at hcovered
      cases hcovered
    · exact .inl hcovered
    · exact .inr hnamed
  cases hparsed : parseControlRequest codec c.processing with
  | none =>
    refine ⟨h.counted, by simp, by simp [restarts], by simp, fun _ => hparsed, ?_⟩
    intro service howed
    rcases hcovered service howed with hnamed | hnamed
    · exact .inl ⟨.inr hnamed, List.not_mem_nil⟩
    · exact .inr hnamed
  | some request =>
    refine ⟨h.counted, ?_, by simp [restarts], by simp, by simp, ?_⟩
    · intro other hother
      obtain rfl := Option.some.inj hother
      exact hparsed
    · intro service howed
      rcases hcovered service howed with hnamed | hnamed
      · exact .inl ⟨.inr hnamed, List.not_mem_nil⟩
      · exact .inr hnamed

theorem Sound.discard {c : Platform} (h : Sound codec c) (hstage : c.stage = .discard) :
    Sound codec { c with processing := none, stage := .due } := by
  have hpending := h.parsing (.inr hstage)
  have hunread := h.discarding hstage
  refine ⟨h.counted, ?_, by simp [restarts], by simp, by simp, ?_⟩
  · intro request hrequest
    cases hpending.symm.trans hrequest
  · intro service howed
    rcases h.covered service howed with ⟨hcovered | hcovered, -⟩ | hnamed
    · rw [asked, hpending] at hcovered
      cases hcovered
    · rw [named, hunread] at hcovered
      cases hcovered
    · exact .inr hnamed

/-- A restart begins with the services of the pending request. -/
theorem Sound.restart {c : Platform} (h : Sound codec c) {request : ControlRequest}
    (hpending : c.pending = some request) :
    Sound codec { c with stage := .stopping request.target.services request.target.services } := by
  refine ⟨h.counted, h.claimed, ?_, by simp, by simp, ?_⟩
  · intro targets htargets
    exact ⟨request, hpending, Option.some.inj htargets⟩
  · intro service howed
    rcases h.covered service howed with ⟨hcovered, -⟩ | hnamed
    · exact .inl ⟨hcovered, List.not_mem_nil⟩
    · exact .inr hnamed

/-- Stopping a service asks for nothing and restarts nothing. -/
theorem Sound.stop {c : Platform} (h : Sound codec c) {rest rest' targets : List Service}
    (hstage : c.stage = .stopping rest targets) (running : Service → Bool) :
    Sound codec { c with running := running, stage := .stopping rest' targets } := by
  refine ⟨h.counted, h.claimed, ?_, by simp, by simp, ?_⟩
  · intro targets' htargets
    apply h.restarting
    rw [restarts, hstage]
    exact htargets
  · intro service howed
    rcases h.covered service howed with ⟨hcovered, -⟩ | hnamed
    · exact .inl ⟨hcovered, List.not_mem_nil⟩
    · exact .inr hnamed

theorem Sound.stopped {c : Platform} (h : Sound codec c) {targets : List Service}
    (hstage : c.stage = .stopping [] targets) : Sound codec { c with stage := .starting targets targets } := by
  refine ⟨h.counted, h.claimed, ?_, by simp, by simp, ?_⟩
  · intro targets' htargets
    apply h.restarting
    rw [restarts, hstage]
    exact htargets
  · intro service howed
    rcases h.covered service howed with ⟨hcovered, -⟩ | hnamed
    · refine .inl ⟨hcovered, ?_⟩
      simp [restarted]
    · exact .inr hnamed

/-- The service that is started is no longer owed, and the others are as far as they were. -/
theorem Sound.started {c : Platform} (h : Sound codec c) {service : Service} {rest targets : List Service}
    (hstage : c.stage = .starting (service :: rest) targets) :
    Sound codec { c.start service with stage := .starting rest targets } := by
  refine ⟨h.counted_start service, h.claimed, ?_, by simp, by simp, ?_⟩
  · intro targets' htargets
    apply h.restarting
    rw [restarts, hstage]
    exact htargets
  · intro other howed
    have hne : other ≠ service := by
      rintro rfl
      exact h.not_owed_start other howed
    rcases h.covered other (owed_of_start hne howed) with ⟨hcovered, hleft⟩ | hnamed
    · refine .inl ⟨hcovered, ?_⟩
      simp only [restarted, hstage, List.mem_filter, List.mem_cons, decide_eq_true_eq, not_and, not_not] at hleft ⊢
      intro htarget
      exact (hleft htarget).resolve_left hne
    · exact .inr hnamed

theorem Sound.allStarted {c : Platform} (h : Sound codec c) {targets : List Service}
    (hstage : c.stage = .starting [] targets) : Sound codec { c with stage := .finish targets } := by
  refine ⟨h.counted, h.claimed, ?_, by simp, by simp, ?_⟩
  · intro targets' htargets
    apply h.restarting
    rw [restarts, hstage]
    exact htargets
  · intro service howed
    rcases h.covered service howed with ⟨hcovered, hleft⟩ | hnamed
    · refine .inl ⟨hcovered, ?_⟩
      simpa [restarted, hstage] using hleft
    · exact .inr hnamed

/-- The request that goes away asked for nothing but what has been restarted. -/
theorem Sound.finish {c : Platform} (h : Sound codec c) {targets : List Service} (hstage : c.stage = .finish targets) :
    Sound codec { c with processing := none, pending := none, stage := .ensure [.frontend, .backend] } := by
  refine ⟨h.counted, by simp, by simp [restarts], by simp, by simp, ?_⟩
  intro service howed
  obtain ⟨request, hpending, htargets⟩ := h.restarting targets (by rw [restarts, hstage])
  rcases h.covered service howed with ⟨hcovered, hleft⟩ | hnamed
  · have hasked : service ∈ request.target.services := by
      rcases hcovered with hcovered | hcovered
      · rwa [asked, hpending] at hcovered
      · rwa [named, h.claimed request hpending] at hcovered
    rw [htargets] at hasked
    rw [restarted, hstage] at hleft
    exact absurd hasked hleft
  · exact .inr hnamed

theorem Sound.supervise {c : Platform} (h : Sound codec c) (now : Instant) (beats : Bool) :
    Sound codec (supervise codec c now beats) := by
  unfold Platform.supervise
  split
  · next service rest hstage => exact h.ensure service rest
  · exact h.goTo rfl (by simp) (by simp)
  · have hbeat : Sound codec { c with stage := .claim } := h.goTo rfl (by simp) (by simp)
    exact ⟨hbeat.counted, hbeat.claimed, hbeat.restarting, hbeat.parsing, hbeat.discarding, hbeat.covered⟩
  · split
    · exact h.goTo rfl (by simp) (by simp)
    · next hpending =>
      have hnone : c.pending = none := by simpa using hpending
      split
      · exact h.goTo rfl (fun _ => hnone) (by simp)
      · next hprocessing =>
        split
        · exact h.goTo rfl (by simp) (by simp)
        · next content hrequest => exact h.claim hnone (by simpa using hprocessing) hrequest
  · next hstage => exact h.parse hstage
  · next hstage => exact h.discard hstage
  · split
    · exact h.goTo rfl (by simp) (by simp)
    · next request hpending =>
      split
      · exact h.restart hpending
      · exact h.goTo rfl (by simp) (by simp)
  · next hstage => exact h.stop hstage _
  · next hstage => exact h.stopped hstage
  · next hstage => exact h.started hstage
  · next hstage => exact h.allStarted hstage
  · next hstage => exact h.finish hstage

/-- A call that raises changes nothing; one that returns has written its request over the file. -/
theorem requestRestart_cases (enabled : Bool) (hcodec : codec.Faithful) (c : Platform) (target : String)
    (requestId : RequestId) (checkedAt now : Instant) :
    (∃ e, requestRestart codec enabled c target requestId checkedAt now = (.error e, c)) ∨
    ∃ request content, requestRestart codec enabled c target requestId checkedAt now = (.ok request, { c with
        request := some content
        accepted := c.accepted ++ request.target.services.map fun service => (service, c.starts service) }) ∧
      parseControlRequest codec (some content) = some request := by
  unfold requestRestart
  split
  · exact .inl ⟨_, rfl⟩
  · next target _ =>
    split
    · exact .inl ⟨_, rfl⟩
    · split
      · exact .inl ⟨_, rfl⟩
      · next hcalendar =>
        simp only [Bool.or_eq_true, Bool.not_eq_true', not_or, Bool.not_eq_false] at hcalendar
        dsimp only
        split
        · exact .inl ⟨_, rfl⟩
        · next hsize =>
          exact .inr ⟨_, _, rfl, parseControlRequest_encoded hcodec requestId.spelled hcalendar.1 hcalendar.2 (by omega) rfl⟩

theorem Sound.request {c : Platform} (h : Sound codec c) {request : ControlRequest} {content : List Char}
    (hparsed : parseControlRequest codec (some content) = some request)
    (hkept : ∀ service, c.Owed service → service ∈ named codec c.request →
      service ∈ request.target.services ∨ Upcoming codec c service) :
    Sound codec { c with
      request := some content
      accepted := c.accepted ++ request.target.services.map fun service => (service, c.starts service) } := by
  have hnamed : ∀ service ∈ request.target.services, service ∈ named codec (some content) := by
    intro service hservice
    rwa [named, hparsed]
  refine ⟨?_, h.claimed, h.restarting, h.parsing, h.discarding, ?_⟩
  · intro entry hentry
    rcases List.mem_append.mp hentry with hentry | hentry
    · exact h.counted entry hentry
    · obtain ⟨service, -, rfl⟩ := List.mem_map.mp hentry
      exact le_rfl
  · intro service howed
    rcases List.mem_append.mp howed with howed | hnew
    · rcases h.covered service howed with hupcoming | hold
      · exact .inl hupcoming
      · rcases hkept service howed hold with hservice | hupcoming
        · exact .inr (hnamed service hservice)
        · exact .inl hupcoming
    · obtain ⟨other, hother, heq⟩ := List.mem_map.mp hnew
      obtain ⟨rfl, -⟩ := Prod.mk.inj heq
      exact .inr (hnamed other hother)

theorem Sound.step (hcodec : codec.Faithful) {c c' : Platform} (h : Sound codec c) {event : Event}
    (hkept : NoneDropped codec enabled c event) (hstep : step codec enabled c event = some c') : Sound codec c' := by
  cases event with
  | request target requestId checkedAt now =>
    obtain rfl := Option.some.inj hstep
    rcases requestRestart_cases enabled hcodec c target requestId checkedAt now with
      ⟨e, hraised⟩ | ⟨request, content, haccepted, hparsed⟩
    · rw [hraised]
      exact h
    · have hkept' := hkept request (by rw [haccepted])
      rw [haccepted]
      exact h.request hparsed hkept'
  | supervise now beats =>
    obtain rfl := Option.some.inj hstep
    exact h.supervise now beats
  | ends service =>
    obtain rfl := Option.some.inj hstep
    exact ⟨h.counted, h.claimed, h.restarting, h.parsing, h.discarding, h.covered⟩

/-- Where `run` enters its loop, with whatever files it finds there. -/
def Entered (c : Platform) : Prop :=
  c.pending = none ∧ c.stage = .ensure [.frontend, .backend] ∧ c.accepted = []

theorem Sound.entered {c : Platform} (h : Entered c) : Sound codec c := by
  obtain ⟨hpending, hstage, haccepted⟩ := h
  refine ⟨by simp [haccepted], by simp [hpending], by simp [restarts, hstage], by simp [hstage], by simp [hstage], ?_⟩
  intro service howed
  rw [Owed, haccepted] at howed
  cases howed

/-- As long as no request drops a service from the file, every service that is owed a restart is covered. -/
theorem accepted_requests_covered (hcodec : codec.Faithful) {c c' : Platform} (hentered : Entered c)
    {events : List Event} (hrun : runSteps (step codec enabled) c events = some c')
    (hkept : Along (step codec enabled) (NoneDropped codec enabled) c events) :
    ∀ service, c'.Owed service → Covered codec c' service := by
  have hsound : Sound codec c' :=
    hkept.keeps (I := Sound codec) (fun _ _ _ hs hok hstep => hs.step hcodec hok hstep) (.entered hentered) hrun
  intro service howed
  rcases hsound.covered service howed with ⟨hcovered, -⟩ | hnamed
  · rcases hcovered with hasked | hprocessing
    · exact .inl hasked
    · exact .inr (.inl hprocessing)
  · exact .inr (.inr hnamed)

/-! ## The request on disk -/

/-- A request that is written to disk is one the service accepts, and it leaves the file on disk. -/
theorem requestRestart_written {lib : Library} {c : Platform} {checkedAt : Instant} {online writable : Bool}
    {clock : AwareTime} {target : ServiceTarget} {requestId : RequestId} {request : RequestFile.RestartRequest}
    {file : List Char} (honline : supervisorOnline lib.codec c.heartbeat checkedAt = true)
    (h : RequestFile.requestRestart lib online writable clock target requestId = .ok (request, file)) :
    requestRestart lib.codec true c target.value requestId checkedAt request.requestedAt.micros =
      (.ok request.control, { c with
        request := some file
        accepted := c.accepted ++ target.services.map fun service => (service, c.starts service) }) := by
  obtain ⟨rfl, rfl, -, hbefore, rfl⟩ := RequestFile.requestRestart_ok h
  have hwait : (request.requestedAt.micros : Instant).addSeconds RESTART_DELAY_SECONDS = request.notBefore.micros := by
    rw [RequestFile.plus_ok_iff.mp hbefore]
    rfl
  have hcalendar : ∀ time : DateTime, lib.codec.inCalendar time.micros = true := by
    intro time
    simp [Library.codec, RequestFile.ofInstant_micros]
  have hsize := @RequestFile.utf8Length_encoded lib request
  rw [← RequestFile.encoded_control] at hsize ⊢
  unfold requestRestart
  rw [ServiceTarget.ofValue_value]
  dsimp only
  rw [hwait, hcalendar, hcalendar, honline, if_neg (by decide), if_neg (by decide)]
  exact if_neg (Nat.not_lt.mpr hsize)

/-! ## Two requests -/

/-- One half is the only float. -/
def halfLibrary : Library where
  floatText _ := ['0', '.', '5']
  readFloat text := if text = ['0', '.', '5'] then some (1 / 2) else none
  otherUuid _ := none
  otherTime _ := none

/-- A moment of the year 2025. -/
def noon : Instant := 63900000000000000

/-- The loop as it is entered, with a heartbeat of that moment. -/
def entry : Platform where
  request := none
  processing := none
  heartbeat := some (heartbeatText halfLibrary.codec noon)
  pending := none
  stage := .ensure [.frontend, .backend]
  running _ := true
  starts _ := 1
  accepted := []

def frontendId : RequestId := ⟨0x6fa459eaee8a4ca4894edb77e160355e, by decide⟩

def backendId : RequestId := ⟨0x16fd2706baf342eb8f6b9e1dc3f3b2a1, by decide⟩

def ask (target : String) (requestId : RequestId) : Event := .request target requestId noon noon

/-- The frontend is owed a restart, and whether a file or the pending request asks for it. -/
def frontendIs (covered : Bool) (c : Platform) : Bool :=
  (Service.frontend, c.starts .frontend) ∈ c.accepted &&
    (decide (Service.frontend ∈ c.asked ++ named halfLibrary.codec c.processing ++ named halfLibrary.codec c.request) ==
      covered)

/-- Requests come only when there is no request file. -/
def claimedFirst (c : Platform) : Event → Bool
  | .request _ _ _ _ => c.request.isNone
  | _ => true

theorem noneDropped_of_claimedFirst {c : Platform} {event : Event} (h : claimedFirst c event = true) :
    NoneDropped codec enabled c event := by
  cases event with
  | request target requestId checkedAt now =>
    intro request _ service _ hnamed
    have hnone : c.request = none := by simpa [claimedFirst] using h
    rw [hnone] at hnamed
    cases hnamed
  | supervise | ends => trivial

/-- The request for the frontend is claimed before the one for the backend comes. -/
def inTurn : List Event :=
  ask "frontend" frontendId :: List.replicate 5 (.supervise noon false) ++ [ask "backend" backendId]

theorem frontend_request_covered : ∃ c, runSteps (step halfLibrary.codec true) entry inTurn = some c ∧
    c.Owed .frontend ∧ Covered halfLibrary.codec c .frontend := by
  have howed : (runSteps (step halfLibrary.codec true) entry inTurn).any (frontendIs true) = true := by decide +kernel
  obtain ⟨c, hrun, hc⟩ := (Option.any_eq_true _ _).mp howed
  simp only [frontendIs, Bool.and_eq_true, decide_eq_true_eq] at hc
  have hclaimed : Along (step halfLibrary.codec true) (fun c event => claimedFirst c event = true) entry inTurn :=
    along_of_check (by decide +kernel)
  have hkept : Along (step halfLibrary.codec true) (NoneDropped halfLibrary.codec true) entry inTurn :=
    hclaimed.imp fun c event h => noneDropped_of_claimedFirst h
  exact ⟨c, hrun, hc.1,
    accepted_requests_covered RequestFile.codec_faithful ⟨rfl, rfl, rfl⟩ hrun hkept .frontend hc.1⟩

/-- A request for the backend is written over one for the frontend that nobody has claimed. -/
theorem frontend_request_lost : ∃ c,
    Entered entry ∧
      runSteps (step halfLibrary.codec true) entry [ask "frontend" frontendId, ask "backend" backendId] = some c ∧
      c.Owed .frontend ∧ ¬ Covered halfLibrary.codec c .frontend := by
  have hlost : (runSteps (step halfLibrary.codec true) entry [ask "frontend" frontendId, ask "backend" backendId]).any
      (frontendIs false) = true := by decide +kernel
  obtain ⟨c, hrun, hc⟩ := (Option.any_eq_true _ _).mp hlost
  simp only [frontendIs, Bool.and_eq_true, decide_eq_true_eq, beq_iff_eq, decide_eq_false_iff_not, List.mem_append,
    not_or] at hc
  obtain ⟨howed, ⟨hasked, hprocessing⟩, hrequest⟩ := hc
  refine ⟨c, ⟨rfl, rfl, rfl⟩, hrun, howed, ?_⟩
  rintro (hcovered | hcovered | hcovered)
  · exact hasked hcovered
  · exact hprocessing hcovered
  · exact hrequest hcovered

end Platform

end SmartTest.Control
