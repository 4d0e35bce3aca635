import SmartTest.Load.Containment
import SmartTest.Load.Destination

/-!
# The traffic of a run

`execute` and `_execute_scenarios` with what they do on the network: the validations at the
start, the login, and the connections of the workers, which take the addresses of a
destination one by one while the other workers go on.
-/

open SmartTest.Lib SmartTest.Run

namespace SmartTest.Load

/-! ## The start -/

inductive LoadTestAuthMode where
  | token
  | login
  deriving DecidableEq

/-- `LoadTestAuthConfiguration` with what the login reads of it. -/
structure LoginConfiguration extends LoadTestAuthConfiguration where
  mode : Option LoadTestAuthMode
  loginUrl : Option String
  accountField : String
  passwordField : String
  loginBody : Dict String Json
  tokenPath : String
  token : Option String
  account : Option String
  password : Option String

/-- The libraries as a step of a scenario asks them. -/
def Libraries.web (lib : Libraries) (allowed : String → Bool) : Web where
  split text := (lib.split text).map fun parsed => (parsed.scheme, parsed.netloc)
  join := lib.join
  index := lib.index
  allowed := allowed
  floatText := lib.floatText

def orRaise {α : Type} (e : StepError) : Option α → Except StepError α
  | some a => .ok a
  | none => .error e

/-- What the start does not decide: the resolver at each target and at the login, and what comes of the addresses
of the login. -/
structure StartDraws where
  targets : Nat → Resolver
  login : Resolver
  outcomes : List Outcome

section Start

variable (lib : Libraries) (allowedPrivateHosts : List String)

/-- `_validate_public_url` of every target, in turn. -/
def validateTargets (resolvers : Nat → Resolver) : Nat → List Prepared → Call StepError (List Contact) (List Destination)
  | _, [] => return []
  | i, target :: rest => do
    let destination ← ofExcept
      (orRaise destinationError (validateDestination lib allowedPrivateHosts (resolvers i) target.url))
    modify (· ++ [.validated (.target i) target.url destination])
    let destinations ← validateTargets resolvers (i + 1) rest
    return destination :: destinations

def loginError : StepError := .valueError "Load test login request failed"

/-- The token in the response to a login. -/
def loginToken (config : LoginConfiguration) : Outcome → Except StepError String
  | .responded (.answered status details payload) =>
    if status < 200 ∨ status ≥ 300 then .error (.valueError "Load test login returned an unsuccessful status")
    else if details.truncated then .error (.valueError "Load test login response is not valid JSON")
    else match payload with
      | .tooDeep => .error loginError
      | .notJson => .error (.valueError "Load test login response is not valid JSON")
      | .json value =>
        match extractToken (lib.web fun _ => true) value (.str config.tokenPath) with
        | none => .error (.valueError "Load test login token path was not found")
        | some (.str token) =>
          if token = "" then .error (.valueError "Load test login token is not a non-empty string") else .ok token
        | some _ => .error (.valueError "Load test login token is not a non-empty string")
  | _ => .error loginError

/-- `_login`. What it did not raise itself becomes one error. -/
def login (config : LoginConfiguration) (draws : StartDraws) : Call StepError (List Contact) String :=
  match config.account, config.password with
  | some account, some password =>
    if config.loginUrl.getD "" = "" then throw (.valueError "Load test login configuration is incomplete")
    else do
      let url ← ofExcept (orRaise loginError
        (resolveUrl (lib.web fun _ => true) (.str (config.loginUrl.getD "")) config.baseUrl).toOption)
      let destination ← ofExcept
        (orRaise loginError (validateDestination lib allowedPrivateHosts draws.login url))
      modify (· ++ [.validated .login url destination])
      let body := (config.loginBody.set config.accountField (.str account)).set config.passwordField (.str password)
      let request ← ofExcept
        (orRaise loginError (buildRequest lib destination.parsed (.str "POST") [] [] (.obj body.entries)))
      let sent := requestPinned .login (.str url) request destination.addresses draws.outcomes
      modify (· ++ sent.1)
      ofExcept (loginToken lib config sent.2)
  | _, _ => throw (.valueError "Load test login configuration is incomplete")

/-- `_authentication_token`. -/
def authenticationToken (config : Option LoginConfiguration) (draws : StartDraws) :
    Call StepError (List Contact) (Option String) :=
  match config with
  | none => return none
  | some config =>
    match config.mode with
    | none => return none
    | some .token =>
      if config.token.getD "" = "" then throw (.valueError "Load test authentication failed") else return config.token
    | some .login => do
      let token ← login lib allowedPrivateHosts config draws
      return some token

/-- A target with the destination that was validated for it. -/
structure PinnedTarget where
  target : TargetDict
  expectedStatuses : List Int
  destination : Destination

def pinTarget (target : LoadTestTarget) (prepared : Prepared) (destination : Destination) : PinnedTarget where
  target := ⟨.str target.name, .str target.method, .str prepared.url, prepared.headers, prepared.query, prepared.body,
    prepared.extractors⟩
  expectedStatuses := target.expectedStatuses
  destination := destination

/-- `execute` up to its workers. -/
def startRequests (definition : LoadTestRecord) (config : Option LoginConfiguration) (draws : StartDraws) :
    Call StepError (List Contact) (List PinnedTarget) := do
  let settings := config.map (·.toLoadTestAuthConfiguration)
  let prepared ← ofExcept
    (definition.targets.mapM fun target => prepareTarget (lib.web fun _ => true) target.asDict settings)
  let destinations ← validateTargets lib allowedPrivateHosts draws.targets 0 prepared
  let token ← authenticationToken lib allowedPrivateHosts config draws
  let prepared ← ofExcept (prepared.mapM (authenticated settings token))
  return (definition.targets.zip (prepared.zip destinations)).map fun (target, prepared, destination) =>
    pinTarget target prepared destination

end Start

/-! ## The loop of a worker over the addresses -/

/-- A request on its way: what it is, and what its worker makes of its outcome. -/
structure Sending (ι : Type) where
  caller : Caller
  url : Json
  request : Request
  conclude : Outcome → ι

/-- What a worker has come to where it sends a request: no request, or one and the addresses for it. -/
inductive Attempt (ι : Type) where
  | settled (contacts : List Contact) (choice : ι)
  | sending (contacts : List Contact) (sending : Sending ι) (addresses : List Address)

/-- Where a worker stands: as before, or in the loop of `_request_pinned` with the addresses that are left. -/
inductive Stand (κ ι : Type) where
  | inner (k : κ)
  | connecting (k : κ) (sending : Sending ι) (addresses : List Address)

structure Traffic (γ : Type) where
  shared : γ
  log : List Contact

structure PinnedChoice (ι δ : Type) where
  choice : ι
  draws : δ
  outcome : Outcome

def Next.map {κ κ' : Type} (f : κ → κ') : Next κ → Next κ'
  | .goto k => .goto (f k)
  | .report target answer k => .report target answer (f k)
  | .close success k => .close success (f k)
  | .poll k => .poll (f k)
  | .done => .done
  | .escape e => .escape e

section Loop

variable {γ κ ι δ : Type}

/-- A step of the control that knows no network. -/
def Control.onward (inner : Control γ κ ι) (w : Nat) (cancelled : Bool) (shared : γ) (log : List Contact) (k : κ)
    (choice : ι) : Option (Traffic γ × Next (Stand κ ι)) :=
  (inner.step w cancelled shared k choice).map fun (shared, next) => (⟨shared, log⟩, next.map .inner)

/-- The control with its requests on the network. -/
def pinnedControl (inner : Control γ κ ι) (attempt : Nat → κ → δ → Option (Attempt ι)) :
    Control (Traffic γ) (Stand κ ι) (PinnedChoice ι δ) where
  start := .inner inner.start
  step w cancelled traffic k choice :=
    match k with
    | .inner k =>
      match attempt w k choice.draws with
      | none => inner.onward w cancelled traffic.shared traffic.log k choice.choice
      | some (.settled contacts settled) => inner.onward w cancelled traffic.shared (traffic.log ++ contacts) k settled
      | some (.sending contacts sending addresses) =>
        some (⟨traffic.shared, traffic.log ++ contacts⟩, .goto (.connecting k sending addresses))
    | .connecting k sending [] =>
      inner.onward w cancelled traffic.shared traffic.log k (sending.conclude .unavailable)
    | .connecting k sending (address :: rest) =>
      let log := traffic.log ++ [.connected sending.caller sending.url address sending.request]
      match choice.outcome with
      | .unavailable => some (⟨traffic.shared, log⟩, .goto (.connecting k sending rest))
      | outcome => inner.onward w cancelled traffic.shared log k (sending.conclude outcome)

end Loop

section Steps

variable {γ κ ι δ : Type} {inner : Control γ κ ι} {attempt : Nat → κ → δ → Option (Attempt ι)}

/-- Everything a step on the network can do, by where the worker stands. -/
inductive PinnedStep (inner : Control γ κ ι) (attempt : Nat → κ → δ → Option (Attempt ι)) (w : Nat) (cancelled : Bool)
    (traffic : Traffic γ) (choice : PinnedChoice ι δ) : Stand κ ι → Traffic γ → Next (Stand κ ι) → Prop
  | plain {k : κ} {shared : γ} {onward : Next κ} (hattempt : attempt w k choice.draws = none)
      (hinner : inner.step w cancelled traffic.shared k choice.choice = some (shared, onward)) :
      PinnedStep inner attempt w cancelled traffic choice (.inner k) ⟨shared, traffic.log⟩ (onward.map .inner)
  | settle {k : κ} {contacts : List Contact} {settled : ι} {shared : γ} {onward : Next κ}
      (hattempt : attempt w k choice.draws = some (.settled contacts settled))
      (hinner : inner.step w cancelled traffic.shared k settled = some (shared, onward)) :
      PinnedStep inner attempt w cancelled traffic choice (.inner k) ⟨shared, traffic.log ++ contacts⟩
        (onward.map .inner)
  | send {k : κ} {contacts : List Contact} {sending : Sending ι} {addresses : List Address}
      (hattempt : attempt w k choice.draws = some (.sending contacts sending addresses)) :
      PinnedStep inner attempt w cancelled traffic choice (.inner k) ⟨traffic.shared, traffic.log ++ contacts⟩
        (.goto (.connecting k sending addresses))
  | exhaust {k : κ} {sending : Sending ι} {shared : γ} {onward : Next κ}
      (hinner : inner.step w cancelled traffic.shared k (sending.conclude .unavailable) = some (shared, onward)) :
      PinnedStep inner attempt w cancelled traffic choice (.connecting k sending []) ⟨shared, traffic.log⟩
        (onward.map .inner)
  | retry {k : κ} {sending : Sending ι} {address : Address} {rest : List Address}
      (houtcome : choice.outcome = .unavailable) :
      PinnedStep inner attempt w cancelled traffic choice (.connecting k sending (address :: rest))
        ⟨traffic.shared, traffic.log ++ [.connected sending.caller sending.url address sending.request]⟩
        (.goto (.connecting k sending rest))
  | conclude {k : κ} {sending : Sending ι} {address : Address} {rest : List Address} {shared : γ} {onward : Next κ}
      (houtcome : choice.outcome ≠ .unavailable)
      (hinner : inner.step w cancelled traffic.shared k (sending.conclude choice.outcome) = some (shared, onward)) :
      PinnedStep inner attempt w cancelled traffic choice (.connecting k sending (address :: rest))
        ⟨shared, traffic.log ++ [.connected sending.caller sending.url address sending.request]⟩ (onward.map .inner)

theorem onward_eq_some {w : Nat} {cancelled : Bool} {shared : γ} {log : List Contact} {k : κ} {choice : ι}
    {after : Traffic γ} {next : Next (Stand κ ι)}
    (h : inner.onward w cancelled shared log k choice = some (after, next)) :
    ∃ shared' onward, inner.step w cancelled shared k choice = some (shared', onward) ∧ after = ⟨shared', log⟩ ∧
      next = onward.map .inner := by
  simp only [Control.onward, Option.map_eq_some_iff] at h
  obtain ⟨⟨shared', onward⟩, hstep, h⟩ := h
  obtain ⟨rfl, rfl⟩ := Prod.mk.inj h
  exact ⟨shared', onward, hstep, rfl, rfl⟩

theorem pinnedControl_cases {w : Nat} {cancelled : Bool} {traffic after : Traffic γ} {stand : Stand κ ι}
    {choice : PinnedChoice ι δ} {next : Next (Stand κ ι)}
    (h : (pinnedControl inner attempt).step w cancelled traffic stand choice = some (after, next)) :
    PinnedStep inner attempt w cancelled traffic choice stand after next := by
  simp only [pinnedControl] at h
  split at h
  · split at h
    · next hattempt =>
      obtain ⟨shared, onward, hstep, rfl, rfl⟩ := onward_eq_some h
      exact .plain hattempt hstep
    · next hattempt =>
      obtain ⟨shared, onward, hstep, rfl, rfl⟩ := onward_eq_some h
      exact .settle hattempt hstep
    · next hattempt =>
      obtain ⟨rfl, rfl⟩ := Prod.mk.inj (Option.some.inj h)
      exact .send hattempt
  · obtain ⟨shared, onward, hstep, rfl, rfl⟩ := onward_eq_some h
    exact .exhaust hstep
  · split at h
    · next houtcome =>
      obtain ⟨rfl, rfl⟩ := Prod.mk.inj (Option.some.inj h)
      exact .retry houtcome
    · next houtcome =>
      obtain ⟨shared, onward, hstep, rfl, rfl⟩ := onward_eq_some h
      exact .conclude houtcome hstep

end Steps

/-! ## What the workers send -/

section Attempts

variable (lib : Libraries) (allowedPrivateHosts : List String)

/-- `_request_target`. -/
def requestTarget (expectedStatuses : List Int) : Outcome → Except Raised Answer
  | .unavailable | .raised true | .responded .failed => .ok requestError
  | .raised false => .error .exception
  | .responded (.answered status details payload) =>
    if details.truncated = false ∧ payload.isDeep then .error .exception
    else .ok ⟨status ∈ expectedStatuses, some status,
      if status ∈ expectedStatuses then none else some "unexpected_status", details⟩

def templateError : Answer := ⟨false, none, some "template_error", .unavailable⟩

/-- The body of the `try` in `worker` of `execute`. -/
def attemptRequest (definition : LoadTestRecord) (targets : List PinnedTarget) (w : Nat) :
    RequestControl → DynamicDraws → Option (Attempt RequestChoice)
  | .request index, draws =>
    match targets[index % definition.targets.length]? with
    | none => some (.settled [] ⟨false, .error .exception⟩)
    | some pinned =>
      let attempted := do
        let rendered ← renderDynamicTarget (lib.web fun _ => true) pinned.target draws (index + 1)
        let destination ← renderedDestination lib rendered.url pinned.destination
        return (rendered, destination)
      match attempted with
      | .error (.workflowExecutionError _) => some (.settled [] ⟨false, .ok templateError⟩)
      | .error _ => some (.settled [] ⟨false, .error .exception⟩)
      | .ok (rendered, destination) =>
        match buildRequest lib destination.parsed rendered.method rendered.headers rendered.query rendered.body with
        | none => some (.settled [] ⟨false, .ok requestError⟩)
        | some request => some (.sending [] ⟨.request w index, rendered.url, request,
            fun outcome => ⟨false, requestTarget pinned.expectedStatuses outcome⟩⟩ destination.addresses)
  | _, _ => none

/-- The handlers of `worker` of `_execute_scenarios`. -/
def stepFailed : StepError → Except Raised (Answer × Dict String Json)
  | .workflowExecutionError _ => .ok (templateError, .empty)
  | .valueError _ | .typeError => .ok (requestError, .empty)
  | .attributeError | .recursionError => .error .exception

/-- `_request_scenario_target` with what came of the addresses. -/
def scenarioOutcome (room : Nat) (expectedStatuses : List Int) (target : Prepared) :
    Outcome → Except Raised (Answer × Dict String Json)
  | .unavailable | .raised true => .ok (requestError, .empty)
  | .raised false => .error .exception
  | .responded reply =>
    match requestScenarioTarget (lib.web fun _ => true) room expectedStatuses target reply with
    | .ok result => .ok result
    | .error e => stepFailed e

/-- What a step of a scenario draws: its dynamic values, what the stack has room for, and the resolver when it is
asked. -/
structure ScenarioDraws where
  dynamic : DynamicDraws
  room : Room
  resolver : Resolver

/-- A step of a scenario up to its request, with the destination of the request. -/
def validateStep (settings : Option LoadTestAuthConfiguration) (token : Option String) (target : LoadTestTarget)
    (vars : Dict String Json) (scenario : Nat) (draws : ScenarioDraws) :
    Except StepError (Json × Prepared × Destination) := do
  let web := lib.web fun _ => true
  let rendered ← renderTarget web draws.room target vars scenario draws.dynamic
  let prepared ← prepareTarget web rendered settings
  let prepared ← authenticated settings token prepared
  let destination ← orRaise destinationError
    (validateDestination lib allowedPrivateHosts draws.resolver prepared.url)
  return (rendered.method, prepared, destination)

/-- The body of the `try` in `worker` of `_execute_scenarios`. -/
def attemptStep (definition : LoadTestRecord) (config : Option LoginConfiguration) (token : Option String) (w : Nat) :
    ScenarioControl → ScenarioDraws → Option (Attempt (ScenarioChoice (Except Raised (Answer × Dict String Json))))
  | .request scenario i vars _, draws => do
    let target ← definition.targets[i]?
    let settings := config.map (·.toLoadTestAuthConfiguration)
    match validateStep lib allowedPrivateHosts settings token target vars scenario draws with
    | .error e => return .settled [] ⟨false, stepFailed e⟩
    | .ok (method, prepared, destination) =>
      let caller := Caller.scenario w scenario i
      let validated := [Contact.validated caller prepared.url destination]
      match buildRequest lib destination.parsed method prepared.headers prepared.query prepared.body with
      | none => return .settled validated ⟨false, .ok (requestError, .empty)⟩
      | some request =>
        let conclude outcome := ⟨false, scenarioOutcome lib draws.room.extracted target.expectedStatuses prepared outcome⟩
        return .sending validated ⟨caller, .str prepared.url, request, conclude⟩ destination.addresses
  | _, _ => none

end Attempts

/-! ## The same step without the network -/

section Perform

variable {lib : Libraries} {allowedPrivateHosts : List String} {definition : LoadTestRecord}
  {config : Option LoginConfiguration} {token : Option String}

/-- What the control is told of an attempt to which a reply comes. -/
def Attempt.choice {ι : Type} (reply : Reply) : Attempt ι → ι
  | .settled _ choice => choice
  | .sending _ sent _ => sent.conclude (.responded reply)

/-- A validated URL has a port, so its request can be built. -/
theorem buildRequest_of_validated {resolver : Resolver} {url : String} {destination : Destination}
    (h : validateDestination lib allowedPrivateHosts resolver url = some destination) (method : Json)
    (headers query : List (String × Json)) (body : Json) :
    ∃ request, buildRequest lib destination.parsed method headers query body = some request := by
  simp only [validateDestination, Option.bind_eq_bind, Option.bind_eq_some_iff] at h
  obtain ⟨parsed, -, hostname, -, h⟩ := h
  split at h
  · cases h
  split at h
  · cases h
  next hport =>
  obtain ⟨addresses, -, h⟩ := Option.bind_eq_some_iff.mp h
  split at h
  · cases h
  obtain rfl := Option.some.inj h
  cases hparsed : parsed.port with
  | none => simp [hparsed] at hport
  | some port => simp [buildRequest, portOf, hparsed]

theorem validateStep_ok {settings : Option LoadTestAuthConfiguration} {target : LoadTestTarget}
    {vars : Dict String Json} {scenario : Nat} {draws : ScenarioDraws} {method : Json} {prepared : Prepared}
    {destination : Destination}
    (h : validateStep lib allowedPrivateHosts settings token target vars scenario draws =
      .ok (method, prepared, destination)) :
    validateDestination lib allowedPrivateHosts draws.resolver prepared.url = some destination := by
  simp only [validateStep, bind_eq_ok_iff] at h
  obtain ⟨rendered, -, _, -, ready, -, validated, hvalidated, hresult⟩ := h
  obtain ⟨rfl, hpair⟩ := Prod.mk.inj (Except.ok.inj hresult)
  obtain ⟨rfl, rfl⟩ := Prod.mk.inj hpair
  cases hdestination : validateDestination lib allowedPrivateHosts draws.resolver ready.url with
  | none =>
    rw [hdestination] at hvalidated
    cases hvalidated
  | some other =>
    rw [hdestination] at hvalidated
    exact congrArg some (Except.ok.inj hvalidated)

/-- `prepareStep` where the resolver decides which URLs are allowed. -/
theorem prepareStep_eq (settings : Option LoadTestAuthConfiguration) (target : LoadTestTarget)
    (vars : Dict String Json) (scenario : Nat) (draws : ScenarioDraws) :
    prepareStep (lib.web fun url => (validateDestination lib allowedPrivateHosts draws.resolver url).isSome) settings
        token draws.room target vars scenario draws.dynamic =
      (validateStep lib allowedPrivateHosts settings token target vars scenario draws).map fun step => step.2.1 := by
  have hrender : renderTarget (lib.web fun url => (validateDestination lib allowedPrivateHosts draws.resolver url).isSome)
      draws.room target vars scenario draws.dynamic =
      renderTarget (lib.web fun _ => true) draws.room target vars scenario draws.dynamic := rfl
  simp only [prepareStep, validateStep, hrender]
  cases renderTarget (lib.web fun _ => true) draws.room target vars scenario draws.dynamic with
  | error e => rfl
  | ok rendered =>
    have hprepare : prepareTarget (lib.web fun url =>
        (validateDestination lib allowedPrivateHosts draws.resolver url).isSome) rendered settings =
        prepareTarget (lib.web fun _ => true) rendered settings := rfl
    simp only [ok_bind, hprepare]
    cases prepareTarget (lib.web fun _ => true) rendered settings with
    | error e => rfl
    | ok prepared =>
      simp only [ok_bind]
      cases authenticated settings token prepared with
      | error e => rfl
      | ok ready =>
        cases hvalidated : validateDestination lib allowedPrivateHosts draws.resolver ready.url with
        | none => simp [ok_bind, validatePublicUrl, Libraries.web, hvalidated, orRaise, Except.map]
        | some destination =>
          simp [ok_bind, validatePublicUrl, Libraries.web, hvalidated, orRaise, Except.map, pure, Except.pure]

/-- A step on the network answers as `perform` does where the resolver decides which URLs are allowed. -/
theorem attemptStep_perform {w scenario i : Nat} {vars : Dict String Json} {success : Bool} {draws : ScenarioDraws}
    {target : LoadTestTarget} {attempted : Attempt (ScenarioChoice (Except Raised (Answer × Dict String Json)))}
    (htarget : definition.targets[i]? = some target)
    (h : attemptStep lib allowedPrivateHosts definition config token w (.request scenario i vars success) draws =
      some attempted) (reply : Reply) :
    (attempted.choice reply).draws =
      perform (lib.web fun url => (validateDestination lib allowedPrivateHosts draws.resolver url).isSome)
        (config.map (·.toLoadTestAuthConfiguration)) token target vars scenario ⟨draws.dynamic, draws.room, reply⟩ := by
  simp only [attemptStep, htarget, Option.bind_eq_bind, Option.bind_some] at h
  unfold perform
  rw [prepareStep_eq]
  cases hstep : validateStep lib allowedPrivateHosts (config.map (·.toLoadTestAuthConfiguration)) token target vars
    scenario draws with
  | error e =>
    simp only [hstep] at h
    obtain rfl := Option.some.inj h
    cases e <;> rfl
  | ok result =>
    obtain ⟨method, prepared, destination⟩ := result
    obtain ⟨request, hrequest⟩ := buildRequest_of_validated (validateStep_ok hstep) method prepared.headers
      prepared.query prepared.body
    simp only [hstep, hrequest] at h
    obtain rfl := Option.some.inj h
    show scenarioOutcome lib draws.room.extracted target.expectedStatuses prepared (.responded reply) = _
    have hreply : requestScenarioTarget (lib.web fun _ => true) draws.room.extracted target.expectedStatuses prepared
        reply = requestScenarioTarget (lib.web fun url =>
          (validateDestination lib allowedPrivateHosts draws.resolver url).isSome) draws.room.extracted
          target.expectedStatuses prepared reply := rfl
    simp only [scenarioOutcome, hreply, Except.map, ok_bind]
    cases requestScenarioTarget (lib.web fun url =>
        (validateDestination lib allowedPrivateHosts draws.resolver url).isSome) draws.room.extracted
        target.expectedStatuses prepared reply with
    | ok result => rfl
    | error e => cases e <;> rfl

end Perform

end SmartTest.Load
