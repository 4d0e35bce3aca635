import SmartTest.Egress.Guards
import SmartTest.Lib.Call
import SmartTest.Load.Perform

/-!
# Destinations

What stands between a URL and a connection in `services/api/load_test_executor.py`:
`_validate_public_url` resolves a host once and checks every address, `_rendered_destination`
holds a rendered URL to the destination that was validated, and `_request_pinned` connects to
the addresses themselves, so the name is never resolved again.
-/

open SmartTest.Lib SmartTest.Run

namespace SmartTest.Load

/-- What `ip_address` makes of a text. No check looks at the scope. -/
structure Address where
  ip : IpAddress
  scope : Option String

/-- What `urlsplit` makes of a text, with the properties it computes from the netloc. Asking for the port raises
`ValueError` where `port` is `none`. -/
structure Url where
  scheme : String
  netloc : String
  path : String
  query : String
  hostname : Option String
  username : Option String
  password : Option String
  port : Option (Option Nat)

/-- The functions of the libraries: `urlsplit` and `urljoin` (or `ValueError`), `ip_address` (or `ValueError`),
`str.lower`, `urlencode`, and what a step asks besides. -/
structure Libraries where
  split : String → Option Url
  join : String → String → Option String
  ipAddress : String → Option Address
  lower : String → String
  urlencode : List (String × Json) → String
  index : String → Option Nat
  floatText : Rat → List Char

/-- One call of the resolver: the addresses of a host, or an exception. -/
abbrev Resolver := String → Option (List String)

/-- A parsed URL with the addresses a request to it may use. -/
structure Destination where
  parsed : Url
  addresses : List Address

/-! ## Validation -/

/-- `_is_allowed_private_address`. -/
def isAllowedPrivateAddress (address : IpAddress) : Bool :=
  let candidate := address.unmapped
  !Egress.LoadTestExecutor.blocked candidate && !candidate.isLoopback && !candidate.isLinkLocal &&
    !candidate.isMulticast && !candidate.isReserved && !candidate.isUnspecified

variable (lib : Libraries) (allowedPrivateHosts : List String)

/-- Whether an address passes for a host. -/
def addressAllowed (hostname : String) (address : Address) : Bool :=
  if lib.lower hostname ∈ allowedPrivateHosts then isAllowedPrivateAddress address.ip
  else Egress.LoadTestExecutor.isPublicAddress address.ip

/-- The addresses of a host: its own, or what the resolver answers. -/
def addressesOf (resolver : Resolver) (hostname : String) : Option (List Address) :=
  match lib.ipAddress hostname with
  | some address => some [address]
  | none => do
    let items ← resolver hostname
    items.mapM lib.ipAddress

/-- `_validate_public_url`, which makes one error of every exception. -/
def validateDestination (resolver : Resolver) (url : String) : Option Destination := do
  let parsed ← lib.split url
  let hostname ← parsed.hostname
  if ¬ (lib.lower parsed.scheme = "http" ∨ lib.lower parsed.scheme = "https") ∨ hostname = "" then none
  else if parsed.username.isSome ∨ parsed.password.isSome ∨ parsed.port.isNone then none
  else
    let addresses ← addressesOf lib resolver hostname
    if addresses = [] ∨ addresses.any (fun address => !addressAllowed lib allowedPrivateHosts hostname address) then none
    else some ⟨parsed, addresses⟩

/-! ## The rendered URL -/

/-- `parsed.port or (443 if parsed.scheme.lower() == "https" else 80)`. -/
def portOf (parsed : Url) : Option Nat :=
  parsed.port.map fun port =>
    if port.getD 0 = 0 then (if lib.lower parsed.scheme = "https" then 443 else 80) else port.getD 0

def Url.empty : Url := ⟨"", "", "", "", none, none, none, some none⟩

/-- `urlsplit` of what a URL has been rendered to. -/
def splitRendered (url : Json) : Except StepError Url :=
  match url with
  | .str text => match lib.split text with
    | some parsed => .ok parsed
    | none => .error (.valueError "Invalid URL")
  | .arr _ | .obj _ => .error .typeError
  | value => if isNonzeroNumber value then .error .attributeError else .ok .empty

/-- The scheme, the host and the port, as `_rendered_destination` compares them. -/
def endpoint (parsed : Url) : Option (String × String × Nat) :=
  (portOf lib parsed).map fun port => (lib.lower parsed.scheme, lib.lower (parsed.hostname.getD ""), port)

def renderedDestination (url : Json) (destination : Destination) : Except StepError Destination := do
  let rendered ← splitRendered lib url
  match endpoint lib destination.parsed, endpoint lib rendered with
  | some pinned, some changed =>
    if changed ≠ pinned then .error (.workflowExecutionError "a dynamic URL cannot change its destination")
    else .ok ⟨rendered, destination.addresses⟩
  | _, _ => .error (.workflowExecutionError "a dynamic URL is invalid")

/-! ## The request -/

/-- What `_request_pinned` hands to a pool, but for the address. With `secure` the certificate has to be the one of
`serverHostname`. -/
structure Request where
  secure : Bool
  port : Nat
  serverHostname : Option String
  method : Json
  path : String
  headers : List (String × Json)
  body : Json

def hasHeader (name : String) (headers : List (String × Json)) : Bool :=
  headers.any fun header => lib.lower header.1 = name

/-- `body is not None`. -/
def hasBody : Json → Bool
  | .null => false
  | _ => true

/-- `_request_pinned` up to its loop; asking for the port may raise `ValueError`. -/
def buildRequest (parsed : Url) (method : Json) (headers query : List (String × Json)) (body : Json) :
    Option Request := do
  let port ← portOf lib parsed
  let path := if parsed.path = "" then "/" else parsed.path
  let items := [parsed.query, lib.urlencode query].filter (· ≠ "")
  let headers := if hasHeader lib "host" headers then headers else headers ++ [("Host", .str parsed.netloc)]
  let headers := if hasBody body && !hasHeader lib "content-type" headers then
    headers ++ [("Content-Type", .str "application/json")] else headers
  let secure : Bool := lib.lower parsed.scheme = "https"
  return {
    secure := secure
    port := port
    serverHostname := if secure then parsed.hostname else none
    method := method
    path := if items = [] then path else path ++ "?" ++ "&".intercalate items
    headers := headers
    body := body }

/-- What comes of one address: `HTTPError` or `OSError`, another exception (`taken` where the caller takes it), or a
response. -/
inductive Outcome where
  | unavailable
  | raised (taken : Bool)
  | responded (reply : Reply)

/-- Who validates or connects: the start of the run for a target, the login, a worker for a request, or a worker
for a step of a scenario. -/
inductive Caller where
  | target (i : Nat)
  | login
  | request (worker index : Nat)
  | scenario (worker sequence i : Nat)
  deriving DecidableEq

/-- What a run has done on the network. -/
inductive Contact where
  | validated (caller : Caller) (url : String) (destination : Destination)
  | connected (caller : Caller) (url : Json) (address : Address) (request : Request)

/-- The loop of `_request_pinned`, with what comes of each address. -/
def requestPinned (caller : Caller) (url : Json) (request : Request) :
    List Address → List Outcome → List Contact × Outcome
  | [], _ => ([], .unavailable)
  | address :: rest, outcomes =>
    match outcomes.headD .unavailable with
    | .unavailable =>
      let (contacts, outcome) := requestPinned caller url request rest outcomes.tail
      (.connected caller url address request :: contacts, outcome)
    | outcome => ([.connected caller url address request], outcome)

/-! ## What they guarantee -/

section Guarantees

variable {lib allowedPrivateHosts}

/-- Every address of a validated destination passes for its host. -/
theorem validateDestination_accepts {resolver : Resolver} {url : String} {destination : Destination}
    (h : validateDestination lib allowedPrivateHosts resolver url = some destination) :
    lib.split url = some destination.parsed ∧ ∃ hostname, destination.parsed.hostname = some hostname ∧
      ∀ address ∈ destination.addresses, addressAllowed lib allowedPrivateHosts hostname address = true := by
  simp only [validateDestination, Option.bind_eq_bind, Option.bind_eq_some_iff] at h
  obtain ⟨parsed, hsplit, hostname, hhostname, h⟩ := h
  split at h
  · cases h
  split at h
  · cases h
  obtain ⟨addresses, -, h⟩ := Option.bind_eq_some_iff.mp h
  split at h
  · cases h
  · next hpass =>
    obtain rfl := Option.some.inj h
    refine ⟨hsplit, hostname, hhostname, ?_⟩
    intro address haddress
    by_contra hrefused
    apply hpass
    exact .inr (List.any_eq_true.mpr ⟨address, haddress, by simpa using hrefused⟩)

/-- A rendered URL keeps the addresses and the endpoint that were validated. -/
theorem renderedDestination_pins {url : Json} {destination rendered : Destination}
    (h : renderedDestination lib url destination = .ok rendered) :
    splitRendered lib url = .ok rendered.parsed ∧ rendered.addresses = destination.addresses ∧
      ∃ pinned, endpoint lib destination.parsed = some pinned ∧ endpoint lib rendered.parsed = some pinned := by
  simp only [renderedDestination, bind_eq_ok_iff] at h
  obtain ⟨parsed, hsplit, h⟩ := h
  split at h
  · next pinned changed hpinned hchanged =>
    split at h
    · cases h
    · next hsame =>
      obtain rfl := Except.ok.inj h
      refine ⟨hsplit, rfl, pinned, hpinned, ?_⟩
      rw [hchanged, not_not.mp hsame]
  · cases h

/-- The request goes to the endpoint of its URL. -/
theorem buildRequest_endpoint {parsed : Url} {method : Json} {headers query : List (String × Json)} {body : Json}
    {request : Request} (h : buildRequest lib parsed method headers query body = some request) :
    portOf lib parsed = some request.port ∧ request.secure = decide (lib.lower parsed.scheme = "https") ∧
      request.serverHostname = if request.secure then parsed.hostname else none := by
  simp only [buildRequest, Option.bind_eq_bind, Option.bind_eq_some_iff] at h
  obtain ⟨port, hport, h⟩ := h
  obtain rfl := Option.some.inj h
  exact ⟨hport, rfl, rfl⟩

/-- The loop connects to the addresses it was given. -/
theorem requestPinned_connects {caller : Caller} {url : Json} {request : Request} {addresses : List Address}
    {outcomes : List Outcome} :
    ∀ contact ∈ (requestPinned caller url request addresses outcomes).1,
      ∃ address ∈ addresses, contact = .connected caller url address request := by
  induction addresses generalizing outcomes with
  | nil =>
    intro contact hcontact
    cases hcontact
  | cons address rest ih =>
    intro contact hcontact
    have hfirst : contact = .connected caller url address request ∨
        contact ∈ (requestPinned caller url request rest outcomes.tail).1 := by
      unfold requestPinned at hcontact
      split at hcontact
      · exact List.mem_cons.mp hcontact
      · exact .inl (List.mem_singleton.mp hcontact)
    rcases hfirst with rfl | hrest
    · exact ⟨address, List.mem_cons_self, rfl⟩
    · obtain ⟨other, hother, hcontact⟩ := ih contact hrest
      exact ⟨other, List.mem_cons_of_mem _ hother, hcontact⟩

end Guarantees

end SmartTest.Load
