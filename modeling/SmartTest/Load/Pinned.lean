import Mathlib.Algebra.GroupWithZero.Nat
import SmartTest.Load.Traffic

/-!
# Traffic stays on validated addresses

Every connection of a run goes to an address that has passed the validation of its own
target, whatever the resolver answers from one call to the next: a request to one that was
validated at the start, at the same scheme, host and port, and a step of a scenario to one
that the worker has validated just before.
-/

open SmartTest.Lib SmartTest.Run

namespace SmartTest.Load

/-! ## What has to hold of a contact -/

def Caller.worker? : Caller → Option Nat
  | .request w _ | .scenario w _ _ => some w
  | .target _ | .login => none

def Contact.validator : Contact → Option Caller
  | .validated caller _ _ => some caller
  | .connected _ _ _ _ => none

/-- The last validation by one of these callers. -/
def lastValidation (mine : Caller → Bool) (log : List Contact) : Option (Caller × String × Destination) :=
  log.reverse.findSome? fun
    | .validated caller url destination => if mine caller then some (caller, url, destination) else none
    | .connected _ _ _ _ => none

/-- The request is for the scheme, the host and the port of the URL. -/
structure GoesTo (lib : Libraries) (parsed : Url) (request : Request) : Prop where
  port : portOf lib parsed = some request.port
  secure : request.secure = decide (lib.lower parsed.scheme = "https")
  name : request.serverHostname = if request.secure then parsed.hostname else none

theorem GoesTo.of_buildRequest {lib : Libraries} {parsed : Url} {method : Json} {headers query : List (String × Json)}
    {body : Json} {request : Request} (h : buildRequest lib parsed method headers query body = some request) :
    GoesTo lib parsed request := by
  obtain ⟨hport, hsecure, hname⟩ := buildRequest_endpoint h
  exact ⟨hport, hsecure, hname⟩

section Contacts

variable (lib : Libraries) (allowedPrivateHosts : List String) (definition : LoadTestRecord)

/-- What validation has let through. -/
def Accepted (url : String) (destination : Destination) : Prop :=
  ∃ resolver, validateDestination lib allowedPrivateHosts resolver url = some destination

/-- What holds of a contact after the contacts before it. -/
def Pinned (before : List Contact) : Contact → Prop
  | .validated _ url destination => Accepted lib allowedPrivateHosts url destination
  | .connected (.target _) _ _ _ => False
  | .connected .login url address request =>
    ∃ text destination, url = .str text ∧ lastValidation (· = .login) before = some (.login, text, destination) ∧
      address ∈ destination.addresses ∧ GoesTo lib destination.parsed request
  | .connected (.request _ index) url address request =>
    definition.trafficMode = .requests ∧ ∃ text destination rendered pinned,
      before[index % definition.targets.length]? =
        some (.validated (.target (index % definition.targets.length)) text destination) ∧
      address ∈ destination.addresses ∧ splitRendered lib url = .ok rendered ∧
      endpoint lib destination.parsed = some pinned ∧ endpoint lib rendered = some pinned ∧ GoesTo lib rendered request
  | .connected (.scenario w sequence i) url address request =>
    definition.trafficMode = .scenario ∧ ∃ text destination, url = .str text ∧
      lastValidation (fun caller => caller.worker? = some w) before =
        some (.scenario w sequence i, text, destination) ∧
      address ∈ destination.addresses ∧ GoesTo lib destination.parsed request

/-- Every contact of a log is pinned by those before it. -/
def Sound (log : List Contact) : Prop :=
  ∀ n contact, log[n]? = some contact → Pinned lib allowedPrivateHosts definition (log.take n) contact

end Contacts

section Log

variable {lib : Libraries} {allowedPrivateHosts : List String} {definition : LoadTestRecord} {log ext : List Contact}
  {contact : Contact}

theorem lastValidation_append {mine : Caller → Bool}
    (h : ∀ contact ∈ ext, ∀ caller, contact.validator = some caller → mine caller = false) :
    lastValidation mine (log ++ ext) = lastValidation mine log := by
  unfold lastValidation
  rw [List.reverse_append, List.findSome?_append]
  have hnone : ext.reverse.findSome? (fun contact : Contact => match contact with
      | .validated caller url destination => if mine caller then some (caller, url, destination) else none
      | .connected _ _ _ _ => none) = none := by
    rw [List.findSome?_eq_none_iff]
    intro contact hcontact
    cases contact with
    | validated caller url destination => simp [h _ (List.mem_reverse.mp hcontact) caller rfl]
    | connected caller url address request => rfl
  rw [hnone, Option.none_or]

theorem lastValidation_concat {mine : Caller → Bool} {caller : Caller} (hmine : mine caller = true) (url : String)
    (destination : Destination) :
    lastValidation mine (log ++ [.validated caller url destination]) = some (caller, url, destination) := by
  simp [lastValidation, hmine]

/-- Other workers do not loosen what a connection is pinned by. -/
theorem Pinned.later {caller : Caller} {url : Json} {address : Address} {request : Request}
    (h : Pinned lib allowedPrivateHosts definition log (.connected caller url address request))
    (hext : ∀ contact ∈ ext, ∀ other, contact.validator = some other →
      ∃ w, other.worker? = some w ∧ caller.worker? ≠ some w) :
    Pinned lib allowedPrivateHosts definition (log ++ ext) (.connected caller url address request) := by
  cases caller with
  | target i => exact h
  | login =>
    obtain ⟨text, destination, hurl, hlast, haddress, hgoes⟩ := h
    refine ⟨text, destination, hurl, ?_, haddress, hgoes⟩
    rw [lastValidation_append, hlast]
    intro contact hcontact other hother
    obtain ⟨w, hw, -⟩ := hext contact hcontact other hother
    have hlogin : other ≠ .login := by
      rintro rfl
      cases hw
    simpa using hlogin
  | request w index =>
    obtain ⟨hmode, text, destination, rendered, pinned, hstart, hrest⟩ := h
    refine ⟨hmode, text, destination, rendered, pinned, ?_, hrest⟩
    rw [List.getElem?_append_left (List.getElem?_eq_some_iff.mp hstart).1, hstart]
  | scenario w sequence i =>
    obtain ⟨hmode, text, destination, hurl, hlast, haddress, hgoes⟩ := h
    refine ⟨hmode, text, destination, hurl, ?_, haddress, hgoes⟩
    rw [lastValidation_append, hlast]
    intro contact hcontact other hother
    obtain ⟨v, hv, hne⟩ := hext contact hcontact other hother
    rw [hv]
    have hvw : ¬ v = w := fun hvw => hne (congrArg some hvw.symm)
    simpa using hvw

theorem sound_nil : Sound lib allowedPrivateHosts definition [] := by
  intro n contact h
  cases h

theorem Sound.concat (h : Sound lib allowedPrivateHosts definition log)
    (hcontact : Pinned lib allowedPrivateHosts definition log contact) :
    Sound lib allowedPrivateHosts definition (log ++ [contact]) := by
  intro n other hother
  obtain ⟨hn, hget⟩ := List.getElem?_eq_some_iff.mp hother
  rw [List.length_append, List.length_singleton] at hn
  by_cases hlast : n = log.length
  · subst hlast
    rw [List.getElem?_concat_length] at hother
    obtain rfl := Option.some.inj hother
    rwa [List.take_left']
    rfl
  · have hlt : n < log.length := by omega
    rw [List.getElem?_append_left hlt] at hother
    rw [List.take_append_of_le_length hlt.le]
    exact h n other hother

theorem Sound.connect {contacts : List Contact} (h : Sound lib allowedPrivateHosts definition log)
    (hcontacts : ∀ contact ∈ contacts, ∃ caller url address request, contact = .connected caller url address request ∧
      Pinned lib allowedPrivateHosts definition log contact) :
    Sound lib allowedPrivateHosts definition (log ++ contacts) := by
  induction contacts generalizing log with
  | nil => simpa using h
  | cons contact rest ih =>
    obtain ⟨⟨caller, url, address, request, rfl, hpinned⟩, hrest⟩ := List.forall_mem_cons.mp hcontacts
    rw [List.append_cons]
    apply ih (h.concat hpinned)
    intro other hother
    obtain ⟨caller', url', address', request', rfl, hother⟩ := hrest other hother
    refine ⟨caller', url', address', request', rfl, hother.later ?_⟩
    intro contact hcontact validator hvalidator
    obtain rfl := List.mem_singleton.mp hcontact
    cases hvalidator

end Log

/-! ## The start -/

section Start

variable {lib : Libraries} {allowedPrivateHosts : List String} {definition : LoadTestRecord}

/-- The call only adds to the log, and keeps it sound. -/
def Keeps {α : Type} (lib : Libraries) (allowedPrivateHosts : List String) (definition : LoadTestRecord)
    (call : Call StepError (List Contact) α) : Prop :=
  ∀ log, Sound lib allowedPrivateHosts definition log →
    log <+: (call.on log).2 ∧ Sound lib allowedPrivateHosts definition (call.on log).2

theorem keeps_pure {α : Type} (a : α) : Keeps lib allowedPrivateHosts definition (pure a) := by
  intro log hlog
  exact ⟨List.prefix_rfl, hlog⟩

theorem keeps_throw {α : Type} (e : StepError) : Keeps lib allowedPrivateHosts definition (throw e : Call _ _ α) := by
  intro log hlog
  exact ⟨List.prefix_rfl, hlog⟩

theorem keeps_ofExcept {α : Type} (x : Except StepError α) :
    Keeps lib allowedPrivateHosts definition (ofExcept x : Call StepError (List Contact) α) := by
  intro log hlog
  rw [Call.on_ofExcept]
  exact ⟨List.prefix_rfl, hlog⟩

/-- What follows may rely on what the call has answered. -/
theorem Keeps.bind {α β : Type} {call : Call StepError (List Contact) α} {next : α → Call StepError (List Contact) β}
    (hcall : Keeps lib allowedPrivateHosts definition call)
    (hnext : ∀ log a, (call.on log).1 = .ok a → Keeps lib allowedPrivateHosts definition (next a)) :
    Keeps lib allowedPrivateHosts definition (call >>= next) := by
  intro log hlog
  obtain ⟨hbegins, hsound⟩ := hcall log hlog
  rw [Call.on_bind]
  rcases hon : call.on log with ⟨_ | a, after⟩
  · rw [hon] at hbegins hsound
    exact ⟨hbegins, hsound⟩
  · rw [hon] at hbegins hsound
    obtain ⟨hmore, hlast⟩ := hnext log a (by rw [hon]) after hsound
    exact ⟨hbegins.trans hmore, hlast⟩

theorem orRaise_ok {α : Type} {e : StepError} {x : Option α} {a : α} (h : orRaise e x = .ok a) : x = some a := by
  cases x with
  | none => cases h
  | some b => exact congrArg some (Except.ok.inj h)

/-- A validation at the start that has passed. -/
theorem keeps_validated {caller : Caller} {url : String} {destination : Destination}
    (h : Accepted lib allowedPrivateHosts url destination) :
    Keeps lib allowedPrivateHosts definition (modify (· ++ [.validated caller url destination])) := by
  intro log hlog
  rw [Call.on_modify]
  exact ⟨List.prefix_append _ _, hlog.concat h⟩

theorem keeps_validateTargets (resolvers : Nat → Resolver) (i : Nat) (prepared : List Prepared) :
    Keeps lib allowedPrivateHosts definition (validateTargets lib allowedPrivateHosts resolvers i prepared) := by
  induction prepared generalizing i with
  | nil => exact keeps_pure _
  | cons target rest ih =>
    refine (keeps_ofExcept _).bind fun log destination hdestination => ?_
    rw [Call.on_ofExcept] at hdestination
    refine (keeps_validated ⟨_, orRaise_ok hdestination⟩).bind fun _ _ _ => ?_
    exact (ih (i + 1)).bind fun _ _ _ => keeps_pure _

/-- The login connects to what it has just validated. -/
theorem keeps_login (config : LoginConfiguration) (draws : StartDraws) :
    Keeps lib allowedPrivateHosts definition (login lib allowedPrivateHosts config draws) := by
  unfold login
  split
  · split
    · exact keeps_throw _
    refine (keeps_ofExcept _).bind fun _ url _ => ?_
    refine (keeps_ofExcept _).bind fun log destination hdestination => ?_
    rw [Call.on_ofExcept] at hdestination
    have haccepted := orRaise_ok hdestination
    intro log hlog
    have hvalidated : Sound lib allowedPrivateHosts definition (log ++ [.validated .login url destination]) :=
      hlog.concat ⟨_, haccepted⟩
    have hlast : lastValidation (· = .login) (log ++ [.validated .login url destination]) =
        some (.login, url, destination) := lastValidation_concat (by decide) url destination
    have hbegins := List.prefix_append log [.validated .login url destination]
    rw [Call.on_bind, Call.on_modify]
    dsimp only
    generalize log ++ [.validated .login url destination] = before at *
    rw [Call.on_bind, Call.on_ofExcept]
    split
    · next request after hon =>
      obtain ⟨hrequest, rfl⟩ := Prod.mk.inj hon
      have hgoes := GoesTo.of_buildRequest (orRaise_ok hrequest)
      rw [Call.on_bind, Call.on_modify]
      dsimp only
      rw [Call.on_ofExcept]
      refine ⟨hbegins.trans (List.prefix_append _ _), hvalidated.connect ?_⟩
      intro contact hcontact
      obtain ⟨address, haddress, rfl⟩ := requestPinned_connects contact hcontact
      exact ⟨.login, .str url, address, request, rfl, url, destination, rfl, hlast, haddress, hgoes⟩
    · next e after hon =>
      obtain ⟨-, rfl⟩ := Prod.mk.inj hon
      exact ⟨hbegins, hvalidated⟩
  · exact keeps_throw _

theorem keeps_authenticationToken (config : Option LoginConfiguration) (draws : StartDraws) :
    Keeps lib allowedPrivateHosts definition (authenticationToken lib allowedPrivateHosts config draws) := by
  unfold authenticationToken
  split
  · exact keeps_pure _
  · split
    · exact keeps_pure _
    · split
      · exact keeps_throw _
      · exact keeps_pure _
    · exact (keeps_login _ draws).bind fun _ _ _ => keeps_pure _

theorem keeps_startRequests (config : Option LoginConfiguration) (draws : StartDraws) :
    Keeps lib allowedPrivateHosts definition (startRequests lib allowedPrivateHosts definition config draws) := by
  unfold startRequests
  refine (keeps_ofExcept _).bind fun _ prepared _ => ?_
  refine (keeps_validateTargets _ _ _).bind fun _ destinations _ => ?_
  refine (keeps_authenticationToken config draws).bind fun _ token _ => ?_
  exact (keeps_ofExcept _).bind fun _ _ _ => keeps_pure _

/-- The log has the validation of the `j`-th destination after those before it. -/
theorem validateTargets_log {resolvers : Nat → Resolver} {i : Nat} {prepared : List Prepared}
    {log after : List Contact} {destinations : List Destination}
    (h : (validateTargets lib allowedPrivateHosts resolvers i prepared).on log = (.ok destinations, after)) :
    log <+: after ∧ destinations.length = prepared.length ∧ ∀ j destination, destinations[j]? = some destination →
      ∃ url, after[log.length + j]? = some (.validated (.target (i + j)) url destination) := by
  induction prepared generalizing i log destinations with
  | nil =>
    obtain ⟨hout, rfl⟩ := Prod.mk.inj h
    obtain rfl := Except.ok.inj hout
    exact ⟨List.prefix_rfl, rfl, by simp⟩
  | cons target rest ih =>
    simp only [validateTargets, Call.on_bind_eq_ok_iff, Call.on_ofExcept, Call.on_modify] at h
    obtain ⟨destination, before, hfirst, _, before', hvalidated, others, after', hrest, hout⟩ := h
    obtain ⟨-, rfl⟩ := Prod.mk.inj hfirst
    obtain ⟨-, rfl⟩ := Prod.mk.inj hvalidated
    rw [Call.on_pure] at hout
    obtain ⟨hanswer, rfl⟩ := Prod.mk.inj hout
    obtain rfl := Except.ok.inj hanswer
    obtain ⟨hbegins, hlength, hothers⟩ := ih hrest
    refine ⟨(List.prefix_append _ _).trans hbegins, congrArg (· + 1) hlength, ?_⟩
    intro j other hother
    cases j with
    | zero =>
      obtain rfl := Option.some.inj hother
      obtain ⟨later, rfl⟩ := hbegins
      exact ⟨target.url, by simp⟩
    | succ j =>
      obtain ⟨url, hurl⟩ := hothers j other (by simpa using hother)
      refine ⟨url, ?_⟩
      rw [List.length_append, List.length_singleton] at hurl
      rw [show log.length + (j + 1) = log.length + 1 + j by omega, hurl, show i + (j + 1) = i + 1 + j by omega]

/-- What the workers use was validated at the start, target by target. -/
def ValidatedFirst (pins : List PinnedTarget) (log : List Contact) : Prop :=
  ∀ i pinned, pins[i]? = some pinned → ∃ url, log[i]? = some (Contact.validated (.target i) url pinned.destination)

theorem startRequests_validates {config : Option LoginConfiguration} {draws : StartDraws}
    {pins : List PinnedTarget} {log : List Contact}
    (h : (startRequests lib allowedPrivateHosts definition config draws).on [] = (.ok pins, log)) :
    ValidatedFirst pins log := by
  simp only [startRequests, Call.on_bind_eq_ok_iff, Call.on_ofExcept] at h
  obtain ⟨prepared, _, hprepared, destinations, before, hvalidate, token, after, htoken, auth, _, hauth, hout⟩ := h
  obtain ⟨-, rfl⟩ := Prod.mk.inj hprepared
  obtain ⟨-, rfl⟩ := Prod.mk.inj hauth
  rw [Call.on_pure] at hout
  obtain ⟨hanswer, rfl⟩ := Prod.mk.inj hout
  obtain rfl := Except.ok.inj hanswer
  obtain ⟨-, -, hlog⟩ := validateTargets_log hvalidate
  have hbefore : Sound lib allowedPrivateHosts definition before := by
    have hkept : Sound lib allowedPrivateHosts definition
        ((validateTargets lib allowedPrivateHosts draws.targets 0 prepared).on []).2 :=
      (keeps_validateTargets draws.targets 0 prepared [] sound_nil).2
    rwa [hvalidate] at hkept
  have hbegins : before <+: after := by
    have hkept := (keeps_authenticationToken config draws before hbefore).1
    rwa [htoken] at hkept
  intro i pinned hpinned
  simp only [List.getElem?_map, Option.map_eq_some_iff, List.getElem?_zip_eq_some] at hpinned
  obtain ⟨⟨target, ready, destination⟩, ⟨-, -, hdestination⟩, rfl⟩ := hpinned
  obtain ⟨url, hurl⟩ := hlog i destination hdestination
  obtain ⟨later, rfl⟩ := hbegins
  rw [List.length_nil, Nat.zero_add] at hurl
  refine ⟨url, ?_⟩
  rw [List.getElem?_append_left (List.getElem?_eq_some_iff.mp hurl).1]
  exact hurl

end Start

/-! ## The workers -/

section Workers

variable {lib : Libraries} {allowedPrivateHosts : List String} {definition : LoadTestRecord} {γ κ ι δ : Type}

/-- A worker in the loop of `_request_pinned` may connect to each address that is left. -/
def Held (lib : Libraries) (allowedPrivateHosts : List String) (definition : LoadTestRecord) (w : Nat) (log : List Contact)
    (sending : Sending ι) (addresses : List Address) : Prop :=
  sending.caller.worker? = some w ∧ ∀ address ∈ addresses,
    Pinned lib allowedPrivateHosts definition log (.connected sending.caller sending.url address sending.request)

/-- A worker adds nothing before its connections, or a validation of its own that has passed. -/
def Adds (lib : Libraries) (allowedPrivateHosts : List String) (w : Nat) (contacts : List Contact) : Prop :=
  contacts = [] ∨ ∃ caller url destination, contacts = [.validated caller url destination] ∧
    caller.worker? = some w ∧ Accepted lib allowedPrivateHosts url destination

/-- What the two kinds of workers have in common, once the start has left its log. -/
structure Careful (lib : Libraries) (allowedPrivateHosts : List String) (definition : LoadTestRecord) (start : List Contact)
    (attempt : Nat → κ → δ → Option (Attempt ι)) : Prop where
  settled : ∀ w k draws contacts choice, attempt w k draws = some (.settled contacts choice) →
    Adds lib allowedPrivateHosts w contacts
  sending : ∀ w k draws contacts sending addresses, attempt w k draws = some (.sending contacts sending addresses) →
    Adds lib allowedPrivateHosts w contacts ∧ ∀ log, start <+: log →
      Held lib allowedPrivateHosts definition w (log ++ contacts) sending addresses

/-- What a step of a worker adds to the log and where it leads. -/
inductive Advance (attempt : Nat → κ → δ → Option (Attempt ι)) (w : Nat) :
    Stand κ ι → List Contact → Next (Stand κ ι) → Prop
  | quiet (stand : Stand κ ι) (next : Next κ) : Advance attempt w stand [] (next.map .inner)
  | settle {k : κ} {draws : δ} {contacts : List Contact} {choice : ι}
      (h : attempt w k draws = some (.settled contacts choice)) (next : Next κ) :
      Advance attempt w (.inner k) contacts (next.map .inner)
  | send {k : κ} {draws : δ} {contacts : List Contact} {sending : Sending ι} {addresses : List Address}
      (h : attempt w k draws = some (.sending contacts sending addresses)) :
      Advance attempt w (.inner k) contacts (.goto (.connecting k sending addresses))
  | retry (k : κ) (sending : Sending ι) (address : Address) (rest : List Address) :
      Advance attempt w (.connecting k sending (address :: rest))
        [.connected sending.caller sending.url address sending.request] (.goto (.connecting k sending rest))
  | conclude (k : κ) (sending : Sending ι) (address : Address) (rest : List Address) (next : Next κ) :
      Advance attempt w (.connecting k sending (address :: rest))
        [.connected sending.caller sending.url address sending.request] (next.map .inner)

theorem pinnedControl_advances {inner : Control γ κ ι} {attempt : Nat → κ → δ → Option (Attempt ι)} {w : Nat}
    {cancelled : Bool} {traffic after : Traffic γ} {stand : Stand κ ι} {choice : PinnedChoice ι δ}
    {next : Next (Stand κ ι)}
    (h : (pinnedControl inner attempt).step w cancelled traffic stand choice = some (after, next)) :
    ∃ contacts, after.log = traffic.log ++ contacts ∧ Advance attempt w stand contacts next := by
  cases pinnedControl_cases h with
  | plain hattempt hinner => exact ⟨[], (List.append_nil _).symm, .quiet _ _⟩
  | settle hattempt hinner => exact ⟨_, rfl, .settle hattempt _⟩
  | send hattempt => exact ⟨_, rfl, .send hattempt⟩
  | exhaust hinner => exact ⟨[], (List.append_nil _).symm, .quiet _ _⟩
  | retry houtcome => exact ⟨_, rfl, .retry _ _ _ _⟩
  | conclude houtcome hinner => exact ⟨_, rfl, .conclude _ _ _ _ _⟩

theorem Held.later {w : Nat} {log contacts : List Contact} {sending : Sending ι} {addresses : List Address}
    (h : Held lib allowedPrivateHosts definition w log sending addresses)
    (hcontacts : ∀ contact ∈ contacts, ∀ caller, contact.validator = some caller →
      ∃ v, caller.worker? = some v ∧ v ≠ w) :
    Held lib allowedPrivateHosts definition w (log ++ contacts) sending addresses := by
  refine ⟨h.1, fun address haddress => (h.2 address haddress).later ?_⟩
  intro contact hcontact caller hcaller
  obtain ⟨v, hv, hne⟩ := hcontacts contact hcontact caller hcaller
  refine ⟨v, hv, ?_⟩
  rw [h.1]
  exact fun hsame => hne (Option.some.inj hsame).symm

/-- What a step of a worker comes to: the log stays sound, only this worker has validated, and what it has left
to connect to is pinned. -/
theorem Advance.sound {attempt : Nat → κ → δ → Option (Attempt ι)} {start log contacts : List Contact} {w : Nat}
    {stand : Stand κ ι} {next : Next (Stand κ ι)} (h : Advance attempt w stand contacts next)
    (hcareful : Careful lib allowedPrivateHosts definition start attempt) (hstart : start <+: log)
    (hlog : Sound lib allowedPrivateHosts definition log)
    (hheld : ∀ k sending addresses, stand = .connecting k sending addresses →
      Held lib allowedPrivateHosts definition w log sending addresses) :
    Sound lib allowedPrivateHosts definition (log ++ contacts) ∧
      (∀ contact ∈ contacts, ∀ caller, contact.validator = some caller → caller.worker? = some w) ∧
      ∀ k sending addresses, Running.point next.worker = some (.connecting k sending addresses) →
        Held lib allowedPrivateHosts definition w (log ++ contacts) sending addresses := by
  have hinner : ∀ (onward : Next κ) k (sending : Sending ι) addresses,
      Running.point (onward.map .inner : Next (Stand κ ι)).worker ≠ some (.connecting k sending addresses) := by
    intro onward k sending addresses hpoint
    cases onward <;> cases hpoint
  have hadds : ∀ added, Adds lib allowedPrivateHosts w added → Sound lib allowedPrivateHosts definition (log ++ added) ∧
      ∀ contact ∈ added, ∀ caller, contact.validator = some caller → caller.worker? = some w := by
    rintro added (rfl | ⟨caller, url, destination, rfl, hcaller, haccepted⟩)
    · exact ⟨by simpa using hlog, by simp⟩
    · refine ⟨hlog.concat haccepted, ?_⟩
      intro contact hcontact other hother
      obtain rfl := List.mem_singleton.mp hcontact
      obtain rfl := Option.some.inj hother
      exact hcaller
  have hconnects : ∀ (sending : Sending ι) address, ∀ contact ∈
      [Contact.connected sending.caller sending.url address sending.request], contact.validator = none := by
    intro sending address contact hcontact
    rw [List.mem_singleton.mp hcontact]
    rfl
  cases h with
  | quiet stand onward =>
    obtain ⟨hsound, hmine⟩ := hadds [] (.inl rfl)
    exact ⟨hsound, hmine, fun k sending addresses hpoint => absurd hpoint (hinner _ _ _ _)⟩
  | settle hattempt onward =>
    obtain ⟨hsound, hmine⟩ := hadds _ (hcareful.settled _ _ _ _ _ hattempt)
    exact ⟨hsound, hmine, fun k sending addresses hpoint => absurd hpoint (hinner _ _ _ _)⟩
  | send hattempt =>
    obtain ⟨hadded, hsending⟩ := hcareful.sending _ _ _ _ _ _ hattempt
    obtain ⟨hsound, hmine⟩ := hadds _ hadded
    refine ⟨hsound, hmine, ?_⟩
    rintro k sending addresses hpoint
    cases hpoint
    exact hsending log hstart
  | retry k sending address rest =>
    have hbefore := hheld k sending (address :: rest) rfl
    refine ⟨hlog.concat (hbefore.2 address List.mem_cons_self), ?_, ?_⟩
    · intro contact hcontact caller hcaller
      rw [hconnects sending address contact hcontact] at hcaller
      cases hcaller
    · rintro k' sending' addresses hpoint
      cases hpoint
      have hrest : Held lib allowedPrivateHosts definition w log sending rest :=
        ⟨hbefore.1, fun other hother => hbefore.2 other (List.mem_cons_of_mem _ hother)⟩
      apply hrest.later
      intro contact hcontact caller hcaller
      rw [hconnects sending address contact hcontact] at hcaller
      cases hcaller
  | conclude k sending address rest onward =>
    have hbefore := hheld k sending (address :: rest) rfl
    refine ⟨hlog.concat (hbefore.2 address List.mem_cons_self), ?_, ?_⟩
    · intro contact hcontact caller hcaller
      rw [hconnects sending address contact hcontact] at hcaller
      cases hcaller
    · exact fun k sending addresses hpoint => absurd hpoint (hinner _ _ _ _)

end Workers

namespace Running

variable {lib : Libraries} {allowedPrivateHosts : List String} {definition : LoadTestRecord} {γ κ ι δ : Type} {runId : UUID}
  {workers : Nat} {start : List Contact}

/-- A report leads back to where it was called, or to an exception. -/
theorem Moved.keeps_point {control : Control γ κ ι} {x y : Running γ κ} {crew : List (Worker κ)} {m : Move ι}
    {w : Worker κ} (h : Moved control runId x crew m w y) (hw : ∀ k, w ≠ .own k) :
    ∃ w', y.workers = some (crew.set m.worker w') ∧ y.shared = x.shared ∧ (point w' = point w ∨ point w' = none) := by
  cases h with
  | own h => exact absurd rfl (hw _)
  | count target answer k metrics h => exact ⟨_, rfl, rfl, .inl rfl⟩
  | respond item k service h =>
    refine ⟨_, rfl, rfl, ?_⟩
    split <;> simp [point, resumption]
  | close success k => exact ⟨_, rfl, rfl, .inl rfl⟩
  | poll k =>
    refine ⟨_, rfl, rfl, ?_⟩
    split <;> simp [point, resumption]
  | snap metrics k service h =>
    refine ⟨_, rfl, rfl, ?_⟩
    split <;> simp [point, resumption]
  | write k service h =>
    refine ⟨_, rfl, rfl, ?_⟩
    split <;> simp [point, resumption]

/-- The log is sound, and every worker in the loop holds addresses that are pinned. -/
structure Guarded (lib : Libraries) (allowedPrivateHosts : List String) (definition : LoadTestRecord) (start : List Contact)
    (x : Running (Traffic γ) (Stand κ ι)) : Prop where
  begun : start <+: x.shared.log
  sound : Sound lib allowedPrivateHosts definition x.shared.log
  held : ∀ i w k sending addresses, x.crew[i]? = some w → point w = some (.connecting k sending addresses) →
    Held lib allowedPrivateHosts definition i x.shared.log sending addresses

variable {attempt : Nat → κ → δ → Option (Attempt ι)} {inner : Control γ κ ι}
  {x y : Running (Traffic γ) (Stand κ ι)}

theorem Guarded.move (h : Guarded lib allowedPrivateHosts definition start x)
    (hcareful : Careful lib allowedPrivateHosts definition start attempt) {m : Move (PinnedChoice ι δ)}
    (hmove : x.move (pinnedControl inner attempt) runId m = some y) :
    Guarded lib allowedPrivateHosts definition start y := by
  obtain ⟨crew, w, hcrew, hw, hmoved⟩ := move_cases hmove
  have hx : x.crew = crew := by rw [Running.crew, hcrew, Option.getD_some]
  by_cases hown : ∃ k, w = .own k
  · obtain ⟨stand, rfl⟩ := hown
    cases hmoved with
    | @own _ shared next hstep =>
      obtain ⟨contacts, hlog, hadvance⟩ := pinnedControl_advances hstep
      obtain ⟨hsound, hmine, hnext⟩ := hadvance.sound hcareful h.begun h.sound fun k sending addresses hstand =>
        h.held m.worker (.own stand) k sending addresses (hx ▸ hw) (congrArg some hstand)
      refine ⟨?_, ?_, ?_⟩
      · exact hlog ▸ h.begun.trans (List.prefix_append _ _)
      · exact hlog ▸ hsound
      · intro i w' k sending addresses hw' hpoint
        have hset : (crew.set m.worker next.worker)[i]? = some w' := hw'
        show Held lib allowedPrivateHosts definition i shared.log sending addresses
        rw [hlog]
        by_cases hi : i = m.worker
        · subst hi
          rw [List.getElem?_set_self (List.getElem?_eq_some_iff.mp hw).1] at hset
          obtain rfl := Option.some.inj hset
          exact hnext k sending addresses hpoint
        · rw [List.getElem?_set_ne fun hsame => hi hsame.symm] at hset
          apply (h.held i w' k sending addresses (hx ▸ hset) hpoint).later
          intro contact hcontact caller hcaller
          exact ⟨m.worker, hmine contact hcontact caller hcaller, fun hsame => hi hsame.symm⟩
  · have hreport : ∀ k, w ≠ .own k := fun k hk => hown ⟨k, hk⟩
    obtain ⟨w', hworkers, hshared, hpoint⟩ := hmoved.keeps_point hreport
    refine ⟨hshared ▸ h.begun, hshared ▸ h.sound, ?_⟩
    intro i other k sending addresses hother hstands
    rw [hshared]
    rw [Running.crew, hworkers, Option.getD_some] at hother
    by_cases hi : i = m.worker
    · subst hi
      rw [List.getElem?_set_self (List.getElem?_eq_some_iff.mp hw).1] at hother
      obtain rfl := Option.some.inj hother
      rcases hpoint with hsame | hnone
      · exact h.held _ w k sending addresses (hx ▸ hw) (hsame ▸ hstands)
      · rw [hnone] at hstands
        cases hstands
    · rw [List.getElem?_set_ne fun hsame => hi hsame.symm] at hother
      exact h.held i other k sending addresses (hx ▸ hother) hstands

theorem Guarded.step (h : Guarded lib allowedPrivateHosts definition start x)
    (hcareful : Careful lib allowedPrivateHosts definition start attempt) {label : Label (PinnedChoice ι δ)}
    (hstep : x.step (pinnedControl inner attempt) runId workers label = some y) :
    Guarded lib allowedPrivateHosts definition start y := by
  cases step_cases hstep with
  | launch hworkers =>
    refine ⟨h.begun, h.sound, ?_⟩
    intro i w k sending addresses hw hpoint
    have hmem : w ∈ List.replicate workers (.own (pinnedControl inner attempt).start) := List.mem_of_getElem? hw
    obtain rfl := List.eq_of_mem_replicate hmem
    cases hpoint
  | worker m hmove => exact h.move hcareful hmove
  | service e hservice => exact ⟨h.begun, h.sound, h.held⟩

end Running

/-! ## The two kinds of workers -/

section Kinds

variable {lib : Libraries} {allowedPrivateHosts : List String} {definition : LoadTestRecord}

/-- What `attemptRequest` comes to. -/
theorem attemptRequest_cases {pins : List PinnedTarget} {w : Nat} {k : RequestControl} {draws : DynamicDraws}
    {attempted : Attempt RequestChoice} (h : attemptRequest lib definition pins w k draws = some attempted) :
    ∃ index, k = .request index ∧ ((∃ choice, attempted = .settled [] choice) ∨
      ∃ pinned rendered destination request sending,
        pins[index % definition.targets.length]? = some pinned ∧
        renderedDestination lib rendered pinned.destination = .ok destination ∧ GoesTo lib destination.parsed request ∧
        sending.caller = .request w index ∧ sending.url = rendered ∧ sending.request = request ∧
        attempted = .sending [] sending destination.addresses) := by
  cases k with
  | request index =>
    refine ⟨index, rfl, ?_⟩
    simp only [attemptRequest] at h
    split at h
    · obtain rfl := Option.some.inj h
      exact .inl ⟨_, rfl⟩
    · next pinned hpinned =>
      split at h
      · obtain rfl := Option.some.inj h
        exact .inl ⟨_, rfl⟩
      · obtain rfl := Option.some.inj h
        exact .inl ⟨_, rfl⟩
      · next rendered destination hattempted =>
        simp only [bind_eq_ok_iff] at hattempted
        obtain ⟨rendered', -, destination', hdestination, hpair⟩ := hattempted
        obtain ⟨rfl, rfl⟩ := Prod.mk.inj (Except.ok.inj hpair)
        split at h
        · obtain rfl := Option.some.inj h
          exact .inl ⟨_, rfl⟩
        · next request hrequest =>
          obtain rfl := Option.some.inj h
          exact .inr ⟨pinned, _, _, request, _, hpinned, hdestination, .of_buildRequest hrequest, rfl, rfl, rfl, rfl⟩
  | _ => cases h

/-- A request connects where its target was validated, or not at all. -/
theorem attemptRequest_careful {pins : List PinnedTarget} {start : List Contact}
    (hmode : definition.trafficMode = .requests) (hstart : ValidatedFirst pins start) :
    Careful lib allowedPrivateHosts definition start (attemptRequest lib definition pins) where
  settled w k draws contacts choice h := by
    obtain ⟨index, rfl, ⟨other, hsettled⟩ | ⟨_, _, _, _, _, -, -, -, -, -, -, hsending⟩⟩ := attemptRequest_cases h
    · obtain ⟨rfl, -⟩ := Attempt.settled.inj hsettled
      exact .inl rfl
    · cases hsending
  sending w k draws contacts sending addresses h := by
    obtain ⟨index, rfl, ⟨other, hsettled⟩ | ⟨pinned, rendered, destination, request, sent, hpinned, hdestination, hgoes,
      hcaller, hurl, hrequest, hsending⟩⟩ := attemptRequest_cases h
    · cases hsettled
    obtain ⟨rfl, rfl, rfl⟩ := Attempt.sending.inj hsending
    refine ⟨.inl rfl, ?_⟩
    rintro log ⟨later, rfl⟩
    obtain ⟨hsplit, haddresses, point, hvalidated, hsame⟩ := renderedDestination_pins hdestination
    obtain ⟨url, hfirst⟩ := hstart _ pinned hpinned
    refine ⟨by rw [hcaller]; rfl, ?_⟩
    intro address haddress
    rw [hcaller, hurl, hrequest, List.append_nil]
    refine ⟨hmode, url, pinned.destination, destination.parsed, point, ?_, haddresses ▸ haddress, hsplit, hvalidated,
      hsame, hgoes⟩
    rw [List.getElem?_append_left (List.getElem?_eq_some_iff.mp hfirst).1, hfirst]

/-- What `attemptStep` comes to. -/
theorem attemptStep_cases {config : Option LoginConfiguration} {token : Option String} {w : Nat} {k : ScenarioControl}
    {draws : ScenarioDraws} {attempted : Attempt (ScenarioChoice (Except Raised (Answer × Dict String Json)))}
    (h : attemptStep lib allowedPrivateHosts definition config token w k draws = some attempted) :
    (∃ choice, attempted = .settled [] choice) ∨
      ∃ scenario i url destination, validateDestination lib allowedPrivateHosts draws.resolver url = some destination ∧
        ((∃ choice, attempted = .settled [.validated (.scenario w scenario i) url destination] choice) ∨
          ∃ sending, sending.caller = .scenario w scenario i ∧ sending.url = .str url ∧
            GoesTo lib destination.parsed sending.request ∧
            attempted = .sending [.validated (.scenario w scenario i) url destination] sending destination.addresses) := by
  cases k with
  | request scenario i vars success =>
    obtain ⟨target, -, h⟩ := Option.bind_eq_some_iff.mp h
    dsimp only at h
    split at h
    · obtain rfl := Option.some.inj h
      exact .inl ⟨_, rfl⟩
    · next method prepared destination hattempted =>
      refine .inr ⟨scenario, i, prepared.url, destination, validateStep_ok hattempted, ?_⟩
      split at h
      · obtain rfl := Option.some.inj h
        exact .inl ⟨_, rfl⟩
      · next request hrequest =>
        obtain rfl := Option.some.inj h
        exact .inr ⟨_, rfl, rfl, .of_buildRequest hrequest, rfl⟩
  | _ => cases h

/-- A step of a scenario connects where the worker has just validated. -/
theorem attemptStep_careful {config : Option LoginConfiguration} {token : Option String} {start : List Contact}
    (hmode : definition.trafficMode = .scenario) :
    Careful lib allowedPrivateHosts definition start
      (attemptStep lib allowedPrivateHosts definition config token) where
  settled w k draws contacts choice h := by
    rcases attemptStep_cases h with ⟨_, hsettled⟩ | ⟨scenario, i, url, destination, haccepted, ⟨_, hsettled⟩ |
      ⟨_, -, -, -, hsending⟩⟩
    · obtain ⟨rfl, -⟩ := Attempt.settled.inj hsettled
      exact .inl rfl
    · obtain ⟨rfl, -⟩ := Attempt.settled.inj hsettled
      exact .inr ⟨_, url, destination, rfl, rfl, _, haccepted⟩
    · cases hsending
  sending w k draws contacts sending addresses h := by
    rcases attemptStep_cases h with ⟨_, hsettled⟩ | ⟨scenario, i, url, destination, haccepted, ⟨_, hsettled⟩ |
      ⟨sent, hcaller, hurl, hgoes, hsending⟩⟩
    · cases hsettled
    · cases hsettled
    obtain ⟨rfl, rfl, rfl⟩ := Attempt.sending.inj hsending
    refine ⟨.inr ⟨_, url, destination, rfl, rfl, _, haccepted⟩, ?_⟩
    intro log _
    refine ⟨by rw [hcaller]; rfl, ?_⟩
    intro address haddress
    rw [hcaller, hurl]
    exact ⟨hmode, url, destination, rfl, lastValidation_concat (by simp [Caller.worker?]) url destination, haddress, hgoes⟩

end Kinds

/-! ## Whole runs -/

section Runs

variable (lib : Libraries) (allowedPrivateHosts : List String) (definition : LoadTestRecord)
  (config : Option LoginConfiguration)

/-- The logs of the runs of a definition: the start, which may raise, and then any steps of the workers, of
`_execute` and of `cancel_run`. -/
inductive Sent : List Contact → Prop
  | startRequests (hmode : definition.trafficMode = .requests) (draws : StartDraws) :
      Sent ((startRequests lib allowedPrivateHosts definition config draws).on []).2
  | requests (hmode : definition.trafficMode = .requests) (draws : StartDraws) (pins : List PinnedTarget)
      (runId : UUID) (workers : Nat) (labels : List (Label (PinnedChoice RequestChoice DynamicDraws)))
      (x y : Running (Traffic RequestShared) (Stand RequestControl RequestChoice)) (hworkers : x.workers = none)
      (hstart : (Load.startRequests lib allowedPrivateHosts definition config draws).on [] = (.ok pins, x.shared.log))
      (hrun : runSteps (Running.step
        (pinnedControl (requestControl definition) (attemptRequest lib definition pins)) runId workers) x labels = some y) :
      Sent y.shared.log
  | startScenarios (hmode : definition.trafficMode = .scenario) (draws : StartDraws) :
      Sent ((authenticationToken lib allowedPrivateHosts config draws).on []).2
  | scenarios (hmode : definition.trafficMode = .scenario) (draws : StartDraws) (token : Option String)
      (runId : UUID) (workers : Nat)
      (labels : List (Label (PinnedChoice (ScenarioChoice (Except Raised (Answer × Dict String Json))) ScenarioDraws)))
      (x y : Running (Traffic ScenarioShared)
        (Stand ScenarioControl (ScenarioChoice (Except Raised (Answer × Dict String Json)))))
      (hworkers : x.workers = none)
      (hstart : (authenticationToken lib allowedPrivateHosts config draws).on [] = (.ok token, x.shared.log))
      (hrun : runSteps (Running.step (pinnedControl (scenarioControl definition fun _ _ _ result => result)
        (attemptStep lib allowedPrivateHosts definition config token)) runId workers) x labels = some y) :
      Sent y.shared.log

variable {lib allowedPrivateHosts definition config}

/-- A run keeps the log sound that the start has left. -/
theorem Running.sound_of_run {γ κ ι δ : Type} {inner : Control γ κ ι} {attempt : Nat → κ → δ → Option (Attempt ι)}
    {runId : UUID} {workers : Nat} {labels : List (Label (PinnedChoice ι δ))} {x y : Running (Traffic γ) (Stand κ ι)}
    (hcareful : Careful lib allowedPrivateHosts definition x.shared.log attempt)
    (hworkers : x.workers = none) (hsound : Sound lib allowedPrivateHosts definition x.shared.log)
    (hrun : runSteps (Running.step (pinnedControl inner attempt) runId workers) x labels = some y) :
    Sound lib allowedPrivateHosts definition y.shared.log := by
  have hx : Running.Guarded lib allowedPrivateHosts definition x.shared.log x := by
    refine ⟨List.prefix_rfl, hsound, ?_⟩
    intro i w k sending addresses hw
    rw [Running.crew, hworkers] at hw
    cases hw
  exact (runSteps_keeps (fun s label s' hs hstep => hs.step hcareful hstep) hx hrun).sound

/-- Every connection of a run goes to an address that has passed the validation of its target: at the start of the
run and at the same scheme, host and port where the run sends requests, just before where it runs scenarios. -/
theorem load_traffic_pinned {log : List Contact} (h : Sent lib allowedPrivateHosts definition config log) :
    ∀ n contact, log[n]? = some contact → Pinned lib allowedPrivateHosts definition (log.take n) contact := by
  show Sound lib allowedPrivateHosts definition log
  cases h with
  | startRequests hmode draws => exact (keeps_startRequests config draws [] sound_nil).2
  | requests hmode draws pins runId workers labels x y hworkers hstart hrun =>
    have hsound : Sound lib allowedPrivateHosts definition x.shared.log := by
      have hkept : Sound lib allowedPrivateHosts definition
          ((startRequests lib allowedPrivateHosts definition config draws).on []).2 :=
        (keeps_startRequests config draws [] sound_nil).2
      rwa [hstart] at hkept
    exact Running.sound_of_run (attemptRequest_careful hmode (startRequests_validates hstart)) hworkers hsound hrun
  | startScenarios hmode draws => exact (keeps_authenticationToken config draws [] sound_nil).2
  | scenarios hmode draws token runId workers labels x y hworkers hstart hrun =>
    have hsound : Sound lib allowedPrivateHosts definition x.shared.log := by
      have hkept : Sound lib allowedPrivateHosts definition
          ((authenticationToken lib allowedPrivateHosts config draws).on []).2 :=
        (keeps_authenticationToken config draws [] sound_nil).2
      rwa [hstart] at hkept
    exact Running.sound_of_run (attemptStep_careful hmode) hworkers hsound hrun

end Runs

/-- The libraries on the URL and the address below. -/
def pingLibraries : Libraries where
  split text := if text = "http://example.com/ping" then
      some ⟨"http", "example.com", "/ping", "", some "example.com", none, none, some none⟩
    else none
  join _ text := some text
  ipAddress text := if text = "93.184.216.34" then some ⟨.ofOctets 93 184 216 34, none⟩ else none
  lower := String.toLower
  urlencode _ := ""
  index _ := none
  floatText _ := []

/-- `example.com` has one address. -/
def pingResolver : Resolver := fun hostname => if hostname = "example.com" then some ["93.184.216.34"] else none

def pingStart : StartDraws := ⟨fun _ => pingResolver, pingResolver, []⟩

/-- A worker takes a request, renders it and connects. -/
def pingTraffic : List (Label (PinnedChoice RequestChoice DynamicDraws)) :=
  [.main (.getRun false), .launch] ++ List.replicate 4
    (.worker ⟨0, ⟨⟨false, .error .exception⟩, ⟨"", 0, 0, fun _ _ => 0⟩, .responded Running.pongReply⟩, false⟩)

def isConnection : Option Contact → Bool
  | some (.connected (.request 0 0) _ _ _) => true
  | _ => false

/-- The second contact of the run after a start that has gone well. -/
def pingConnects : Except StepError (List PinnedTarget) × List Contact → Bool
  | (.ok pins, start) =>
    (runSteps (Running.step (pinnedControl (requestControl Execution.pingTest)
        (attemptRequest pingLibraries Execution.pingTest pins)) ⟨"r"⟩ 1)
      (Running.submitted Execution.pingRepo ⟨⟨0, [], []⟩, start⟩ Execution.pingTest) pingTraffic).any
        fun y => isConnection y.shared.log[1]?
  | (.error _, _) => false

theorem ping_traffic_pinned : ∃ log contact, Sent pingLibraries [] Execution.pingTest none log ∧
    log[1]? = some contact ∧ isConnection (some contact) = true ∧
    Pinned pingLibraries [] Execution.pingTest (log.take 1) contact := by
  have hconnects : pingConnects ((startRequests pingLibraries [] Execution.pingTest none pingStart).on []) = true := by
    decide +kernel
  rcases hstart : (startRequests pingLibraries [] Execution.pingTest none pingStart).on [] with ⟨_ | pins, start⟩
  · rw [hstart] at hconnects
    cases hconnects
  rw [hstart] at hconnects
  obtain ⟨y, hrun, hy⟩ := (Option.any_eq_true _ _).mp hconnects
  have hsent : Sent pingLibraries [] Execution.pingTest none y.shared.log :=
    .requests rfl pingStart pins ⟨"r"⟩ 1 pingTraffic _ y rfl hstart hrun
  cases hcontact : y.shared.log[1]? with
  | none =>
    rw [hcontact] at hy
    cases hy
  | some contact =>
    rw [hcontact] at hy
    exact ⟨_, contact, hsent, hcontact, hy, load_traffic_pinned hsent 1 contact hcontact⟩

end SmartTest.Load
