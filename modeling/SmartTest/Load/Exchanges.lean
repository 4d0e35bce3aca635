import SmartTest.Load.Pinned
import SmartTest.Load.Scenarios

/-!
# What is sent for an index

The workers with their requests on the network take the same steps as those that know no
network, and a few of their own. In `COUNT` mode each index goes through `_request_pinned`
once at most, which may connect to several addresses or, where nothing can be rendered, to
none.
-/

open SmartTest.Lib SmartTest.Run

namespace SmartTest.Load

/-! ## Without the network -/

section Plain

variable {γ κ ι δ : Type}

/-- Where the worker stands, leaving out the addresses. -/
def Stand.here : Stand κ ι → κ
  | .inner k => k
  | .connecting k _ _ => k

def Worker.map {κ' : Type} (f : κ → κ') : Worker κ → Worker κ'
  | .own k => .own (f k)
  | .counting target answer k => .counting target answer (f k)
  | .responding item k => .responding item (f k)
  | .closing success k => .closing success (f k)
  | .polling k => .polling (f k)
  | .snapping metrics k => .snapping metrics (f k)
  | .writing k => .writing (f k)
  | .returned => .returned
  | .escaped e => .escaped e

@[simp] theorem Worker.map_own {κ' : Type} (f : κ → κ') (k : κ) : (Worker.own k).map f = .own (f k) := rfl

theorem Next.worker_map {κ' : Type} (f : κ → κ') (next : Next κ) : (next.map f).worker = next.worker.map f := by
  cases next <;> rfl

theorem Worker.map_here (w : Worker κ) : (w.map .inner : Worker (Stand κ ι)).map Stand.here = w := by
  cases w <;> rfl

theorem Worker.map_eq_returned {κ' : Type} {f : κ → κ'} {w : Worker κ} : w.map f = .returned ↔ w = .returned := by
  cases w <;> simp [Worker.map]

theorem Worker.map_eq_escaped {κ' : Type} {f : κ → κ'} {w : Worker κ} {e : Raised} :
    w.map f = .escaped e ↔ w = .escaped e := by
  cases w <;> simp [Worker.map]

namespace Running

/-- The run as the control sees it that knows no network. -/
def plain (x : Running (Traffic γ) (Stand κ ι)) : Running γ κ where
  service := x.service
  shared := x.shared.shared
  metrics := x.metrics
  workers := x.workers.map (List.map (Worker.map Stand.here))
  recorded := x.recorded

theorem point_map {κ' : Type} (f : κ → κ') (w : Worker κ) : point (w.map f) = (point w).map f := by
  cases w <;> rfl

theorem contained_plain {x : Running (Traffic γ) (Stand κ ι)} : Contained x.plain ↔ Contained x := by
  unfold Contained plain
  cases x.workers with
  | none => simp
  | some crew => simp [Worker.map_eq_escaped]

theorem finished_plain {x : Running (Traffic γ) (Stand κ ι)} : Finished x.plain ↔ Finished x := by
  unfold Finished plain
  cases x.workers with
  | none => simp
  | some crew => simp [Worker.map_eq_returned]

/-- A worker that only goes on to the next address stays where it was. -/
theorem plain_stays {x y : Running (Traffic γ) (Stand κ ι)} {crew : List (Worker (Stand κ ι))} {i : Nat}
    {stand stand' : Stand κ ι} (hcrew : x.workers = some crew) (hi : crew[i]? = some (.own stand)) {log : List Contact}
    (hy : y = { x.put crew i (.own stand') with shared := ⟨x.shared.shared, log⟩ }) (hhere : stand'.here = stand.here) :
    y.plain = x.plain := by
  subst hy
  obtain ⟨hlt, hget⟩ := List.getElem?_eq_some_iff.mp hi
  have hset : crew.set i (.own stand) = crew := by rw [← hget, List.set_getElem_self]
  have hmap : (crew.set i (.own stand')).map (Worker.map Stand.here) = crew.map (Worker.map Stand.here) := by
    rw [← hset, List.set_set, List.map_set, List.map_set, Worker.map_own, Worker.map_own, hhere]
  simp only [plain, put, hcrew, Option.map_some, hmap]

/-- A report is the same with and without the network. -/
theorem Moved.plain {inner : Control γ κ ι} {control : Control (Traffic γ) (Stand κ ι) (PinnedChoice ι δ)} {runId : UUID}
    {x y : Running (Traffic γ) (Stand κ ι)} {crew : List (Worker (Stand κ ι))} {m : Move (PinnedChoice ι δ)}
    {w : Worker (Stand κ ι)} (h : Moved control runId x crew m w y) (hcrew : x.workers = some crew)
    (hw : crew[m.worker]? = some w) (hown : ∀ stand, w ≠ .own stand) :
    x.plain.move inner runId ⟨m.worker, m.choice.choice, m.due⟩ = some y.plain := by
  cases h with
  | own h => exact absurd rfl (hown _)
  | count target answer k metrics h =>
    subst h
    simp [move, moveAt, Running.plain, put, hcrew, hw, List.map_set, Worker.map]
  | respond item k service h =>
    simp only [move, moveAt, Running.plain, put, hcrew, hw, List.map_set, Worker.map, h, Option.map_some,
      Option.bind_eq_bind, Option.bind_some, List.getElem?_map]
    split <;> rfl
  | close success k => simp [move, moveAt, Running.plain, put, hcrew, hw, List.map_set, Worker.map]
  | poll k =>
    simp only [move, moveAt, Running.plain, put, hcrew, hw, List.map_set, Worker.map, Option.map_some,
      Option.bind_eq_bind, Option.bind_some, List.getElem?_map]
    split <;> rfl
  | snap metrics k service h =>
    simp only [move, moveAt, Running.plain, put, hcrew, hw, List.map_set, Worker.map, h, Option.map_some,
      Option.bind_eq_bind, Option.bind_some, List.getElem?_map]
    split <;> rfl
  | write k service h =>
    simp only [move, moveAt, Running.plain, put, hcrew, hw, List.map_set, Worker.map, h, Option.map_some,
      Option.bind_eq_bind, Option.bind_some, List.getElem?_map]
    split <;> rfl

/-- A step of the control is taken without the network as well. -/
theorem plain_moves {inner : Control γ κ ι} {runId : UUID} {x y : Running (Traffic γ) (Stand κ ι)}
    {crew : List (Worker (Stand κ ι))} {i : Nat} {stand : Stand κ ι} {choice : ι} {due : Bool} {shared : γ}
    {log : List Contact} {onward : Next κ} (hcrew : x.workers = some crew) (hi : crew[i]? = some (.own stand))
    (hstep : inner.step i x.service.cancelled x.shared.shared stand.here choice = some (shared, onward))
    (hy : y = { x.put crew i (onward.map .inner : Next (Stand κ ι)).worker with shared := ⟨shared, log⟩ }) :
    x.plain.move inner runId ⟨i, choice, due⟩ = some y.plain := by
  subst hy
  have hworker : (onward.map .inner : Next (Stand κ ι)).worker.map Stand.here = onward.worker := by
    rw [Next.worker_map, Worker.map_here]
  simp [move, moveAt, plain, put, hcrew, hi, hstep, List.map_set, hworker]

/-- A move with the network is one without it, or none. -/
theorem move_plain {inner : Control γ κ ι} {attempt : Nat → κ → δ → Option (Attempt ι)} {runId : UUID}
    {x y : Running (Traffic γ) (Stand κ ι)} {m : Move (PinnedChoice ι δ)}
    (hmove : x.move (pinnedControl inner attempt) runId m = some y) :
    y.plain = x.plain ∨ ∃ m', x.plain.move inner runId m' = some y.plain := by
  obtain ⟨crew, w, hcrew, hw, hmoved⟩ := move_cases hmove
  by_cases hown : ∃ stand, w = .own stand
  · obtain ⟨stand, rfl⟩ := hown
    cases hmoved with
    | @own _ shared next hstep =>
      cases pinnedControl_cases hstep with
      | plain hattempt hinner => exact .inr ⟨⟨m.worker, _, m.due⟩, plain_moves hcrew hw hinner rfl⟩
      | settle hattempt hinner => exact .inr ⟨⟨m.worker, _, m.due⟩, plain_moves hcrew hw hinner rfl⟩
      | send hattempt => exact .inl (plain_stays hcrew hw rfl rfl)
      | exhaust hinner => exact .inr ⟨⟨m.worker, _, m.due⟩, plain_moves hcrew hw hinner rfl⟩
      | retry houtcome => exact .inl (plain_stays hcrew hw rfl rfl)
      | conclude houtcome hinner => exact .inr ⟨⟨m.worker, _, m.due⟩, plain_moves hcrew hw hinner rfl⟩
  · exact .inr ⟨_, hmoved.plain hcrew hw fun stand hstand => hown ⟨stand, hstand⟩⟩

theorem onService_plain {runId : UUID} {x y : Running (Traffic γ) (Stand κ ι)} {e : Event}
    (h : x.onService runId e = some y) : x.plain.onService runId e = some y.plain := by
  obtain ⟨service, hservice, rfl⟩ := Option.map_eq_some_iff.mp h
  simp only [onService, plain, hservice, Option.map_some]

theorem ended_map {κ' : Type} (f : κ → κ') (w : Worker κ) : ended (w.map f) = ended w := by
  cases w <;> rfl

theorem outcome_plain (x : Running (Traffic γ) (Stand κ ι)) (crew : List (Worker (Stand κ ι))) :
    x.plain.outcome (crew.map (Worker.map Stand.here)) = x.outcome crew := by
  unfold outcome
  rw [List.findSome?_map]
  congr 2
  funext w
  cases w <;> rfl

/-- So is a step of the whole. -/
theorem step_plain {inner : Control γ κ ι} {attempt : Nat → κ → δ → Option (Attempt ι)} {runId : UUID} {workers : Nat}
    {x y : Running (Traffic γ) (Stand κ ι)} {label : Label (PinnedChoice ι δ)}
    (hstep : x.step (pinnedControl inner attempt) runId workers label = some y) :
    y.plain = x.plain ∨ ∃ label', x.plain.step inner runId workers label' = some y.plain := by
  cases label with
  | launch =>
    refine .inr ⟨.launch, ?_⟩
    simp only [Running.step] at hstep
    split at hstep
    · next hstage hworkers =>
      obtain rfl := Option.some.inj hstep
      simp [Running.step, plain, hstage, hworkers, pinnedControl, Stand.here]
    · cases hstep
  | worker m =>
    rcases move_plain hstep with hstays | ⟨m', hmove⟩
    · exact .inl hstays
    · exact .inr ⟨.worker m', hmove⟩
  | fail e =>
    refine .inr ⟨.fail e, ?_⟩
    simp only [Running.step] at hstep ⊢
    split at hstep
    · next hnone =>
      rw [if_pos (by simpa [plain] using hnone)]
      exact onService_plain hstep
    · cases hstep
  | join =>
    refine .inr ⟨.join, ?_⟩
    simp only [Running.step, Option.bind_eq_bind, Option.bind_eq_some_iff] at hstep ⊢
    obtain ⟨crew, hcrew, hstep⟩ := hstep
    refine ⟨crew.map (Worker.map Stand.here), by simp only [plain, hcrew, Option.map_some], ?_⟩
    split at hstep
    · next hended =>
      rw [if_pos (by simpa [ended_map] using hended), outcome_plain]
      exact onService_plain hstep
    · cases hstep
  | main e =>
    refine .inr ⟨.main e, ?_⟩
    simp only [Running.step] at hstep ⊢
    split at hstep
    · next hown =>
      rw [if_pos hown]
      exact onService_plain hstep
    · cases hstep

/-- A run with the network is, but for it, a run of the control that knows none. -/
theorem plain_of_run {inner : Control γ κ ι} {attempt : Nat → κ → δ → Option (Attempt ι)} {runId : UUID} {workers : Nat}
    {x y : Running (Traffic γ) (Stand κ ι)} {labels : List (Label (PinnedChoice ι δ))}
    (hrun : runSteps (Running.step (pinnedControl inner attempt) runId workers) x labels = some y) :
    ∃ labels', runSteps (Running.step inner runId workers) x.plain labels' = some y.plain :=
  runSteps_simulates (fun _ _ _ => step_plain) hrun

end Running

end Plain


/-! ## What is sent -/

/-- A connection with what came of it. -/
structure Exchange where
  contact : Contact
  outcome : Outcome

/-- The index a connection is for. -/
def Contact.index? : Contact → Option Nat
  | .connected (.request _ index) _ _ _ => some index
  | _ => none

def exchangesOf (index : Nat) (exchanges : List Exchange) : List Exchange :=
  exchanges.filter (·.contact.index? = some index)

/-- What a worker connects to where it moves next. -/
def Worker.connects {κ ι : Type} (outcome : Outcome) : Worker (Stand κ ι) → List Exchange
  | .own (.connecting _ sending (address :: _)) =>
    [⟨.connected sending.caller sending.url address sending.request, outcome⟩]
  | _ => []

/-- A run with all it has connected to. -/
structure Watched (γ κ ι : Type) where
  running : Running (Traffic γ) (Stand κ ι)
  exchanges : List Exchange

namespace Watched

variable {γ κ ι δ : Type}

def launched (control : Control (Traffic γ) (Stand κ ι) (PinnedChoice ι δ)) (service : Execution) (traffic : Traffic γ)
    (definition : LoadTestRecord) (workers : Nat) : Watched γ κ ι :=
  ⟨Running.launched control service traffic definition workers, []⟩

/-- What a move connects to. -/
def exchange (z : Watched γ κ ι) (m : Move (PinnedChoice ι δ)) : List Exchange :=
  ((z.running.workers.getD [])[m.worker]?).elim [] (·.connects m.choice.outcome)

def move (control : Control (Traffic γ) (Stand κ ι) (PinnedChoice ι δ)) (runId : UUID) (z : Watched γ κ ι)
    (m : Move (PinnedChoice ι δ)) : Option (Watched γ κ ι) :=
  (z.running.move control runId m).map fun running => ⟨running, z.exchanges ++ z.exchange m⟩

theorem running_of_run {control : Control (Traffic γ) (Stand κ ι) (PinnedChoice ι δ)} {runId : UUID} {z z' : Watched γ κ ι}
    {moves : List (Move (PinnedChoice ι δ))} (hrun : runSteps (move control runId) z moves = some z') :
    runSteps (Running.move control runId) z.running moves = some z'.running := by
  apply runSteps_map (f := running) _ hrun
  intro s m s' hmove
  obtain ⟨y, hy, rfl⟩ := Option.map_eq_some_iff.mp hmove
  exact hy

end Watched

/-- `_request_pinned` after addresses that were all unavailable. -/
theorem requestPinned_refused (caller : Caller) (url : Json) (request : Request) (refused rest : List Address)
    (outcomes : List Outcome) :
    (requestPinned caller url request (refused ++ rest) (refused.map (fun _ => .unavailable) ++ outcomes)).1 =
      refused.map (fun address => .connected caller url address request) ++
        (requestPinned caller url request rest outcomes).1 := by
  induction refused with
  | nil => rfl
  | cons address refused ih => simpa [requestPinned] using ih

/-- It stops at an address that answers, or fails for good. -/
theorem requestPinned_concluded {outcome : Outcome} (h : outcome ≠ .unavailable) (caller : Caller) (url : Json)
    (request : Request) (address : Address) (rest : List Address) :
    (requestPinned caller url request (address :: rest) [outcome]).1 = [.connected caller url address request] := by
  unfold requestPinned
  rw [List.headD_cons]
  split
  · exact absurd rfl h
  · rfl

/-- What the attempt at an index has done on the network: nothing where it was settled before, and else what
`_request_pinned` does at the addresses of its target, with what came of them. -/
inductive Attempted (lib : Libraries) (definition : LoadTestRecord) (pins : List PinnedTarget) (w index : Nat) :
    List Exchange → Prop
  | settled {draws : DynamicDraws} {choice : RequestChoice}
      (hattempt : attemptRequest lib definition pins w (.request index) draws = some (.settled [] choice)) :
      Attempted lib definition pins w index []
  | sent {draws : DynamicDraws} {pinned : PinnedTarget} {sending : Sending RequestChoice} {exchanges : List Exchange}
      (htarget : pins[index % definition.targets.length]? = some pinned)
      (hattempt : attemptRequest lib definition pins w (.request index) draws =
        some (.sending [] sending pinned.destination.addresses))
      (hexchanges : exchanges.map Exchange.contact =
        (requestPinned sending.caller sending.url sending.request pinned.destination.addresses
          (exchanges.map Exchange.outcome)).1) :
      Attempted lib definition pins w index exchanges

/-- What has been sent for the index that a worker has in hand. -/
def SentFor (lib : Libraries) (definition : LoadTestRecord) (pins : List PinnedTarget) (claims : List (Nat × Nat))
    (exchanges : List Exchange) (w : Nat) : Stand RequestControl RequestChoice → Prop
  | .inner (.request index) => (w, index) ∈ claims ∧ exchangesOf index exchanges = []
  | .inner _ => True
  | .connecting k sending rest => ∃ index draws pinned refused, k = .request index ∧ (w, index) ∈ claims ∧
      pins[index % definition.targets.length]? = some pinned ∧ pinned.destination.addresses = refused ++ rest ∧
      attemptRequest lib definition pins w (.request index) draws =
        some (.sending [] sending pinned.destination.addresses) ∧
      exchangesOf index exchanges = refused.map fun address =>
        ⟨.connected sending.caller sending.url address sending.request, .unavailable⟩

section Requests

variable {lib : Libraries} {definition : LoadTestRecord} {pins : List PinnedTarget}

theorem exchangesOf_append {index : Nat} {exchanges added : List Exchange}
    (h : ∀ e ∈ added, e.contact.index? ≠ some index) :
    exchangesOf index (exchanges ++ added) = exchangesOf index exchanges := by
  have hnone : exchangesOf index added = [] := by simpa [exchangesOf] using h
  rw [exchangesOf, List.filter_append, ← exchangesOf, ← exchangesOf, hnone, List.append_nil]

theorem exchangesOf_concat {index : Nat} {exchanges : List Exchange} {e : Exchange} (h : e.contact.index? = some index) :
    exchangesOf index (exchanges ++ [e]) = exchangesOf index exchanges ++ [e] := by
  simp [exchangesOf, h]

/-- Only what is sent for its own index matters to a worker. -/
theorem SentFor.congr {claims claims' : List (Nat × Nat)} {exchanges exchanges' : List Exchange} {w : Nat}
    {stand : Stand RequestControl RequestChoice} (h : SentFor lib definition pins claims exchanges w stand)
    (hclaims : claims ⊆ claims')
    (hsame : ∀ index, stand.here = .request index → exchangesOf index exchanges' = exchangesOf index exchanges) :
    SentFor lib definition pins claims' exchanges' w stand := by
  cases stand with
  | inner k =>
    cases k with
    | request index => exact ⟨hclaims h.1, (hsame index rfl).trans h.2⟩
    | _ => trivial
  | connecting k sending rest =>
    obtain ⟨index, draws, pinned, refused, rfl, hclaim, hpinned, haddresses, hattempt, hexchanges⟩ := h
    exact ⟨index, draws, pinned, refused, rfl, hclaims hclaim, hpinned, haddresses, hattempt,
      (hsame index rfl).trans hexchanges⟩

/-- What an attempt leads to is sent by the worker that holds the index, to the addresses of its target. -/
theorem attemptRequest_sending {w : Nat} {k : RequestControl} {draws : DynamicDraws} {contacts : List Contact}
    {sending : Sending RequestChoice} {addresses : List Address}
    (h : attemptRequest lib definition pins w k draws = some (.sending contacts sending addresses)) :
    ∃ index pinned, k = .request index ∧ contacts = [] ∧ pins[index % definition.targets.length]? = some pinned ∧
      addresses = pinned.destination.addresses ∧ sending.caller = .request w index := by
  obtain ⟨index, rfl, ⟨_, hsettled⟩ | ⟨pinned, rendered, destination, request, sent, hpinned, hdestination, -, hcaller, -,
    -, hsending⟩⟩ := attemptRequest_cases h
  · cases hsettled
  · obtain ⟨rfl, rfl, rfl⟩ := Attempt.sending.inj hsending
    exact ⟨index, pinned, rfl, rfl, hpinned, (renderedDestination_pins hdestination).2.1, hcaller⟩

/-- So what it connects to is for that index. -/
theorem attemptRequest_index {w index : Nat} {draws : DynamicDraws} {contacts : List Contact}
    {sending : Sending RequestChoice} {addresses : List Address}
    (h : attemptRequest lib definition pins w (.request index) draws = some (.sending contacts sending addresses))
    (address : Address) :
    (Contact.connected sending.caller sending.url address sending.request).index? = some index := by
  obtain ⟨_, _, hindex, -, -, -, hcaller⟩ := attemptRequest_sending h
  obtain rfl := RequestControl.request.inj hindex
  rw [hcaller]
  rfl

theorem attemptRequest_settled {w : Nat} {k : RequestControl} {draws : DynamicDraws} {contacts : List Contact}
    {choice : RequestChoice} (h : attemptRequest lib definition pins w k draws = some (.settled contacts choice)) :
    ∃ index, k = .request index ∧ contacts = [] := by
  obtain ⟨index, rfl, ⟨_, hsettled⟩ | ⟨_, _, _, _, _, -, -, -, -, -, -, hsending⟩⟩ := attemptRequest_cases h
  · exact ⟨index, rfl, (Attempt.settled.inj hsettled).1⟩
  · cases hsending

theorem attemptRequest_none {w : Nat} {k : RequestControl} {draws : DynamicDraws}
    (h : attemptRequest lib definition pins w k draws = none) (index : Nat) : k ≠ .request index := by
  rintro rfl
  simp only [attemptRequest] at h
  split at h
  · cases h
  · split at h
    · cases h
    · cases h
    · split at h <;> cases h

/-- An attempt that is over. -/
theorem requestControl_request {w : Nat} {cancelled : Bool} {shared shared' : RequestShared} {index : Nat}
    {choice : RequestChoice} {next : Next RequestControl}
    (h : (requestControl definition).step w cancelled shared (.request index) choice = some (shared', next))
    (hescape : ∀ e, next ≠ .escape e) :
    shared' = { shared with attempted := shared.attempted ++ [(index, (definition.targetAt index).name)] } ∧
      ∃ answer, next = .report (definition.targetAt index).name answer .recheck := by
  simp only [requestControl] at h
  split at h
  · obtain ⟨rfl, rfl⟩ := Prod.mk.inj (Option.some.inj h)
    exact absurd rfl (hescape _)
  · obtain ⟨rfl, rfl⟩ := Prod.mk.inj (Option.some.inj h)
    exact ⟨rfl, _, rfl⟩

/-- Any other step: an index is claimed, or nothing changes. -/
theorem requestControl_aside {w : Nat} {cancelled : Bool} {shared shared' : RequestShared} {k : RequestControl}
    {choice : RequestChoice} {next : Next RequestControl} (hk : ∀ index, k ≠ .request index)
    (h : (requestControl definition).step w cancelled shared k choice = some (shared', next)) :
    shared' = shared ∧ (∀ k', Running.point next.worker = some k' → ∀ index, k' ≠ .request index) ∨
    shared' = { shared with
      sequence := shared.sequence + 1, claims := shared.claims ++ [(w, shared.sequence)] } ∧
      next = .goto (.request shared.sequence) ∧
      (definition.mode = .count → shared.sequence < definition.requestCount) := by
  cases k with
  | top =>
    obtain ⟨rfl, rfl⟩ := Prod.mk.inj (Option.some.inj h)
    refine .inl ⟨rfl, ?_⟩
    cases cancelled <;> simp [Next.worker, Running.point, Running.resumption]
  | claiming =>
    simp only [requestControl] at h
    split at h
    · obtain ⟨rfl, rfl⟩ := Prod.mk.inj (Option.some.inj h)
      exact .inl ⟨rfl, by simp [Next.worker, Running.point, Running.resumption]⟩
    · next hopen =>
      split at h
      · obtain ⟨rfl, rfl⟩ := Prod.mk.inj (Option.some.inj h)
        exact .inl ⟨rfl, by simp [Next.worker, Running.point, Running.resumption]⟩
      · obtain ⟨rfl, rfl⟩ := Prod.mk.inj (Option.some.inj h)
        exact .inr ⟨rfl, rfl, fun hmode => Nat.lt_of_not_le fun hle => hopen ⟨hmode, hle⟩⟩
  | request index => exact absurd rfl (hk index)
  | recheck =>
    simp only [requestControl] at h
    split at h
    all_goals
      obtain ⟨rfl, rfl⟩ := Prod.mk.inj (Option.some.inj h)
      exact .inl ⟨rfl, by simp [Next.worker, Running.point, Running.resumption]⟩
  | delay =>
    simp only [requestControl] at h
    split at h
    all_goals
      obtain ⟨rfl, rfl⟩ := Prod.mk.inj (Option.some.inj h)
      exact .inl ⟨rfl, by simp [Next.worker, Running.point, Running.resumption]⟩

/-- A worker has its index alone, until it is attempted. -/
theorem Running.Counted.alone {x : Running RequestShared RequestControl} {crew : List (Worker RequestControl)}
    (h : Running.Counted definition x crew) {i index : Nat} (hi : crew[i]? = some (.own (.request index))) :
    index < x.shared.sequence ∧ index ∉ x.shared.attempted.map Prod.fst ∧
      ∀ j w k, crew[j]? = some w → i ≠ j → Running.point w = some k → k ≠ .request index := by
  have hheld : 1 ≤ crewSum (Running.inHand index) crew := by
    have hle := le_crewSum (f := Running.inHand index) (List.mem_of_getElem? hi)
    simpa [Running.inHand] using hle
  have honce := h.once index
  refine ⟨?_, ?_, ?_⟩
  · by_contra hlate
    rw [if_neg hlate] at honce
    omega
  · intro hmem
    obtain ⟨e, he, hfst⟩ := List.mem_map.mp hmem
    have hcount : 0 < x.shared.attempted.countP (·.1 = index) :=
      List.countP_pos_iff.mpr ⟨e, he, by simpa using hfst⟩
    split at honce <;> omega
  · rintro j w k hj hij hpoint rfl
    have hmine : Running.inHand index (.own (.request index)) = 1 := by simp [Running.inHand]
    have hzero : Running.inHand index w = 0 := by
      apply eq_zero_of_crewSum (f := Running.inHand index) _ hi hj hij
      split at honce <;> omega
    cases w with
    | own k =>
      obtain rfl := Option.some.inj hpoint
      omega
    | _ => cases h.resumes _ (List.mem_of_getElem? hj) _ hpoint

end Requests

/-! ## Along a run -/

section Follow

variable (lib : Libraries) (definition : LoadTestRecord) (pins : List PinnedTarget) (start : List Contact)

/-- What holds of what is sent, at any time. -/
structure Followed (z : Watched RequestShared RequestControl RequestChoice)
    (crew : List (Worker (Stand RequestControl RequestChoice))) : Prop where
  workers : z.running.workers = some crew
  counted : Running.Counted definition z.running.plain (crew.map (Worker.map Stand.here))
  log : z.running.shared.log = start ++ z.exchanges.map Exchange.contact
  stages : ∀ i w stand, crew[i]? = some w → Running.point w = some stand →
    SentFor lib definition pins z.running.shared.shared.claims z.exchanges i stand
  fresh : ∀ e ∈ z.exchanges, ∃ index < z.running.shared.shared.sequence, e.contact.index? = some index
  past : ∀ index ∈ z.running.shared.shared.attempted.map Prod.fst, ∃ w,
    (w, index) ∈ z.running.shared.shared.claims ∧ Attempted lib definition pins w index (exchangesOf index z.exchanges)

variable {lib definition pins start}

theorem Followed.none_fresh {z : Watched RequestShared RequestControl RequestChoice}
    {crew : List (Worker (Stand RequestControl RequestChoice))} (h : Followed lib definition pins start z crew) :
    exchangesOf z.running.shared.shared.sequence z.exchanges = [] := by
  rw [exchangesOf, List.filter_eq_nil_iff]
  intro e he
  obtain ⟨index, hindex, hof⟩ := h.fresh e he
  rw [hof]
  simpa using hindex.ne

/-- A worker moves: it may connect for the index it has in hand, and the attempt at it may be over. -/
theorem Followed.moved {z z' : Watched RequestShared RequestControl RequestChoice}
    {crew : List (Worker (Stand RequestControl RequestChoice))} (h : Followed lib definition pins start z crew) {i : Nat}
    {w w' : Worker (Stand RequestControl RequestChoice)} {added : List Exchange} (hw : crew[i]? = some w)
    (hworkers : z'.running.workers = some (crew.set i w'))
    (hcounted : Running.Counted definition z'.running.plain ((crew.set i w').map (Worker.map Stand.here)))
    (hexchanges : z'.exchanges = z.exchanges ++ added)
    (hlog : z'.running.shared.log = z.running.shared.log ++ added.map Exchange.contact)
    (hadded : ∀ e ∈ added, ∃ index stand, e.contact.index? = some index ∧ w = .own stand ∧ stand.here = .request index)
    (hsequence : z.running.shared.shared.sequence ≤ z'.running.shared.shared.sequence)
    (hclaims : z.running.shared.shared.claims ⊆ z'.running.shared.shared.claims)
    (hstage : ∀ stand, Running.point w' = some stand →
      SentFor lib definition pins z'.running.shared.shared.claims z'.exchanges i stand)
    (hover : ∀ index ∈ z'.running.shared.shared.attempted.map Prod.fst,
      index ∈ z.running.shared.shared.attempted.map Prod.fst ∨ ∃ w, (w, index) ∈ z'.running.shared.shared.claims ∧
        Attempted lib definition pins w index (exchangesOf index z'.exchanges)) :
    Followed lib definition pins start z' (crew.set i w') := by
  have halone : ∀ e ∈ added, ∃ index, e.contact.index? = some index ∧
      index < z.running.shared.shared.sequence ∧ index ∉ z.running.shared.shared.attempted.map Prod.fst ∧
      ∀ j v stand, crew[j]? = some v → i ≠ j → Running.point v = some stand → stand.here ≠ .request index := by
    intro e he
    obtain ⟨index, stand, hindex, rfl, hhere⟩ := hadded e he
    have hi : (crew.map (Worker.map Stand.here))[i]? = some (.own (.request index)) := by simp [hw, hhere]
    obtain ⟨hlt, hnew, hothers⟩ := h.counted.alone hi
    refine ⟨index, hindex, hlt, hnew, ?_⟩
    intro j v other hj hij hpoint
    exact hothers j (v.map Stand.here) other.here (by simp [hj]) hij (by rw [Running.point_map, hpoint]; rfl)
  refine ⟨hworkers, hcounted, ?_, ?_, ?_, ?_⟩
  · rw [hlog, h.log, hexchanges, List.map_append, List.append_assoc]
  · intro j v stand hj hpoint
    by_cases hij : i = j
    · subst hij
      rw [List.getElem?_set_self (List.getElem?_eq_some_iff.mp hw).1] at hj
      obtain rfl := Option.some.inj hj
      exact hstage stand hpoint
    · rw [List.getElem?_set_ne hij] at hj
      apply (h.stages j v stand hj hpoint).congr hclaims
      intro index hhere
      rw [hexchanges]
      apply exchangesOf_append
      intro e he hindex
      obtain ⟨other, hother, -, -, hothers⟩ := halone e he
      obtain rfl := Option.some.inj (hindex.symm.trans hother)
      exact hothers j v stand hj hij hpoint hhere
  · intro e he
    rw [hexchanges] at he
    rcases List.mem_append.mp he with hold | hnew
    · obtain ⟨index, hindex, hof⟩ := h.fresh e hold
      exact ⟨index, Nat.lt_of_lt_of_le hindex hsequence, hof⟩
    · obtain ⟨index, hof, hindex, -, -⟩ := halone e hnew
      exact ⟨index, Nat.lt_of_lt_of_le hindex hsequence, hof⟩
  · intro index hindex
    rcases hover index hindex with hold | hnew
    · obtain ⟨v, hclaim, hattempted⟩ := h.past index hold
      refine ⟨v, hclaims hclaim, ?_⟩
      rwa [hexchanges, exchangesOf_append]
      intro e he hof
      obtain ⟨other, hother, -, hnew, -⟩ := halone e he
      obtain rfl := Option.some.inj (hof.symm.trans hother)
      exact hnew hold
    · exact hnew

/-- What the control that knows no network counts, it counts under the network. -/
theorem counted_move {runId : UUID} {x y : Running (Traffic RequestShared) (Stand RequestControl RequestChoice)}
    {m : Move (PinnedChoice RequestChoice DynamicDraws)}
    {crew : List (Worker RequestControl)} {crew' : List (Worker (Stand RequestControl RequestChoice))}
    (hmode : definition.mode = .count) (h : Running.Counted definition x.plain crew)
    (hmove : x.move (pinnedControl (requestControl definition) (attemptRequest lib definition pins)) runId m = some y)
    (hy : Running.Contained y) (hcrew' : y.workers = some crew') :
    Running.Counted definition y.plain (crew'.map (Worker.map Stand.here)) := by
  obtain ⟨after, hafter⟩ : ∃ after, Running.Counted definition y.plain after := by
    rcases Running.move_plain hmove with hstays | ⟨m', hmove'⟩
    · exact ⟨crew, hstays ▸ h⟩
    · exact h.step hmode hmove' (Running.contained_plain.mpr hy)
  have hplain : y.plain.workers = some (crew'.map (Worker.map Stand.here)) := by
    simp only [Running.plain, hcrew', Option.map_some]
  obtain rfl := Option.some.inj (hafter.workers.symm.trans hplain)
  exact hafter

theorem Watched.exchange_eq {z : Watched RequestShared RequestControl RequestChoice}
    {crew : List (Worker (Stand RequestControl RequestChoice))} {m : Move (PinnedChoice RequestChoice DynamicDraws)}
    {w : Worker (Stand RequestControl RequestChoice)} (hcrew : z.running.workers = some crew)
    (hw : crew[m.worker]? = some w) : z.exchange m = w.connects m.choice.outcome := by
  simp only [Watched.exchange, hcrew, Option.getD_some, hw, Option.elim_some]

/-- What a worker goes on with after a step of the control. -/
theorem point_onward {onward : Next RequestControl} {stand : Stand RequestControl RequestChoice}
    (h : Running.point (onward.map .inner : Next (Stand RequestControl RequestChoice)).worker = some stand) :
    ∃ k, stand = .inner k ∧ Running.point onward.worker = some k := by
  rw [Next.worker_map, Running.point_map, Option.map_eq_some_iff] at h
  obtain ⟨k, hk, rfl⟩ := h
  exact ⟨k, rfl, hk⟩

/-- The attempt of a worker at its index is over: with the exchanges it has added, it went as `_request_pinned` goes. -/
theorem Followed.attempted {z : Watched RequestShared RequestControl RequestChoice}
    {crew : List (Worker (Stand RequestControl RequestChoice))} (h : Followed lib definition pins start z crew)
    {i index : Nat} {cancelled : Bool} {stand : Stand RequestControl RequestChoice} {choice : RequestChoice}
    {shared : RequestShared} {onward : Next RequestControl} {log : List Contact} {added : List Exchange}
    (hw : crew[i]? = some (.own stand)) (hhere : stand.here = .request index)
    (hinner : (requestControl definition).step i cancelled z.running.shared.shared (.request index) choice =
      some (shared, onward))
    (hescape : ∀ e, onward ≠ .escape e) (hlog : log = z.running.shared.log ++ added.map Exchange.contact)
    (hadded : ∀ e ∈ added, e.contact.index? = some index) (hclaim : (i, index) ∈ z.running.shared.shared.claims)
    (hattempted : Attempted lib definition pins i index (exchangesOf index (z.exchanges ++ added)))
    (hcounted : Running.Counted definition
      (Running.plain { z.running.put crew i (onward.map .inner : Next (Stand _ _)).worker with shared := ⟨shared, log⟩ })
      ((crew.set i (onward.map .inner : Next (Stand _ _)).worker).map (Worker.map Stand.here))) :
    Followed lib definition pins start
      ⟨{ z.running.put crew i (onward.map .inner : Next (Stand _ _)).worker with shared := ⟨shared, log⟩ },
        z.exchanges ++ added⟩ (crew.set i (onward.map .inner : Next (Stand _ _)).worker) := by
  obtain ⟨rfl, answer, rfl⟩ := requestControl_request hinner hescape
  apply h.moved hw rfl hcounted rfl hlog
  · exact fun e he => ⟨index, stand, hadded e he, rfl, hhere⟩
  · exact Nat.le_refl _
  · exact List.Subset.refl _
  · intro other hpoint
    obtain ⟨k, rfl, hk⟩ := point_onward hpoint
    obtain rfl := Option.some.inj hk
    trivial
  · intro other hother
    rw [List.map_append, List.mem_append] at hother
    rcases hother with hold | hnew
    · exact .inl hold
    · obtain rfl := List.mem_singleton.mp hnew
      exact .inr ⟨i, hclaim, hattempted⟩

/-- A step of the control, without an exception. -/
theorem Followed.own {z : Watched RequestShared RequestControl RequestChoice}
    {crew : List (Worker (Stand RequestControl RequestChoice))} (h : Followed lib definition pins start z crew)
    {m : Move (PinnedChoice RequestChoice DynamicDraws)} {stand : Stand RequestControl RequestChoice}
    {after : Traffic RequestShared} {next : Next (Stand RequestControl RequestChoice)}
    (hw : crew[m.worker]? = some (.own stand))
    (hstep : PinnedStep (requestControl definition) (attemptRequest lib definition pins) m.worker
      z.running.service.cancelled z.running.shared m.choice stand after next)
    (hescape : ∀ e, next ≠ .escape e)
    (hcounted : Running.Counted definition (Running.plain { z.running.put crew m.worker next.worker with shared := after })
      ((crew.set m.worker next.worker).map (Worker.map Stand.here))) :
    Followed lib definition pins start
      ⟨{ z.running.put crew m.worker next.worker with shared := after }, z.exchanges ++ z.exchange m⟩
      (crew.set m.worker next.worker) := by
  have hstage := h.stages _ _ stand hw rfl
  have hescapes : ∀ onward : Next RequestControl, next = onward.map .inner → ∀ e, onward ≠ .escape e := by
    rintro onward rfl e rfl
    exact hescape e rfl
  have hexchange := Watched.exchange_eq h.workers hw
  cases hstep with
  | @plain k shared onward hattempt hinner =>
    have hnone : z.exchange m = [] := hexchange
    rw [hnone]
    rcases requestControl_aside (attemptRequest_none hattempt) hinner with ⟨rfl, hother⟩ | ⟨rfl, rfl, -⟩
    · apply h.moved hw rfl hcounted rfl (List.append_nil _).symm
      · simp
      · exact Nat.le_refl _
      · exact List.Subset.refl _
      · intro other hpoint
        obtain ⟨k', rfl, hk'⟩ := point_onward hpoint
        cases k' with
        | request index => exact absurd rfl (hother _ hk' index)
        | _ => trivial
      · exact fun index hindex => .inl hindex
    · apply h.moved hw rfl hcounted rfl (List.append_nil _).symm
      · simp
      · exact Nat.le_succ _
      · exact List.subset_append_left _ _
      · intro other hpoint
        obtain rfl := Option.some.inj hpoint
        refine ⟨by simp, ?_⟩
        rw [List.append_nil]
        exact h.none_fresh
      · exact fun index hindex => .inl hindex
  | @settle k contacts settled shared onward hattempt hinner =>
    obtain ⟨index, rfl, rfl⟩ := attemptRequest_settled hattempt
    have hnone : z.exchange m = [] := hexchange
    rw [hnone]
    refine h.attempted hw rfl hinner (hescapes onward rfl) rfl (by simp) hstage.1 ?_ hcounted
    rw [List.append_nil, hstage.2]
    exact .settled hattempt
  | @send k contacts sending addresses hattempt =>
    obtain ⟨index, pinned, rfl, rfl, hpinned, rfl, hcaller⟩ := attemptRequest_sending hattempt
    have hnone : z.exchange m = [] := hexchange
    rw [hnone]
    apply h.moved hw rfl hcounted rfl rfl
    · simp
    · exact Nat.le_refl _
    · exact List.Subset.refl _
    · intro other hpoint
      obtain rfl := Option.some.inj hpoint
      refine ⟨index, _, pinned, [], rfl, hstage.1, hpinned, rfl, hattempt, ?_⟩
      dsimp only
      rw [List.append_nil]
      exact hstage.2
    · exact fun index hindex => .inl hindex
  | @exhaust k sending shared onward hinner =>
    obtain ⟨index, draws, pinned, refused, rfl, hclaim, hpinned, haddresses, hattempt, hrefused⟩ := hstage
    have hnone : z.exchange m = [] := hexchange
    rw [hnone]
    refine h.attempted hw rfl hinner (hescapes onward rfl) (List.append_nil _).symm (by simp) hclaim ?_ hcounted
    refine .sent hpinned hattempt ?_
    have hloop := requestPinned_refused sending.caller sending.url sending.request refused [] []
    rw [List.append_nil, hrefused, haddresses]
    simpa [requestPinned, Function.comp_def] using hloop.symm
  | @retry k sending address rest houtcome =>
    obtain ⟨index, draws, pinned, refused, rfl, hclaim, hpinned, haddresses, hattempt, hrefused⟩ := hstage
    have hof := attemptRequest_index hattempt address
    have hone : z.exchange m =
        [⟨.connected sending.caller sending.url address sending.request, m.choice.outcome⟩] := hexchange
    rw [hone]
    apply h.moved hw rfl hcounted rfl rfl
    · intro e he
      obtain rfl := List.mem_singleton.mp he
      exact ⟨index, _, hof, rfl, rfl⟩
    · exact Nat.le_refl _
    · exact List.Subset.refl _
    · intro other hpoint
      obtain rfl := Option.some.inj hpoint
      refine ⟨index, draws, pinned, refused ++ [address], rfl, hclaim, hpinned, by simpa using haddresses, hattempt, ?_⟩
      rw [exchangesOf_concat hof, hrefused, houtcome, List.map_append]
      rfl
    · exact fun index hindex => .inl hindex
  | @conclude k sending address rest shared onward houtcome hinner =>
    obtain ⟨index, draws, pinned, refused, rfl, hclaim, hpinned, haddresses, hattempt, hrefused⟩ := hstage
    have hof := attemptRequest_index hattempt address
    have hone : z.exchange m =
        [⟨.connected sending.caller sending.url address sending.request, m.choice.outcome⟩] := hexchange
    rw [hone]
    refine h.attempted hw rfl hinner (hescapes onward rfl) rfl ?_ hclaim ?_ hcounted
    · intro e he
      obtain rfl := List.mem_singleton.mp he
      exact hof
    · refine .sent hpinned hattempt ?_
      have hloop := requestPinned_refused sending.caller sending.url sending.request refused (address :: rest)
        [m.choice.outcome]
      rw [requestPinned_concluded houtcome] at hloop
      rw [exchangesOf_concat hof, hrefused, haddresses]
      simpa [Function.comp_def] using hloop.symm

/-- What is sent stays followed as long as nothing escapes. -/
theorem Followed.step {runId : UUID} (hmode : definition.mode = .count)
    {z z' : Watched RequestShared RequestControl RequestChoice}
    {crew : List (Worker (Stand RequestControl RequestChoice))} (h : Followed lib definition pins start z crew)
    {m : Move (PinnedChoice RequestChoice DynamicDraws)}
    (hmove : z.move (pinnedControl (requestControl definition) (attemptRequest lib definition pins)) runId m = some z')
    (hz' : Running.Contained z'.running) : ∃ crew', Followed lib definition pins start z' crew' := by
  obtain ⟨y, hrunning, rfl⟩ := Option.map_eq_some_iff.mp hmove
  obtain ⟨crew', w, hcrew, hw, hmoved⟩ := Running.move_cases hrunning
  obtain rfl := Option.some.inj (h.workers.symm.trans hcrew)
  by_cases hown : ∃ stand, w = .own stand
  · obtain ⟨stand, rfl⟩ := hown
    cases hmoved with
    | @own _ after next hstep =>
      refine ⟨_, h.own hw (pinnedControl_cases hstep) ?_ (counted_move hmode h.counted hrunning hz' rfl)⟩
      rintro e rfl
      exact hz' e (List.mem_of_getElem? (List.getElem?_set_self (List.getElem?_eq_some_iff.mp hw).1))
  · have hreport : ∀ stand, w ≠ .own stand := fun stand hstand => hown ⟨stand, hstand⟩
    obtain ⟨w', hworkers, hshared, hpoint⟩ := hmoved.keeps_point hreport
    have hnone : z.exchange m = [] := by
      rw [Watched.exchange_eq h.workers hw]
      cases w with
      | own stand => exact absurd rfl (hreport stand)
      | _ => rfl
    refine ⟨_, h.moved hw hworkers (counted_move hmode h.counted hrunning hz' hworkers)
      (congrArg (z.exchanges ++ ·) hnone) ?_ ?_ ?_ ?_ ?_ ?_⟩
    · rw [hshared]
      exact (List.append_nil _).symm
    · simp
    · rw [hshared]
    · rw [hshared]
      exact List.Subset.refl _
    · intro stand hstand
      rw [hshared, hnone, List.append_nil]
      rcases hpoint with hsame | hgone
      · exact h.stages _ w stand hw (hsame ▸ hstand)
      · rw [hgone] at hstand
        cases hstand
    · intro index hindex
      rw [hshared] at hindex
      exact .inl hindex

end Follow

/-! ## Whole runs -/

section Exact

variable {lib : Libraries} {definition : LoadTestRecord} {pins : List PinnedTarget} {start : List Contact}

def mostAddresses (pins : List PinnedTarget) : Nat := (pins.map (·.destination.addresses.length)).max?.getD 0

/-- How far a worker is from its end, with nothing left to claim. -/
def sendingRank (pins : List PinnedTarget) : Stand RequestControl RequestChoice → Nat
  | .inner (.request _) => 11 + mostAddresses pins
  | .inner k => Running.requestRank k
  | .connecting _ _ rest => 10 + rest.length

def unsent (definition : LoadTestRecord) (pins : List PinnedTarget) (traffic : Traffic RequestShared) : Nat :=
  (definition.requestCount - traffic.shared.sequence) * (11 + mostAddresses pins)

theorem requestRank_le (k : RequestControl) : Running.requestRank k ≤ 10 := by
  cases k <;> simp [Running.requestRank]

theorem distance_onward {onward : Next RequestControl}
    (h : ∀ k, Running.point onward.worker = some k → ∀ index, k ≠ .request index) :
    Running.distance (sendingRank pins) (onward.map .inner : Next (Stand RequestControl RequestChoice)).worker =
      Running.distance Running.requestRank onward.worker := by
  have hrank : ∀ k, Running.point onward.worker = some k →
      sendingRank pins (.inner k) = Running.requestRank k := by
    intro k hk
    cases k with
    | request index => exact absurd rfl (h _ hk index)
    | _ => rfl
  cases onward with
  | goto k => exact hrank k rfl
  | report target answer k => exact congrArg (· + 5) (hrank k rfl)
  | close success k => exact congrArg (· + 4) (hrank k rfl)
  | poll k => exact congrArg (· + 3) (hrank k rfl)
  | done => rfl
  | escape e => rfl

/-- A step of the control brings the worker closer to its end, or an index closer to being claimed. -/
theorem requestControl_nearer (hmode : definition.mode = .count) {w : Nat} {cancelled : Bool} {shared after : RequestShared}
    {k : RequestControl} {choice : RequestChoice} {onward : Next RequestControl} (pins : List PinnedTarget)
    (log log' : List Contact)
    (h : (requestControl definition).step w cancelled shared k choice = some (after, onward)) :
    unsent definition pins ⟨after, log'⟩ + Running.distance (sendingRank pins)
        (onward.map .inner : Next (Stand RequestControl RequestChoice)).worker <
      unsent definition pins ⟨shared, log⟩ + Running.requestRank k := by
  have hdescends := Running.requestControl_descends hmode _ _ _ _ _ _ _ h
  by_cases hrequest : ∃ index, k = .request index
  · obtain ⟨index, rfl⟩ := hrequest
    by_cases hescape : ∃ e, onward = .escape e
    · obtain ⟨e, rfl⟩ := hescape
      simp only [requestControl] at h
      split at h
      · obtain ⟨rfl, -⟩ := Prod.mk.inj (Option.some.inj h)
        simp [unsent, Next.map, Next.worker, Running.distance, Running.requestRank]
      · cases (Prod.mk.inj (Option.some.inj h)).2
    · obtain ⟨rfl, answer, rfl⟩ := requestControl_request h fun e he => hescape ⟨e, he⟩
      simp [unsent, Next.map, Next.worker, Running.distance, sendingRank, Running.requestRank]
  · rcases requestControl_aside (fun index hk => hrequest ⟨index, hk⟩) h with ⟨rfl, hother⟩ | ⟨rfl, rfl, hopen⟩
    · rw [distance_onward hother]
      simp only [unsent]
      omega
    · have hlt := hopen hmode
      obtain ⟨left, hleft⟩ := Nat.exists_eq_add_of_lt hlt
      simp only [unsent, Next.map, Next.worker, Running.distance, sendingRank, hleft]
      have hbefore : shared.sequence + left + 1 - shared.sequence = left + 1 := by omega
      have hafter : shared.sequence + left + 1 - (shared.sequence + 1) = left := by omega
      rw [hbefore, hafter, Nat.succ_mul]
      have hpositive : 0 < Running.requestRank k := by cases k <;> simp [Running.requestRank]
      omega

theorem pinnedControl_descends (hmode : definition.mode = .count) :
    Running.Descends (pinnedControl (requestControl definition) (attemptRequest lib definition pins)) (sendingRank pins)
      (unsent definition pins) := by
  intro i cancelled traffic stand choice after next hstep
  cases pinnedControl_cases hstep with
  | @plain k shared onward hattempt hinner =>
    have hnearer := requestControl_nearer hmode pins traffic.log traffic.log hinner
    have hrank : Running.requestRank k = sendingRank pins (.inner k) := by
      cases k with
      | request index => exact absurd rfl (attemptRequest_none hattempt index)
      | _ => rfl
    rwa [hrank] at hnearer
  | @settle k contacts settled shared onward hattempt hinner =>
    have hnearer := requestControl_nearer hmode pins traffic.log (traffic.log ++ contacts) hinner
    obtain ⟨index, rfl, rfl⟩ := attemptRequest_settled hattempt
    refine hnearer.trans_le (Nat.add_le_add_left ?_ _)
    simp only [Running.requestRank, sendingRank]
    omega
  | @send k contacts sending addresses hattempt =>
    obtain ⟨index, pinned, rfl, rfl, hpinned, rfl, -⟩ := attemptRequest_sending hattempt
    have hlength : pinned.destination.addresses.length ≤ mostAddresses pins :=
      List.le_max?_getD_of_mem (List.mem_map_of_mem (List.mem_of_getElem? hpinned))
    simp only [unsent, Next.worker, Running.distance, sendingRank]
    omega
  | @exhaust k sending shared onward hinner =>
    have hnearer := requestControl_nearer hmode pins traffic.log traffic.log hinner
    exact hnearer.trans_le (Nat.add_le_add_left (requestRank_le k) _)
  | @retry k sending address rest houtcome =>
    simp only [unsent, Next.worker, Running.distance, sendingRank, List.length_cons]
    omega
  | @conclude k sending address rest shared onward houtcome hinner =>
    have hnearer := requestControl_nearer hmode pins traffic.log
      (traffic.log ++ [.connected sending.caller sending.url address sending.request]) hinner
    have hrank := requestRank_le k
    refine hnearer.trans_le (Nat.add_le_add_left ?_ _)
    simp only [sendingRank]
    omega

theorem pinnedControl_total (i : Nat) (cancelled : Bool) (traffic : Traffic RequestShared)
    (stand : Stand RequestControl RequestChoice) (choice : PinnedChoice RequestChoice DynamicDraws) :
    ((pinnedControl (requestControl definition) (attemptRequest lib definition pins)).step i cancelled traffic stand
      choice).isSome := by
  have honward : ∀ shared log k inner,
      ((requestControl definition).onward i cancelled shared log k inner).isSome := by
    intro shared log k inner
    rw [Control.onward, Option.isSome_map]
    exact Running.requestControl_total ..
  simp only [pinnedControl]
  split
  · split
    · exact honward ..
    · exact honward ..
    · rfl
  · exact honward ..
  · split
    · rfl
    · exact honward ..

theorem Followed.launched {service : Execution} (hunset : service.cancelled = false) (workers : Nat) :
    Followed lib definition pins start
      (.launched (pinnedControl (requestControl definition) (attemptRequest lib definition pins)) service
        ⟨⟨0, [], []⟩, start⟩ definition workers)
      (List.replicate workers (.own (.inner .top))) := by
  refine ⟨rfl, ?_, (List.append_nil _).symm, ?_, by simp [Watched.launched], ?_⟩
  · have hplain : (Watched.launched (pinnedControl (requestControl definition) (attemptRequest lib definition pins)) service
        ⟨⟨0, [], []⟩, start⟩ definition workers).running.plain =
        Running.launched (requestControl definition) service ⟨0, [], []⟩ definition workers := by
      simp only [Running.plain, Watched.launched, Running.launched, Option.map_some, List.map_replicate]
      rfl
    rw [hplain, List.map_replicate]
    exact Running.Counted.launched definition hunset workers
  · intro i w stand hw hpoint
    obtain rfl := List.eq_of_mem_replicate (List.mem_of_getElem? hw)
    obtain rfl := Option.some.inj hpoint
    trivial
  · simp [Watched.launched, Running.launched]

variable (lib definition pins start)

/-- Every index is claimed, attempted and counted once, each for its own target, and all that is sent is what the attempts
at these indices have sent, each by the worker that claimed the index. -/
structure ExactTraffic (z : Watched RequestShared RequestControl RequestChoice) : Prop where
  requests : Running.ExactRequests definition z.running.plain
  log : z.running.shared.log = start ++ z.exchanges.map Exchange.contact
  attempted : ∀ index < definition.requestCount, ∃ w, (w, index) ∈ z.running.shared.shared.claims ∧
    Attempted lib definition pins w index (exchangesOf index z.exchanges)
  nothingElse : ∀ e ∈ z.exchanges, ∃ index < definition.requestCount, e.contact.index? = some index

variable {lib definition pins start}

theorem Followed.exact {z : Watched RequestShared RequestControl RequestChoice}
    {crew : List (Worker (Stand RequestControl RequestChoice))} (h : Followed lib definition pins start z crew)
    (hfinished : Running.Finished z.running) (hsome : crew ≠ []) : ExactTraffic lib definition pins start z := by
  have hreturned : ∀ w ∈ crew.map (Worker.map Stand.here), w = .returned := by
    have hplain := Running.finished_plain.mpr hfinished
    simpa [Running.Finished, Running.plain, h.workers] using hplain
  have hexact := h.counted.exact hreturned (by simpa using hsome)
  refine ⟨hexact, h.log, ?_, ?_⟩
  · intro index hindex
    exact h.past index (hexact.attempted.mem_iff.mpr (List.mem_range.mpr hindex))
  · intro e he
    obtain ⟨index, hlt, hof⟩ := h.fresh e he
    exact ⟨index, hlt.trans_le h.counted.sequence_le, hof⟩

/-- Every run of the workers ends, and when all of them have returned the traffic is exact. -/
theorem traffic_exact (hmode : definition.mode = .count) {runId : UUID} {service : Execution}
    (hstage : service.stage = .executing) (hunset : service.cancelled = false) (hchecked : service.checked = none)
    {workers : Nat} (hworkers : 1 ≤ workers) {moves : List (Move (PinnedChoice RequestChoice DynamicDraws))}
    {z : Watched RequestShared RequestControl RequestChoice}
    (hrun : runSteps (Watched.move (pinnedControl (requestControl definition) (attemptRequest lib definition pins)) runId)
      (.launched (pinnedControl (requestControl definition) (attemptRequest lib definition pins)) service
        ⟨⟨0, [], []⟩, start⟩ definition workers) moves = some z)
    (hz : Running.Contained z.running) :
    moves.length ≤ definition.requestCount * (11 + mostAddresses pins) + workers * 2 ∧
    (¬ Running.Finished z.running → ∃ i, ∀ m : Move (PinnedChoice RequestChoice DynamicDraws), m.worker = i →
      (z.move (pinnedControl (requestControl definition) (attemptRequest lib definition pins)) runId m).isSome) ∧
    (Running.Finished z.running → ExactTraffic lib definition pins start z) := by
  have hrunning := Watched.running_of_run hrun
  have hlength := Running.length_moves_le (pinnedControl_descends hmode) hrunning
  simp only [Running.remaining, Watched.launched, Running.launched, Option.getD_some, crewSum_replicate, unsent,
    Nat.sub_zero] at hlength
  obtain ⟨crew, hfollowed⟩ : ∃ crew, Followed lib definition pins start z crew := by
    have hkept : Running.Contained z.running → ∃ crew, Followed lib definition pins start z crew := by
      refine runSteps_keeps (I := fun z => Running.Contained z.running → ∃ crew, Followed lib definition pins start z crew)
        ?_ (fun _ => ⟨_, Followed.launched hunset workers⟩) hrun
      intro s m s' hs hmove hs'
      obtain ⟨y, hy, rfl⟩ := Option.map_eq_some_iff.mp hmove
      obtain ⟨crew, hcrew⟩ := hs (hs'.of_move hy)
      exact hcrew.step hmode hmove hs'
    exact hkept hz
  refine ⟨?_, ?_, ?_⟩
  · have hstart : Running.distance (sendingRank pins)
        (.own (pinnedControl (requestControl definition) (attemptRequest lib definition pins)).start) = 2 := rfl
    rwa [hstart] at hlength
  · intro hopen
    obtain ⟨i, hi⟩ := Running.progress_of_run hstage hchecked hrunning hz
      (fun _ _ _ _ => pinnedControl_total ..) hopen
    refine ⟨i, ?_⟩
    intro m hm
    rw [Watched.move, Option.isSome_map]
    exact hi m hm
  · intro hfinished
    have hsize := Running.length_of_run hrunning hfollowed.workers
    apply hfollowed.exact hfinished
    rintro rfl
    simp at hsize
    omega

end Exact

/-! ## Both kinds of traffic -/

/-- In `COUNT` mode, without cancellation and as long as no exception goes through a worker: every order of moves ends,
as long as a worker has not returned one can move, and when all have returned the counts are exact. Each index is
attempted once, and sent to addresses that were validated for its target, one after the other until one answers. -/
theorem count_mode_exact {δ : Type}
    (perform : LoadTestTarget → Dict String Json → Nat → δ → Except Raised (Answer × Dict String Json))
    (lib : Libraries) (allowedPrivateHosts : List String) (definition : LoadTestRecord) (hmode : definition.mode = .count)
    (runId : UUID) (service : Execution) (hstage : service.stage = .executing) (hunset : service.cancelled = false)
    (hchecked : service.checked = none) (maxWorkers : Nat) (hmax : 1 ≤ maxWorkers) :
    (∀ config draws pins start, (startRequests lib allowedPrivateHosts definition config draws).on [] = (.ok pins, start) →
      ValidatedFirst pins start ∧
      ∀ moves z,
        runSteps (Watched.move (pinnedControl (requestControl definition) (attemptRequest lib definition pins)) runId)
          (.launched (pinnedControl (requestControl definition) (attemptRequest lib definition pins)) service
            ⟨⟨0, [], []⟩, start⟩ definition (workerCount definition maxWorkers)) moves = some z →
        Running.Contained z.running →
        moves.length ≤ definition.requestCount * (11 + mostAddresses pins) + workerCount definition maxWorkers * 2 ∧
        (¬ Running.Finished z.running → ∃ i, ∀ m : Move (PinnedChoice RequestChoice DynamicDraws), m.worker = i →
          (z.move (pinnedControl (requestControl definition) (attemptRequest lib definition pins)) runId m).isSome) ∧
        (Running.Finished z.running → ExactTraffic lib definition pins start z)) ∧
    (∀ moves y, runSteps (Running.move (scenarioControl definition perform) runId)
        (Running.launched (scenarioControl definition perform) service ⟨0, fun _ => [], []⟩ definition
          (workerCount definition maxWorkers)) moves = some y → Running.Contained y →
      moves.length ≤ definition.requestCount * (10 + definition.targets.length * 8) +
        workerCount definition maxWorkers * 2 ∧
      (¬ Running.Finished y → ∃ i, ∀ m : Move (ScenarioChoice δ), m.worker = i →
        (y.move (scenarioControl definition perform) runId m).isSome) ∧
      (Running.Finished y → Running.ExactScenarios definition y)) := by
  have hworkers := workerCount_pos definition hmax
  constructor
  · intro config draws pins start hstart
    refine ⟨startRequests_validates hstart, ?_⟩
    intro moves z hrun hz
    exact traffic_exact hmode hstage hunset hchecked hworkers hrun hz
  · intro moves y hrun hy
    exact Running.scenarios_exact hmode hstage hunset hchecked hworkers hrun hy

/-- The libraries where `example.com` has a second address. -/
def pairLibraries : Libraries where
  split := pingLibraries.split
  join := pingLibraries.join
  ipAddress text := if text = "93.184.216.35" then some ⟨.ofOctets 93 184 216 35, none⟩ else pingLibraries.ipAddress text
  lower := pingLibraries.lower
  urlencode := pingLibraries.urlencode
  index := pingLibraries.index
  floatText := pingLibraries.floatText

def pairResolver : Resolver := fun hostname =>
  if hostname = "example.com" then some ["93.184.216.34", "93.184.216.35"] else none

def pairStart : StartDraws := ⟨fun _ => pairResolver, pairResolver, []⟩

/-- The service when the executor is called. -/
def pingExecuting : Execution := { Execution.begin Execution.pingRepo with stage := .executing }

def pairMove (outcome : Outcome) : Move (PinnedChoice RequestChoice DynamicDraws) :=
  ⟨0, ⟨⟨false, .error .exception⟩, ⟨"", 0, 0, fun _ _ => 0⟩, outcome⟩, false⟩

/-- One worker takes both requests. The first address does not answer the first of them. -/
def pairMoves : List (Move (PinnedChoice RequestChoice DynamicDraws)) :=
  List.replicate 3 (pairMove (.responded Running.pongReply)) ++ [pairMove .unavailable] ++
    List.replicate 14 (pairMove (.responded Running.pongReply))

def isReturned {κ : Type} : Worker κ → Bool
  | .returned => true
  | _ => false

/-- Whether the run ends, with connections for the indices 0, 0 and 1. -/
def pairSends : Except StepError (List PinnedTarget) × List Contact → Bool
  | (.ok pins, start) =>
    (runSteps (Watched.move (pinnedControl (requestControl Execution.pingTest)
        (attemptRequest pairLibraries Execution.pingTest pins)) ⟨"r"⟩)
      (.launched (pinnedControl (requestControl Execution.pingTest)
        (attemptRequest pairLibraries Execution.pingTest pins)) pingExecuting ⟨⟨0, [], []⟩, start⟩ Execution.pingTest
        (workerCount Execution.pingTest 4)) pairMoves).any fun z =>
      (z.running.workers.getD []).all isReturned && z.exchanges.map (·.contact.index?) == [some 0, some 0, some 1]
  | (.error _, _) => false

theorem finished_of_returned {γ κ : Type} {x : Running γ κ} (h : (x.workers.getD []).all isReturned = true) :
    Running.Finished x ∧ Running.Contained x := by
  have hfinished : Running.Finished x := by
    intro w hw
    have hreturned := List.all_eq_true.mp h w hw
    cases w with
    | returned => rfl
    | _ => cases hreturned
  refine ⟨hfinished, ?_⟩
  intro e he
  cases hfinished _ he

/-- The run of the two requests, from its start. -/
theorem pair_run : ∃ pins start z,
    (startRequests pairLibraries [] Execution.pingTest none pairStart).on [] = (.ok pins, start) ∧
    runSteps (Watched.move (pinnedControl (requestControl Execution.pingTest)
        (attemptRequest pairLibraries Execution.pingTest pins)) ⟨"r"⟩)
      (.launched (pinnedControl (requestControl Execution.pingTest)
        (attemptRequest pairLibraries Execution.pingTest pins)) pingExecuting ⟨⟨0, [], []⟩, start⟩ Execution.pingTest
        (workerCount Execution.pingTest 4)) pairMoves = some z ∧
    Running.Finished z.running ∧ Running.Contained z.running ∧
    z.exchanges.map (·.contact.index?) = [some 0, some 0, some 1] := by
  have hsends : pairSends ((startRequests pairLibraries [] Execution.pingTest none pairStart).on []) = true := by
    decide +kernel
  rcases hstart : (startRequests pairLibraries [] Execution.pingTest none pairStart).on [] with ⟨_ | pins, start⟩
  · rw [hstart] at hsends
    cases hsends
  rw [hstart] at hsends
  obtain ⟨z, hrun, hz⟩ := (Option.any_eq_true _ _).mp hsends
  obtain ⟨hreturned, hindices⟩ := Bool.and_eq_true_iff.mp hz
  obtain ⟨hfinished, hcontained⟩ := finished_of_returned hreturned
  exact ⟨pins, start, z, rfl, hrun, hfinished, hcontained, eq_of_beq hindices⟩

/-- Two requests are to be issued, and three are: the first goes to a second address as well. -/
theorem first_request_sent_twice : ∃ pins start z,
    (startRequests pairLibraries [] Execution.pingTest none pairStart).on [] = (.ok pins, start) ∧
    runSteps (Watched.move (pinnedControl (requestControl Execution.pingTest)
        (attemptRequest pairLibraries Execution.pingTest pins)) ⟨"r"⟩)
      (.launched (pinnedControl (requestControl Execution.pingTest)
        (attemptRequest pairLibraries Execution.pingTest pins)) pingExecuting ⟨⟨0, [], []⟩, start⟩ Execution.pingTest
        (workerCount Execution.pingTest 4)) pairMoves = some z ∧
    Running.Contained z.running ∧ Running.Finished z.running ∧
    ¬ (z.exchanges.map (·.contact.index?)).Perm ((List.range Execution.pingTest.requestCount).map some) := by
  obtain ⟨pins, start, z, hstart, hrun, hfinished, hcontained, hindices⟩ := pair_run
  refine ⟨pins, start, z, hstart, hrun, hcontained, hfinished, ?_⟩
  rw [hindices]
  decide

theorem ping_requested_twice : ∃ pins start z,
    (startRequests pairLibraries [] Execution.pingTest none pairStart).on [] = (.ok pins, start) ∧
    Running.Finished z.running ∧ z.exchanges.length = 3 ∧ ExactTraffic pairLibraries Execution.pingTest pins start z := by
  obtain ⟨pins, start, z, hstart, hrun, hfinished, hcontained, hindices⟩ := pair_run
  have hexact := count_mode_exact (fun _ _ _ (_ : Unit) => .error .exception) pairLibraries [] Execution.pingTest rfl ⟨"r"⟩
    pingExecuting rfl rfl rfl 4 (by decide)
  have hlength : z.exchanges.length = 3 := by simpa using congrArg List.length hindices
  exact ⟨pins, start, z, hstart, hfinished, hlength,
    ((hexact.1 none pairStart pins start hstart).2 pairMoves z hrun hcontained).2.2 hfinished⟩

end SmartTest.Load
