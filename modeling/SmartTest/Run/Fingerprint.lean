import SmartTest.Lib.JsonRead
import SmartTest.Lib.JsonSorted
import SmartTest.Run.Touch

/-!
# Request fingerprints

`_fingerprint` of `services/api/repository.py` hashes the JSON text of a request with the
fields of every object sorted by name. Two requests have one text exactly when they are
equal up to the order of fields, so a filed key answers the request it was filed for, and
no other. A float goes by its value; negative zero, which is spelled apart from zero,
goes by any rational that is no double.
-/

open SmartTest.Lib

namespace SmartTest.Run

/-- The text that `_fingerprint` hashes; `floatText` is `float.__repr__`. -/
def canonicalRequest (floatText : Rat → List Char) (engine : Engine) (parameters : Dict String Json) : String :=
  String.ofList ((Json.obj [("engine", .str engine.value), ("parameters", .obj parameters.entries)]).sorted.write
    (asciiSpelling floatText))

/-- `_fingerprint`. -/
def fingerprintOf (sha256 : String → String) (floatText : Rat → List Char) (engine : Engine)
    (parameters : Dict String Json) : String :=
  sha256 (canonicalRequest floatText engine parameters)

/-- The key a request is filed under. -/
def requestKey (idempotencyKey : Option String) : Option String := (idempotencyKey.map strip).filter (· ≠ "")

/-! ## The canonical text -/

section Canonical

variable {floatText : Rat → List Char} {readFloat : List Char → Option Rat} {isFloat : Rat → Prop}

theorem wellFormed_parameters {parameters : Dict String Json} (h : Json.WellFormedFields isFloat parameters.entries) :
    (Json.obj parameters.entries).WellFormed isFloat :=
  ⟨parameters.nodup, h⟩

theorem wellFormed_request (engine : Engine) {parameters : Dict String Json}
    (h : Json.WellFormedFields isFloat parameters.entries) :
    (Json.obj [("engine", .str engine.value), ("parameters", .obj parameters.entries)]).WellFormed isFloat := by
  refine ⟨by simp, ?_, ?_, ?_⟩
  · trivial
  · exact wellFormed_parameters h
  · trivial

theorem engine_of_value {a b : Engine} (h : a.value = b.value) : a = b := by
  cases a <;> cases b <;> first | rfl | simp [Engine.value] at h

/-- Two requests are the same up to the order of fields when their engines and parameters are. -/
theorem same_request_iff (engine other : Engine) (parameters changed : Dict String Json) :
    (Json.obj [("engine", .str engine.value), ("parameters", .obj parameters.entries)]).same
        (.obj [("engine", .str other.value), ("parameters", .obj changed.entries)]) = true ↔
      engine = other ∧ (Json.obj parameters.entries).same (.obj changed.entries) = true := by
  have hvalue : engine.value = other.value ↔ engine = other := ⟨engine_of_value, fun h => h ▸ rfl⟩
  rw [← hvalue, Json.same, Json.sameFields, Json.sameFields, Json.sameFields]
  simp [List.lookup_cons, Json.same]

theorem canonicalRequest_eq_iff (hs : (asciiSpelling floatText).Faithful readFloat isFloat)
    (engine other : Engine) {parameters changed : Dict String Json}
    (hparameters : Json.WellFormedFields isFloat parameters.entries)
    (hchanged : Json.WellFormedFields isFloat changed.entries) :
    canonicalRequest floatText engine parameters = canonicalRequest floatText other changed ↔
      engine = other ∧ (Json.obj parameters.entries).same (.obj changed.entries) = true := by
  have ha := wellFormed_request engine hparameters
  have hb := wellFormed_request other hchanged
  rw [← same_request_iff, Json.same_iff _ _ ha hb]
  constructor
  · intro h
    apply write_injective hs (Json.WellFormed.sorted _ ha) (Json.WellFormed.sorted _ hb)
    exact String.ofList_injective h
  · intro h
    unfold canonicalRequest
    rw [h]

end Canonical

/-! ## Filed keys -/

namespace RunRepository

variable {fingerprint : Engine → Dict String Json → String} {repo : RunRepository}

/-- `key` is filed for a request with the digest `saved`, and its run is there. -/
structure FiledUnder (repo : RunRepository) (key saved : String) (runId : UUID) : Prop where
  filed : Filed repo
  entry : repo.idempotency.get? key = some (saved, runId)
  present : (repo.runs.get? runId).isSome

theorem createOrGet_of_entry {key saved : String} {runId newId : UUID} {run : RunRecord} {now : Instant}
    {engine : Engine} {parameters : Dict String Json} {raw : Option String} (hkey : requestKey raw = some key)
    (hentry : repo.idempotency.get? key = some (saved, runId)) (hrun : repo.runs.get? runId = some run) :
    createOrGet fingerprint repo newId now engine parameters raw =
      if saved = fingerprint engine parameters then .ok ((run, true), repo)
      else .error ⟨.idempotencyConflict, "idempotency key was used for another request"⟩ := by
  unfold requestKey at hkey
  simp only [createOrGet, hkey, Option.bind_some, hentry]
  by_cases hsaved : saved = fingerprint engine parameters
  · simp [hsaved, hrun]
    rfl
  · simp [hsaved, error_bind]

/-- A call that creates a run files it, under its key if it has one. -/
theorem createOrGet_created {repo' : RunRepository} {run : RunRecord} {newId : UUID} {now : Instant}
    {engine : Engine} {parameters : Dict String Json} {raw : Option String}
    (h : createOrGet fingerprint repo newId now engine parameters raw = .ok ((run, false), repo')) :
    run.id = newId ∧ repo'.runs = repo.runs.set newId run ∧
      (∀ key, requestKey raw = some key → repo.idempotency.get? key = none ∧
        repo'.idempotency = repo.idempotency.set key (fingerprint engine parameters, newId)) ∧
      (requestKey raw = none → repo'.idempotency = repo.idempotency) := by
  unfold requestKey
  simp only [createOrGet] at h
  split at h
  · next saved runId hfound =>
    split at h
    · simp [error_bind] at h
    · split at h <;> simp [pure_eq_ok_iff] at h
  · next hfound =>
    simp only [pure_eq_ok_iff, Prod.mk.injEq] at h
    obtain ⟨⟨rfl, -⟩, rfl⟩ := h
    refine ⟨rfl, rfl, ?_, ?_⟩
    · intro key hkey
      rw [hkey] at hfound ⊢
      exact ⟨hfound, rfl⟩
    · intro hkey
      rw [hkey]

theorem idempotency_of_after {α : Type} {x : Except Exn (α × RunRepository)}
    (h : ∀ answer repo', x = .ok (answer, repo') → repo'.idempotency = repo.idempotency) :
    (after repo x).idempotency = repo.idempotency := by
  rcases after_cases repo x with heq | ⟨answer, heq⟩
  · rw [heq]
  · exact h answer _ heq

theorem expireAttemptLeases_idempotency (repo : RunRepository) (cutoff : Instant) :
    (repo.expireAttemptLeases cutoff).2.idempotency = repo.idempotency := by
  have hsteps := expireAttemptLeases_steps repo cutoff
  generalize (repo.expireAttemptLeases cutoff).2 = last at hsteps
  induction hsteps with
  | refl => rfl
  | tail _ hlast ih =>
    obtain ⟨attemptId, attempt, -, hexp, rfl⟩ := hlast
    obtain ⟨updated, -, ⟨heq, -⟩ | ⟨run, -, -, heq⟩⟩ := expireAttempt_cases _ cutoff attemptId hexp
    · rw [heq]
      exact ih
    · rw [heq]
      exact ih

/-- No operation takes a filed key away or files it again. -/
theorem act_entry (repo : RunRepository) (a : RepoAct) {key : String} {entry : String × UUID}
    (h : repo.idempotency.get? key = some entry) :
    (repo.act fingerprint a).idempotency.get? key = some entry := by
  cases a with
  | createOrGet newId now engine parameters raw =>
    simp only [act]
    split
    · exact h
    · rcases after_cases repo (createOrGet fingerprint repo newId now engine parameters raw) with heq | ⟨answer, heq⟩
      · rwa [heq]
      · obtain ⟨run, replayed⟩ := answer
        cases replayed with
        | true =>
          rcases createOrGet_ok heq with ⟨hsame, -⟩ | ⟨_, hanswer, -⟩
          · rwa [hsame]
          · simp at hanswer
        | false =>
          obtain ⟨-, -, hkeyed, hplain⟩ := createOrGet_created heq
          cases hraw : requestKey raw with
          | none => rwa [hplain hraw]
          | some own =>
            obtain ⟨hfree, hfiled⟩ := hkeyed own hraw
            rw [hfiled, Dict.get?_set_ne]
            · exact h
            · rintro rfl
              rw [hfree] at h
              cases h
  | transition runId target =>
    rw [act, idempotency_of_after]
    · exact h
    · intro answer repo' hok
      obtain ⟨run, -, -, -, rfl⟩ := transition_ok hok
      rfl
  | cancel runId =>
    rw [act, idempotency_of_after]
    · exact h
    · intro answer repo' hok
      obtain ⟨run, -, -, ⟨-, rfl⟩ | ⟨-, rfl⟩⟩ := cancel_ok hok <;> rfl
  | createAttempt runId attemptId newId now =>
    rw [act, idempotency_of_after]
    · exact h
    · intro answer repo' hok
      obtain ⟨_, -, -, -, rfl⟩ := createAttempt_ok hok
      rfl
  | beginAttempt runId attemptId runnerId leaseSeconds now =>
    rw [act, idempotency_of_after]
    · exact h
    · intro answer repo' hok
      obtain ⟨run, claimed, -, -, -, -, -, -, -, -, rfl⟩ := beginAttempt_ok hok
      rfl
  | claimAttempt attemptId runnerId leaseSeconds now =>
    rw [act, idempotency_of_after]
    · exact h
    · intro answer repo' hok
      obtain ⟨_, -, -, rfl⟩ := claimAttempt_ok hok
      rfl
  | transitionAttempt attemptId target =>
    rw [act, idempotency_of_after]
    · exact h
    · intro answer repo' hok
      obtain ⟨_, -, -, -, rfl⟩ := transitionAttempt_ok hok
      rfl
  | renewAttemptLease attemptId runnerId leaseSeconds now =>
    rw [act, idempotency_of_after]
    · exact h
    · intro answer repo' hok
      obtain ⟨_, -, -, -, -, -, rfl⟩ := renewAttemptLease_ok hok
      rfl
  | completeAttempt attemptId target result =>
    rw [act, idempotency_of_after]
    · exact h
    · intro answer repo' hok
      obtain ⟨_, -, -, -, -, rfl⟩ := completeAttempt_ok hok
      rfl
  | expireAttemptLeases cutoff =>
    rw [act, expireAttemptLeases_idempotency]
    exact h
  | appendEvent event =>
    rw [act, idempotency_of_after]
    · exact h
    · intro record repo' hok
      rcases appendEvent_ok hok with rfl | ⟨-, -, -, rfl⟩ <;> rfl

theorem RunWrite.present {a b : RunRepository} {runId : UUID} (h : RunWrite a b.runs)
    (hrun : (a.runs.get? runId).isSome) : (b.runs.get? runId).isSome := by
  generalize b.runs = runs at h ⊢
  cases h with
  | create run hnew hstate =>
    rw [Dict.get?_set]
    split
    · rfl
    · exact hrun
  | move other run target hold hmem =>
    rw [Dict.get?_set]
    split
    · rfl
    · exact hrun

theorem FiledUnder.act {key saved : String} {runId : UUID} (h : FiledUnder repo key saved runId) (a : RepoAct) :
    FiledUnder (repo.act fingerprint a) key saved runId := by
  have hstep (a b : RunRepository) (_ : Filed a) (hw : Write a b) (hp : (a.runs.get? runId).isSome) :
      (b.runs.get? runId).isSome := by
    rcases hw.runs with hsame | hrun
    · rwa [hsame]
    · exact hrun.present hp
  obtain ⟨hfiled, hpresent⟩ := act_induct hstep repo a h.filed h.present
  exact ⟨hfiled, act_entry repo a h.entry, hpresent⟩

theorem FiledUnder.acts {key saved : String} {runId : UUID} (h : FiledUnder repo key saved runId)
    (history : List RepoAct) : FiledUnder (repo.acts fingerprint history) key saved runId := by
  apply acts_keep (P := fun repo => FiledUnder repo key saved runId) _ history h
  intro before a hbefore
  exact hbefore.act a

theorem filed_acts (history : List RepoAct) (h : Filed repo) : Filed (repo.acts fingerprint history) := by
  apply acts_keep _ history h
  intro before a hbefore
  exact (act_induct (P := fun _ => True) (fun _ _ _ _ _ => trivial) before a hbefore trivial).1

/-- The key of a call that created a run is filed for its request. -/
theorem filedUnder_created {repo' : RunRepository} {run : RunRecord} {newId : UUID} {now : Instant}
    {engine : Engine} {parameters : Dict String Json} {raw : Option String} {key : String}
    (hkey : requestKey raw = some key) (hfiled : Filed repo)
    (h : createOrGet fingerprint repo newId now engine parameters raw = .ok ((run, false), repo')) :
    FiledUnder repo' key (fingerprint engine parameters) run.id := by
  obtain ⟨rfl, hruns, hkeyed, -⟩ := createOrGet_created h
  obtain ⟨-, hentry⟩ := hkeyed key hkey
  refine ⟨?_, ?_, ?_⟩
  · intro runId record hrecord
    rw [hruns, Dict.get?_set] at hrecord
    split at hrecord
    · next heq =>
      cases hrecord
      exact heq.symm
    · exact hfiled runId record hrecord
  · rw [hentry, Dict.get?_set_self]
  · rw [hruns, Dict.get?_set_self]
    rfl

end RunRepository

open RunRepository

/-! ## Fingerprints identify requests -/

/-- The hashed texts are equal exactly for equal requests. So a key that a request was filed under answers
that request with its run, however the run went on, and refuses every other. -/
theorem fingerprints_identify_requests (sha256 : String → String) (floatText : Rat → List Char)
    (readFloat : List Char → Option Rat) (isFloat : Rat → Prop)
    (hs : (asciiSpelling floatText).Faithful readFloat isFloat) (engine other : Engine)
    (parameters changed : Dict String Json) (hparameters : Json.WellFormedFields isFloat parameters.entries)
    (hchanged : Json.WellFormedFields isFloat changed.entries) :
    (canonicalRequest floatText engine parameters = canonicalRequest floatText other changed ↔
      engine = other ∧ (Json.obj parameters.entries).same (.obj changed.entries) = true) ∧
    ((sha256 (canonicalRequest floatText engine parameters) = sha256 (canonicalRequest floatText other changed) →
        canonicalRequest floatText engine parameters = canonicalRequest floatText other changed) →
      ∀ (before between : List RepoAct) (newId laterId : UUID) (now later : Instant) (raw again : Option String)
        (run : RunRecord) (repo : RunRepository),
        createOrGet (fingerprintOf sha256 floatText) (acts (fingerprintOf sha256 floatText) .empty before) newId now
          engine parameters raw = .ok ((run, false), repo) →
        requestKey again = requestKey raw → (requestKey raw).isSome →
        (engine = other ∧ (Json.obj parameters.entries).same (.obj changed.entries) = true →
          ∃ found, found.id = run.id ∧
            createOrGet (fingerprintOf sha256 floatText) (repo.acts (fingerprintOf sha256 floatText) between) laterId
              later other changed again = .ok ((found, true), repo.acts (fingerprintOf sha256 floatText) between)) ∧
        (¬(engine = other ∧ (Json.obj parameters.entries).same (.obj changed.entries) = true) →
          createOrGet (fingerprintOf sha256 floatText) (repo.acts (fingerprintOf sha256 floatText) between) laterId
            later other changed again =
              .error ⟨.idempotencyConflict, "idempotency key was used for another request"⟩)) := by
  have hcanonical := canonicalRequest_eq_iff hs engine other hparameters hchanged
  refine ⟨hcanonical, ?_⟩
  intro hsha before between newId laterId now later raw again run repo hcreated hagain hsome
  obtain ⟨key, hkey⟩ := Option.isSome_iff_exists.mp hsome
  have hempty : Filed .empty := fun runId record hrecord => by cases hrecord
  have hfiled : FiledUnder (repo.acts (fingerprintOf sha256 floatText) between) key
      (fingerprintOf sha256 floatText engine parameters) run.id :=
    (filedUnder_created hkey (filed_acts before hempty) hcreated).acts between
  obtain ⟨found, hfound⟩ := Option.isSome_iff_exists.mp hfiled.present
  have hdigest : fingerprintOf sha256 floatText engine parameters = fingerprintOf sha256 floatText other changed ↔
      engine = other ∧ (Json.obj parameters.entries).same (.obj changed.entries) = true := by
    rw [← hcanonical]
    exact ⟨hsha, fun h => congrArg sha256 h⟩
  constructor
  · intro hsame
    refine ⟨found, hfiled.filed _ _ hfound, ?_⟩
    rw [createOrGet_of_entry (hagain.trans hkey) hfiled.entry hfound, if_pos (hdigest.mpr hsame)]
  · intro hdiffer
    rw [createOrGet_of_entry (hagain.trans hkey) hfiled.entry hfound, if_neg fun h => hdiffer (hdigest.mp h)]

/-- 1/3, which is no double, for -0.0. -/
def negativeZero : Rat := ⟨1, 3, by decide, by decide⟩

def shortRepr (q : Rat) : List Char :=
  if q = 2 then ['2', '.', '0'] else if q = negativeZero then ['-', '0', '.', '0'] else ['0', '.', '0']

def shortFloat (text : List Char) : Option Rat :=
  if text = ['2', '.', '0'] then some 2
  else if text = ['-', '0', '.', '0'] then some negativeZero
  else if text = ['0', '.', '0'] then some 0
  else none

theorem shortRepr_faithful :
    (asciiSpelling shortRepr).Faithful shortFloat fun q => q = 0 ∨ q = 2 ∨ q = negativeZero where
  raw := asciiSpelling_sound shortRepr
  scans q h := by rcases h with rfl | rfl | rfl <;> decide
  reads q h := by rcases h with rfl | rfl | rfl <;> decide

def nightlyParameters : Dict String Json :=
  ⟨[("target", .obj [("port", .int 8080), ("host", .str "api")]), ("ratio", .float 2)], by decide⟩

def reorderedParameters : Dict String Json :=
  ⟨[("ratio", .float 2), ("target", .obj [("host", .str "api"), ("port", .int 8080)])], by decide⟩

/-- The digest of the one text that is hashed. -/
def nightlyDigest (_ : String) : String := "c4f9eba246a66191322b1b11065621361f240fd899e0bf38a5821c78fc4b4867"

def nightlyRun : RunRecord := ⟨⟨"run-1"⟩, .http, nightlyParameters, .created, 0, 0⟩

def nightlyRepository : RunRepository :=
  { RunRepository.empty.putRun nightlyRun with
    idempotency := RunRepository.empty.idempotency.set "nightly" ("c4f9eba246a66191322b1b11065621361f240fd899e0bf38a5821c78fc4b4867", ⟨"run-1"⟩) }

theorem reordered_request_replayed :
    ∃ found, found.id = ⟨"run-1"⟩ ∧
      createOrGet (fingerprintOf nightlyDigest shortRepr)
          (nightlyRepository.acts (fingerprintOf nightlyDigest shortRepr) [.cancel ⟨"run-1"⟩]) ⟨"run-2"⟩ 1 .http
          reorderedParameters (some " nightly ") =
        .ok ((found, true), nightlyRepository.acts (fingerprintOf nightlyDigest shortRepr) [.cancel ⟨"run-1"⟩]) :=
  ((fingerprints_identify_requests nightlyDigest shortRepr shortFloat _ shortRepr_faithful .http .http
      nightlyParameters reorderedParameters
      (by simp [nightlyParameters, Json.WellFormedFields, Json.WellFormed])
      (by simp [reorderedParameters, Json.WellFormedFields, Json.WellFormed])).2
    (fun _ => (canonicalRequest_eq_iff shortRepr_faithful .http .http
      (by simp [nightlyParameters, Json.WellFormedFields, Json.WellFormed])
      (by simp [reorderedParameters, Json.WellFormedFields, Json.WellFormed])).mpr ⟨rfl, by decide⟩)
    [] [.cancel ⟨"run-1"⟩] ⟨"run-1"⟩ ⟨"run-2"⟩ 0 1 (some "nightly") (some " nightly ") nightlyRun nightlyRepository
    rfl (by decide) (by decide)).1 ⟨rfl, by decide⟩

end SmartTest.Run
