import SmartTest.Run.SqlRepository

/-!
# Idempotent creation

The two repositories answer `create_or_get` alike, as long as at most one call of the
history gives a key that is there and blank: the table stores the empty text for it, where
the dictionary stores nothing, and the unique constraint takes the empty text for a key.
-/

open SmartTest.Lib

namespace SmartTest.Run

/-- A call of `create_or_get`, with the id `uuid4` draws for it and the time it reads. -/
structure CreateCall where
  newId : UUID
  now : Instant
  engine : Engine
  parameters : Dict String Json
  idempotencyKey : Option String

abbrev CreateAnswer := Except Exn (RunRecord × Bool)

namespace CreateCall

/-- The key a call has: what is left of it after stripping, unless that is nothing. -/
def key (call : CreateCall) : Option String := (call.idempotencyKey.map strip).filter (· ≠ "")

/-- A key that is there and that stripping empties. -/
def blank (call : CreateCall) : Bool := call.idempotencyKey.any fun raw => raw ≠ "" && strip raw = ""

/-- The run a call creates. -/
def run (call : CreateCall) : RunRecord :=
  ⟨call.newId, call.engine, call.parameters, .created, call.now, 0⟩

end CreateCall

variable (fingerprint : Engine → Dict String Json → String)

def CreateCall.digest (call : CreateCall) : String := fingerprint call.engine call.parameters

/-! ## The contract -/

/-- The first earlier call with the same key decides: its run comes back for the same request, and any
other request is refused. Without a key, or with a new one, a run is created. -/
def contractAnswer (earlier : List CreateCall) (call : CreateCall) : CreateAnswer :=
  match call.key.bind fun key => earlier.find? (·.key = some key) with
  | none => .ok (call.run, false)
  | some first =>
    if first.digest fingerprint = call.digest fingerprint then .ok (first.run, true)
    else .error ⟨.idempotencyConflict, "idempotency key was used for another request"⟩

def contractAnswers (earlier : List CreateCall) : List CreateCall → List CreateAnswer
  | [] => []
  | call :: rest => contractAnswer fingerprint earlier call :: contractAnswers (earlier ++ [call]) rest

/-! ## What the repositories answer -/

def memoryAnswers (repo : RunRepository) : List CreateCall → List CreateAnswer
  | [] => []
  | call :: rest =>
    match repo.createOrGet fingerprint call.newId call.now call.engine call.parameters call.idempotencyKey with
    | .ok (answer, repo) => .ok answer :: memoryAnswers repo rest
    | .error e => .error e :: memoryAnswers repo rest

def sqlAnswers (repo : SqlRunRepository) : List CreateCall → List CreateAnswer
  | [] => []
  | call :: rest =>
    let (answer, repo) :=
      repo.createOrGet fingerprint call.newId call.now call.engine call.parameters call.idempotencyKey
    answer :: sqlAnswers repo rest

def created (answer : CreateAnswer) : Bool := answer matches .ok (_, false)

/-- What idempotent creation promises of the answers to `calls`. -/
structure Honours (calls : List CreateCall) (answers : List CreateAnswer) : Prop where
  answered : answers = contractAnswers fingerprint [] calls
  single : ∀ key, (calls.zip answers).countP (fun p => p.1.key = some key && created p.2) ≤ 1

variable {fingerprint}

theorem contractAnswer_created {earlier : List CreateCall} {call : CreateCall} {key : String}
    (hkey : call.key = some key) (h : created (contractAnswer fingerprint earlier call) = true) :
    earlier.find? (·.key = some key) = none := by
  simp only [contractAnswer, hkey, Option.bind_some] at h
  split at h
  · next heq => exact heq
  · split at h <;> simp [created] at h

theorem contract_single (key : String) (earlier calls : List CreateCall) :
    (calls.zip (contractAnswers fingerprint earlier calls)).countP (fun p => p.1.key = some key && created p.2)
      ≤ if (earlier.find? (·.key = some key)).isSome then 0 else 1 := by
  induction calls generalizing earlier with
  | nil => simp [contractAnswers]
  | cons call rest ih =>
    have hrest := ih (earlier ++ [call])
    simp only [contractAnswers, List.zip_cons_cons, List.countP_cons]
    by_cases hkey : call.key = some key
    · have hseen : ((earlier ++ [call]).find? (·.key = some key)).isSome := by simp [hkey]
      rw [if_pos hseen] at hrest
      split
      · next hc =>
        -- this call creates the run of the key, so no earlier one has it
        rw [Bool.and_eq_true] at hc
        rw [contractAnswer_created hkey hc.2]
        simp only [Option.isSome_none, Bool.false_eq_true, if_false]
        omega
      · split <;> omega
    · have hsame : (earlier ++ [call]).find? (·.key = some key) = earlier.find? (·.key = some key) := by
        simp [List.find?_append, hkey]
      rw [hsame] at hrest
      simpa [hkey] using hrest

/-! ## The in-memory repository -/

/-- The dictionaries hold the first call of each key. -/
structure MemoryHolds (fingerprint : Engine → Dict String Json → String) (earlier : List CreateCall)
    (repo : RunRepository) : Prop where
  idempotency : ∀ key, repo.idempotency.get? key =
    (earlier.find? (·.key = some key)).map fun first => (first.digest fingerprint, first.newId)
  runs : ∀ key first, earlier.find? (·.key = some key) = some first →
    repo.runs.get? first.newId = some first.run

/-- A call with a known key answers from the call that brought it; any other creates its run. -/
theorem MemoryHolds.createOrGet_eq {earlier : List CreateCall} {repo : RunRepository}
    (h : MemoryHolds fingerprint earlier repo) (call : CreateCall) :
    repo.createOrGet fingerprint call.newId call.now call.engine call.parameters call.idempotencyKey =
      (contractAnswer fingerprint earlier call).map fun answer =>
        (answer, if created (.ok answer) then
          { repo.putRun call.run with idempotency :=
              match call.key with
              | some key => repo.idempotency.set key (call.digest fingerprint, call.newId)
              | none => repo.idempotency }
          else repo) := by
  have hbind : call.key.bind repo.idempotency.get? =
      (call.key.bind fun key => earlier.find? (·.key = some key)).map
        fun first => (first.digest fingerprint, first.newId) := by
    cases call.key with
    | none => rfl
    | some key => exact h.idempotency key
  have hkey : (call.idempotencyKey.map strip).filter (· ≠ "") = call.key := rfl
  simp only [RunRepository.createOrGet, contractAnswer, hkey, hbind]
  cases hfirst : call.key.bind fun key => earlier.find? (·.key = some key) with
  | none => rfl
  | some first =>
    have hrun : repo.runs.get? first.newId = some first.run := by
      obtain ⟨key, -, hfind⟩ := Option.bind_eq_some_iff.mp hfirst
      exact h.runs key first hfind
    have hdigest : fingerprint call.engine call.parameters = call.digest fingerprint := rfl
    by_cases hfp : first.digest fingerprint = call.digest fingerprint
    · simp [hdigest, hfp, hrun, created, Except.map]
      rfl
    · simp [hdigest, hfp, Except.map]
      rfl

theorem find?_append_singleton (earlier : List CreateCall) (call : CreateCall) (key : String) :
    (earlier ++ [call]).find? (·.key = some key) =
      (earlier.find? (·.key = some key)).or (if call.key = some key then some call else none) := by
  rw [List.find?_append]
  by_cases hkey : call.key = some key <;> simp [hkey]

/-- A call that creates nothing brings no key. -/
theorem find?_of_not_created {earlier : List CreateCall} {call : CreateCall}
    (h : created (contractAnswer fingerprint earlier call) = false) (key : String) :
    (earlier ++ [call]).find? (·.key = some key) = earlier.find? (·.key = some key) := by
  rw [find?_append_singleton]
  by_cases hkey : call.key = some key
  · cases hfind : earlier.find? (·.key = some key) with
    | none => simp [contractAnswer, hkey, hfind, created] at h
    | some first => rfl
  · rw [if_neg hkey, Option.or_none]

theorem MemoryHolds.creates {earlier : List CreateCall} {repo : RunRepository} {call : CreateCall}
    (h : MemoryHolds fingerprint earlier repo) (hnew : call.newId ∉ earlier.map CreateCall.newId)
    (hcreated : created (contractAnswer fingerprint earlier call) = true) :
    MemoryHolds fingerprint (earlier ++ [call])
      { repo.putRun call.run with idempotency :=
          match call.key with
          | some key => repo.idempotency.set key (call.digest fingerprint, call.newId)
          | none => repo.idempotency } where
  idempotency key := by
    rw [find?_append_singleton]
    cases hkey : call.key with
    | none => simpa using h.idempotency key
    | some own =>
      by_cases heq : own = key
      · subst heq
        rw [contractAnswer_created hkey hcreated]
        simp
      · rw [if_neg (by simpa using heq), Option.or_none, ← h.idempotency key]
        exact Dict.get?_set_ne _ _ (Ne.symm heq)
  runs key first hfind := by
    rw [find?_append_singleton, Option.or_eq_some_iff] at hfind
    rcases hfind with hold | ⟨-, hown⟩
    · have hne : first.newId ≠ call.newId := by
        rintro heq
        exact hnew (heq ▸ List.mem_map_of_mem (List.mem_of_find?_eq_some hold))
      rw [← h.runs key first hold]
      exact Dict.get?_set_ne _ _ hne
    · split at hown
      · obtain rfl := Option.some.inj hown
        exact Dict.get?_set_self ..
      · simp at hown

theorem newId_fresh {earlier rest : List CreateCall} {call : CreateCall}
    (hids : ((earlier ++ call :: rest).map CreateCall.newId).Nodup) :
    call.newId ∉ earlier.map CreateCall.newId := by
  rw [List.map_append] at hids
  intro hmem
  exact (List.nodup_append.mp hids).2.2 _ hmem _ (by simp) rfl

theorem MemoryHolds.answers {earlier : List CreateCall} {repo : RunRepository}
    (h : MemoryHolds fingerprint earlier repo) (calls : List CreateCall)
    (hids : ((earlier ++ calls).map CreateCall.newId).Nodup) :
    memoryAnswers fingerprint repo calls = contractAnswers fingerprint earlier calls := by
  induction calls generalizing earlier repo with
  | nil => rfl
  | cons call rest ih =>
    have hids' : ((earlier ++ [call] ++ rest).map CreateCall.newId).Nodup := by simpa using hids
    have hnew := newId_fresh hids
    have hquiet (hc : created (contractAnswer fingerprint earlier call) = false) :
        MemoryHolds fingerprint (earlier ++ [call]) repo :=
      ⟨fun key => by rw [find?_of_not_created hc, h.idempotency],
        fun key first hfind => h.runs key first (by rwa [find?_of_not_created hc] at hfind)⟩
    simp only [memoryAnswers, contractAnswers, h.createOrGet_eq]
    cases hanswer : contractAnswer fingerprint earlier call with
    | error e =>
      have hc : created (contractAnswer fingerprint earlier call) = false := by rw [hanswer]; rfl
      simp only [Except.map, ih (hquiet hc) hids']
    | ok answer =>
      simp only [Except.map]
      cases hc : created (.ok answer) with
      | true => simp only [if_true, ih (h.creates hnew (hanswer ▸ hc)) hids']
      | false => simp only [Bool.false_eq_true, if_false, ih (hquiet (hanswer ▸ hc)) hids']

/-! ## The table -/

theorem storedKey_filter (call : CreateCall) :
    (SqlRunRepository.storedKey call.idempotencyKey).filter (· ≠ "") = call.key := by
  cases hraw : call.idempotencyKey with
  | none => simp [SqlRunRepository.storedKey, CreateCall.key, hraw]
  | some raw =>
    by_cases hempty : raw = ""
    · subst hempty
      simp [SqlRunRepository.storedKey, CreateCall.key, hraw, Option.filter_some, show strip "" = "" from rfl]
    · simp [SqlRunRepository.storedKey, CreateCall.key, hraw, Option.filter_some, hempty]

theorem storedKey_empty_iff (call : CreateCall) :
    SqlRunRepository.storedKey call.idempotencyKey = some "" ↔ call.blank = true := by
  cases hraw : call.idempotencyKey with
  | none => simp [SqlRunRepository.storedKey, CreateCall.blank, hraw]
  | some raw => by_cases hempty : raw = "" <;> simp [SqlRunRepository.storedKey, CreateCall.blank, hraw, hempty]

theorem key_eq_none_of_blank {call : CreateCall} (h : call.blank = true) : call.key = none := by
  rw [← storedKey_filter, (storedKey_empty_iff call).mpr h]
  rfl

/-- The row a call inserts. -/
def CreateCall.row (fingerprint : Engine → Dict String Json → String) (call : CreateCall) : RunModel :=
  ⟨call.newId, call.engine, call.parameters, SqlRunRepository.storedKey call.idempotencyKey,
    call.digest fingerprint, .created, call.now, 0⟩

theorem row_key_iff (fingerprint : Engine → Dict String Json → String) (call : CreateCall) {key : String} (hkey : key ≠ "") :
    (call.row fingerprint).idempotencyKey = some key ↔ call.key = some key := by
  rw [← storedKey_filter, Option.filter_eq_some_iff]
  simp [CreateCall.row, hkey]

/-- The table holds the row of the first call of each key, and a row with the empty text once a call with
a blank key was made. -/
structure SqlHolds (fingerprint : Engine → Dict String Json → String) (earlier : List CreateCall)
    (repo : SqlRunRepository) : Prop where
  keyed : ∀ key, key ≠ "" → repo.getByKey key =
    (earlier.find? (·.key = some key)).map (CreateCall.row fingerprint)
  blank : (repo.rows.any (·.idempotencyKey = some "")) = earlier.any CreateCall.blank
  known : ∀ row ∈ repo.rows, row.id ∈ earlier.map CreateCall.newId

theorem key_ne_empty {call : CreateCall} {key : String} (h : call.key = some key) : key ≠ "" := by
  have := (Option.filter_eq_some_iff.mp h).2
  simpa using this

theorem SqlHolds.bind_getByKey {earlier : List CreateCall} {repo : SqlRunRepository}
    (h : SqlHolds fingerprint earlier repo) (call : CreateCall) :
    call.key.bind repo.getByKey =
      (call.key.bind fun key => earlier.find? (·.key = some key)).map (CreateCall.row fingerprint) := by
  cases hkey : call.key with
  | none => rfl
  | some key => exact h.keyed key (key_ne_empty hkey)

/-- A row with a new id and no known key is refused only for a second blank key. -/
theorem SqlHolds.violates_eq {earlier : List CreateCall} {repo : SqlRunRepository}
    (h : SqlHolds fingerprint earlier repo) {call : CreateCall}
    (hnew : call.newId ∉ earlier.map CreateCall.newId)
    (hfree : call.key.bind (fun key => earlier.find? (·.key = some key)) = none) :
    repo.violates (call.row fingerprint) = (call.blank && earlier.any CreateCall.blank) := by
  have hid : ∀ other ∈ repo.rows, other.id ≠ call.newId := fun other hmem heq => hnew (heq ▸ h.known other hmem)
  have hdrop : repo.violates (call.row fingerprint) = repo.rows.any fun other =>
      (call.row fingerprint).idempotencyKey.isSome &&
        other.idempotencyKey = (call.row fingerprint).idempotencyKey := by
    rw [Bool.eq_iff_iff, SqlRunRepository.violates, List.any_eq_true, List.any_eq_true]
    refine exists_congr fun other => and_congr_right fun hmem => ?_
    have hne : decide (other.id = (call.row fingerprint).id) = false := decide_eq_false (hid other hmem)
    rw [hne, Bool.false_or]
  rw [hdrop]
  cases hstored : SqlRunRepository.storedKey call.idempotencyKey with
  | none =>
    have hb : call.blank = false := by
      rw [← Bool.not_eq_true, ← storedKey_empty_iff, hstored]
      simp
    simp [CreateCall.row, hstored, hb]
  | some key =>
    by_cases hkey : key = ""
    · subst hkey
      rw [(storedKey_empty_iff call).mp hstored, ← h.blank]
      simp [CreateCall.row, hstored]
    · have hown : call.key = some key := (row_key_iff fingerprint call hkey).mp hstored
      have hb : call.blank = false := by
        rw [← Bool.not_eq_true, ← storedKey_empty_iff, hstored]
        simpa using hkey
      have hnone : repo.getByKey key = none := by
        rw [h.keyed key hkey]
        simpa [hown] using hfree
      simpa [CreateCall.row, hstored, hb, SqlRunRepository.getByKey] using hnone

theorem SqlHolds.createOrGet_eq {earlier : List CreateCall} {repo : SqlRunRepository}
    (h : SqlHolds fingerprint earlier repo) {call : CreateCall}
    (hnew : call.newId ∉ earlier.map CreateCall.newId) :
    repo.createOrGet fingerprint call.newId call.now call.engine call.parameters call.idempotencyKey =
      if call.blank && earlier.any CreateCall.blank then (.error SqlRunRepository.integrityError, repo)
      else (contractAnswer fingerprint earlier call,
        if created (contractAnswer fingerprint earlier call) then ⟨repo.rows ++ [call.row fingerprint]⟩
        else repo) := by
  have hkey := storedKey_filter call
  have hdigest : fingerprint call.engine call.parameters = call.digest fingerprint := rfl
  simp only [SqlRunRepository.createOrGet, hkey, h.bind_getByKey, hdigest]
  cases hfirst : call.key.bind fun key => earlier.find? (·.key = some key) with
  | some first =>
    -- a call with a key is not blank
    have hb : call.blank = false := by
      rw [← Bool.not_eq_true]
      intro hblank
      simp [key_eq_none_of_blank hblank] at hfirst
    by_cases hfp : first.digest fingerprint = call.digest fingerprint
    · simp [contractAnswer, hfirst, hb, hfp, SqlRunRepository.resolveIdempotency, CreateCall.row, created]
      rfl
    · simp [contractAnswer, hfirst, hb, hfp, SqlRunRepository.resolveIdempotency, CreateCall.row, created]
  | none =>
    have hrow : (⟨call.newId, call.engine, call.parameters, SqlRunRepository.storedKey call.idempotencyKey,
        call.digest fingerprint, .created, call.now, 0⟩ : RunModel) = call.row fingerprint := rfl
    have hcontract : contractAnswer fingerprint earlier call = .ok (call.run, false) := by
      simp [contractAnswer, hfirst]
    simp only [Option.map_none, hrow, SqlRunRepository.insert, h.violates_eq hnew hfirst, hcontract]
    by_cases hb : (call.blank && earlier.any CreateCall.blank) = true
    · have hnokey := key_eq_none_of_blank (Bool.and_eq_true_iff.mp hb).1
      simp only [hb, if_true, SqlRunRepository.afterConflict, hkey, hnokey]
    · simp only [if_neg hb]
      rfl

theorem SqlHolds.keeps {earlier : List CreateCall} {repo : SqlRunRepository} {call : CreateCall}
    (h : SqlHolds fingerprint earlier repo)
    (hc : created (contractAnswer fingerprint earlier call) = false) :
    SqlHolds fingerprint (earlier ++ [call]) repo where
  keyed key hkey := by rw [find?_of_not_created hc, h.keyed key hkey]
  blank := by
    have hb : call.blank = false := by
      rw [← Bool.not_eq_true]
      intro hblank
      simp [contractAnswer, key_eq_none_of_blank hblank, created] at hc
    simp [h.blank, hb]
  known row hrow := by simp [h.known row hrow]

theorem SqlHolds.creates {earlier : List CreateCall} {repo : SqlRunRepository} {call : CreateCall}
    (h : SqlHolds fingerprint earlier repo)
    (hc : created (contractAnswer fingerprint earlier call) = true) :
    SqlHolds fingerprint (earlier ++ [call]) ⟨repo.rows ++ [call.row fingerprint]⟩ where
  keyed key hkey := by
    have hold : repo.rows.find? (·.idempotencyKey = some key) =
        (earlier.find? (·.key = some key)).map (CreateCall.row fingerprint) := h.keyed key hkey
    rw [find?_append_singleton, SqlRunRepository.getByKey, List.find?_append, hold]
    by_cases hown : call.key = some key
    · rw [contractAnswer_created hown hc, if_pos hown]
      simp [(row_key_iff fingerprint call hkey).mpr hown]
    · have hrow : ¬ (call.row fingerprint).idempotencyKey = some key := by rwa [row_key_iff fingerprint call hkey]
      simp [hown, hrow]
  blank := by
    have hb : decide ((call.row fingerprint).idempotencyKey = some "") = call.blank := by
      rw [Bool.eq_iff_iff, decide_eq_true_iff]
      exact storedKey_empty_iff call
    simp [h.blank, hb]
  known row hrow := by
    rcases List.mem_append.mp hrow with hold | hown
    · simp [h.known row hold]
    · obtain rfl := List.mem_singleton.mp hown
      simp [CreateCall.row]

/-- The table answers as promised up to the second blank key. -/
theorem SqlHolds.answers_iff {earlier : List CreateCall} {repo : SqlRunRepository}
    (h : SqlHolds fingerprint earlier repo) (calls : List CreateCall)
    (hids : ((earlier ++ calls).map CreateCall.newId).Nodup) :
    sqlAnswers fingerprint repo calls = contractAnswers fingerprint earlier calls ↔
      (calls.countP CreateCall.blank) ≤ if earlier.any CreateCall.blank then 0 else 1 := by
  induction calls generalizing earlier repo with
  | nil => simp [sqlAnswers, contractAnswers]
  | cons call rest ih =>
    have hids' : ((earlier ++ [call] ++ rest).map CreateCall.newId).Nodup := by simpa using hids
    have hnew := newId_fresh hids
    simp only [sqlAnswers, contractAnswers, h.createOrGet_eq hnew, List.countP_cons]
    by_cases hb : (call.blank && earlier.any CreateCall.blank) = true
    · obtain ⟨hown, hseen⟩ := Bool.and_eq_true_iff.mp hb
      have hne : contractAnswer fingerprint earlier call ≠ .error SqlRunRepository.integrityError := by
        simp [contractAnswer, key_eq_none_of_blank hown]
      simp [hown, hseen, hne.symm]
    · simp only [if_neg hb, List.cons.injEq, true_and]
      have hnext : SqlHolds fingerprint (earlier ++ [call])
          (if created (contractAnswer fingerprint earlier call) then ⟨repo.rows ++ [call.row fingerprint]⟩
            else repo) := by
        split
        · next hc => exact h.creates hc
        · next hc => exact h.keeps (Bool.not_eq_true _ ▸ hc)
      rw [ih hnext hids', List.any_append, List.any_cons, List.any_nil, Bool.or_false]
      generalize earlier.any CreateCall.blank = seen at hb
      generalize call.blank = own at hb
      cases seen <;> cases own <;> simp_all

/-! ## Agreement -/

/-- Both repositories keep the contract, and so agree call by call, exactly when at most one call of the
history has a key that is there and blank. -/
theorem creation_agrees_iff (fingerprint : Engine → Dict String Json → String) (calls : List CreateCall)
    (hids : (calls.map CreateCall.newId).Nodup) :
    (memoryAnswers fingerprint .empty calls = sqlAnswers fingerprint .empty calls ∧
      Honours fingerprint calls (memoryAnswers fingerprint .empty calls) ∧
      Honours fingerprint calls (sqlAnswers fingerprint .empty calls)) ↔
    calls.countP CreateCall.blank ≤ 1 := by
  have hmemory : memoryAnswers fingerprint .empty calls = contractAnswers fingerprint [] calls :=
    MemoryHolds.answers ⟨fun _ => rfl, by simp⟩ calls (by simpa using hids)
  have hsql : sqlAnswers fingerprint .empty calls = contractAnswers fingerprint [] calls ↔ _ :=
    SqlHolds.answers_iff ⟨fun _ _ => rfl, rfl, by simp [SqlRunRepository.empty]⟩ calls (by simpa using hids)
  have hhonours : Honours fingerprint calls (contractAnswers fingerprint [] calls) :=
    ⟨rfl, fun key => contract_single key [] calls⟩
  constructor
  · rintro ⟨-, -, h⟩
    exact hsql.mp h.answered
  · intro h
    rw [hmemory, hsql.mpr h]
    exact ⟨rfl, hhonours, hhonours⟩

/-- Two requests for an empty HTTP run, under the given keys. -/
def twoCalls (first second : String) : List CreateCall :=
  [⟨⟨"run-1"⟩, 0, .http, .empty, some first⟩, ⟨⟨"run-2"⟩, 1, .http, .empty, some second⟩]

/-- The digest of the one request of `twoCalls`. -/
def oneDigest : Engine → Dict String Json → String := fun _ _ => "44136fa355b3678a"

theorem padded_key_replayed :
    memoryAnswers oneDigest .empty (twoCalls "nightly" " nightly ") =
      sqlAnswers oneDigest .empty (twoCalls "nightly" " nightly ") :=
  ((creation_agrees_iff oneDigest (twoCalls "nightly" " nightly ") (by decide)).mpr (by decide)).1

theorem second_blank_key_refused :
    ((twoCalls " " " ").map CreateCall.newId).Nodup ∧
      memoryAnswers oneDigest .empty (twoCalls " " " ") ≠ sqlAnswers oneDigest .empty (twoCalls " " " ") ∧
      (sqlAnswers oneDigest .empty (twoCalls " " " "))[1]? = some (.error SqlRunRepository.integrityError) := by
  refine ⟨by decide, fun heq => ?_, rfl⟩
  have hcreated : (memoryAnswers oneDigest .empty (twoCalls " " " ")).map created = [true, true] := by
    decide +kernel
  rw [heq] at hcreated
  exact absurd hcreated (by decide +kernel)

end SmartTest.Run
