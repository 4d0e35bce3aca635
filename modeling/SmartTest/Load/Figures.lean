import SmartTest.Lib.Sample
import SmartTest.Load.Redaction

/-!
# The figures of a load test

`_MetricValues` and `_Metrics` of `services/api/load_test_executor.py` with their latencies and
response samples, and the snapshots made of them. Latencies are rational numbers. Of the
arithmetic of floats two operations are left open: the rounding of a figure, and the product
that says which place of the sorted latencies a percentile is.
-/

open SmartTest.Lib SmartTest.Run

namespace SmartTest.Load

def SAMPLE_LIMIT : Nat := 10000
def SUCCESS_RESPONSE_SAMPLES : Nat := 5
def FAILED_RESPONSE_SAMPLES : Nat := 10

/-- `round(figure, 3)`, and `n * ratio` in floats. -/
structure FloatArithmetic where
  round : Rat → Rat
  times : Nat → Rat → Rat

/-! ## Recording -/

/-- `_MetricValues`, with its latencies. -/
structure MeasuredValues extends MetricValues where
  latencies : List Rat
  latencySum : Rat
  minimum : Option Rat
  maximum : Option Rat

namespace MeasuredValues

def empty : MeasuredValues := ⟨.empty, [], 0, none, none⟩

/-- `_MetricValues.add`, where `randrange` gives `draw`. -/
def add (values : MeasuredValues) (latency : Rat) (success : Bool) (status : Option Int) (error : Option String)
    (draw : Nat) : MeasuredValues where
  toMetricValues := values.toMetricValues.add success status error
  latencies := keepSample SAMPLE_LIMIT (draw % (values.total + 1)) values.latencies latency
  latencySum := values.latencySum + latency
  minimum := some (values.minimum.elim latency (min · latency))
  maximum := some (values.maximum.elim latency (max · latency))

end MeasuredValues

structure ResponseSample where
  target : String
  status : Option Int
  latencyMs : Rat
  error : Option String
  body : Option Json
  bodyKind : String
  truncated : Bool

/-- The arguments of `_Metrics.add`, with what `randrange` gives for all requests and for those of the target. -/
structure Measurement where
  name : String
  latency : Rat
  success : Bool
  status : Option Int
  error : Option String
  response : Option CapturedDetails
  drawAll : Nat
  drawTarget : Nat

def Measurement.sample (float : FloatArithmetic) (m : Measurement) : ResponseSample :=
  let details := m.response.getD ⟨⟨none, "unavailable", false, 0⟩, none⟩
  { target := m.name, status := m.status, latencyMs := float.round m.latency, error := m.error
    body := details.sampleBody
    bodyKind := if details.bodyKind ∈ ["json", "empty"] then details.bodyKind
      else if details.truncated then "truncated" else "non_json"
    truncated := details.truncated }

/-- `_Metrics`. -/
structure MeasuredMetrics where
  all : MeasuredValues
  targets : Dict String MeasuredValues
  scenarios : MeasuredValues
  successful : List ResponseSample
  failed : List ResponseSample

inductive MetricsCall where
  | add (m : Measurement)
  | addScenario (latency : Rat) (success : Bool) (draw : Nat)

def appendBelow {α : Type} (limit : Nat) (l : List α) (x : α) : List α := if l.length < limit then l ++ [x] else l

namespace MeasuredMetrics

variable (float : FloatArithmetic)

def empty (targetNames : List String) : MeasuredMetrics where
  all := .empty
  targets := targetNames.foldl (fun targets name => targets.set name .empty) .empty
  scenarios := .empty
  successful := []
  failed := []

/-- The sample of a response, while there are fewer than the limit. -/
def keepResponse (metrics : MeasuredMetrics) (m : Measurement) : MeasuredMetrics :=
  if m.success then
    { metrics with successful := appendBelow SUCCESS_RESPONSE_SAMPLES metrics.successful (m.sample float) }
  else { metrics with failed := appendBelow FAILED_RESPONSE_SAMPLES metrics.failed (m.sample float) }

/-- `_Metrics.add`. The requests of all targets are counted before the name is looked up. -/
def add (metrics : MeasuredMetrics) (m : Measurement) : Except Exn Nat × MeasuredMetrics :=
  let all := metrics.all.add m.latency m.success m.status m.error m.drawAll
  match metrics.targets.get? m.name with
  | none => (.error ⟨.keyError, m.name⟩, { metrics with all := all })
  | some values =>
    let values := values.add m.latency m.success m.status m.error m.drawTarget
    (.ok all.total, keepResponse float { metrics with all := all, targets := metrics.targets.set m.name values } m)

def addScenario (metrics : MeasuredMetrics) (latency : Rat) (success : Bool) (draw : Nat) : MeasuredMetrics :=
  { metrics with scenarios := metrics.scenarios.add latency success none none draw }

def call (metrics : MeasuredMetrics) : MetricsCall → MeasuredMetrics
  | .add m => (metrics.add float m).2
  | .addScenario latency success draw => metrics.addScenario latency success draw

def run (metrics : MeasuredMetrics) (calls : List MetricsCall) : MeasuredMetrics := calls.foldl (call float) metrics

end MeasuredMetrics

/-! ## Snapshots -/

structure Summary where
  total : Nat
  successful : Nat
  failed : Nat
  perSecond : Rat
  averageMs : Rat
  minMs : Rat
  maxMs : Rat
  p50Ms : Rat
  p95Ms : Rat
  p99Ms : Rat
  statusCounts : List (String × Nat)
  errorCounts : List (String × Nat)

def Summary.empty : Summary := ⟨0, 0, 0, 0, 0, 0, 0, 0, 0, 0, [], []⟩

/-- `percentile` of `_summarize`, before its figure is rounded. -/
def percentile (float : FloatArithmetic) (latencies : List Rat) (ratio : Rat) : Rat :=
  ranked latencies (roundEven (float.times (latencies.length - 1) ratio)).toNat

/-- `_summarize`, and `_summarize_scenarios`, which leaves out the counters of statuses and errors. -/
def summarize (float : FloatArithmetic) (values : MeasuredValues) (elapsed : Rat) : Summary :=
  if values.total = 0 then .empty
  else
    { total := values.total
      successful := values.successful
      failed := values.failed
      perSecond := float.round (values.total / elapsed)
      averageMs := float.round (values.latencySum / values.total)
      minMs := float.round (values.minimum.getD 0)
      maxMs := float.round (values.maximum.getD 0)
      p50Ms := float.round (percentile float values.latencies (1 / 2))
      p95Ms := float.round (percentile float values.latencies (95 / 100))
      p99Ms := float.round (percentile float values.latencies (99 / 100))
      statusCounts := (values.statuses.entries.insertionSort fun a b => a.1 ≤ b.1).map fun e => (toString e.1, e.2)
      errorCounts := values.errors.entries.insertionSort fun a b => a.1 ≤ b.1 }

structure Snapshot where
  overall : Summary
  targetMetrics : List (String × Summary)
  scenarioMetrics : Summary
  successful : List ResponseSample
  failed : List ResponseSample

/-- `_snapshot`. -/
def MeasuredMetrics.snapshot (float : FloatArithmetic) (metrics : MeasuredMetrics) (now started : Rat) : Snapshot :=
  let elapsed := max (now - started) (1 / 1000000)
  { overall := summarize float metrics.all elapsed
    targetMetrics := metrics.targets.entries.map fun e => (e.1, summarize float e.2 elapsed)
    scenarioMetrics := summarize float metrics.scenarios elapsed
    successful := metrics.successful
    failed := metrics.failed }

/-! ## What one more latency does -/

/-- What the values hold of the latencies they were given. -/
structure Measured (log : List Rat) (values : MeasuredValues) : Prop where
  counted : values.total = log.length
  split : values.total = values.successful + values.failed
  kept : values.latencies.length = min values.total SAMPLE_LIMIT
  sampled : ∀ l ∈ values.latencies, l ∈ log
  sum : values.latencySum = log.sum
  least : log ≠ [] → ∃ m, values.minimum = some m ∧ ∀ l ∈ log, m ≤ l
  greatest : log ≠ [] → ∃ m, values.maximum = some m ∧ ∀ l ∈ log, l ≤ m
  unset : log = [] → values.minimum = none ∧ values.maximum = none

theorem Measured.empty : Measured [] .empty := by
  constructor <;> simp [MeasuredValues.empty, MetricValues.empty]

section Bound

variable {log : List Rat} {latency : Rat} {least : Option Rat}

/-- The bound of a log, with one more latency. -/
theorem bound_append {R : Rat → Rat → Prop} {pick : Rat → Rat → Rat} (hleft : ∀ a b, R (pick a b) a)
    (hright : ∀ a b, R (pick a b) b) (htrans : ∀ {a b c}, R a b → R b c → R a c) (hrefl : ∀ a, R a a)
    (hbound : log ≠ [] → ∃ m, least = some m ∧ ∀ l ∈ log, R m l) (hunset : log = [] → least = none) :
    ∃ m, some (least.elim latency (pick · latency)) = some m ∧ ∀ l ∈ log ++ [latency], R m l := by
  refine ⟨_, rfl, ?_⟩
  by_cases hlog : log = []
  · rw [hunset hlog, hlog]
    simpa using hrefl latency
  · obtain ⟨m, rfl, hm⟩ := hbound hlog
    intro l hl
    rcases List.mem_append.mp hl with hl | hl
    · exact htrans (hleft m latency) (hm l hl)
    · rw [List.mem_singleton] at hl
      subst hl
      exact hright m l

end Bound

theorem Measured.add {log : List Rat} {values : MeasuredValues} (h : Measured log values) (latency : Rat)
    (success : Bool) (status : Option Int) (error : Option String) (draw : Nat) :
    Measured (log ++ [latency]) (values.add latency success status error draw) := by
  have htotal : (values.add latency success status error draw).total = values.total + 1 := rfl
  constructor
  · rw [htotal, h.counted, List.length_append, List.length_singleton]
  · have hsplit := h.split
    cases success <;> simp [MeasuredValues.add, MetricValues.add] <;> omega
  · rw [htotal]
    exact length_keepSample h.kept
  · intro l hl
    rcases mem_keepSample hl with hl | rfl
    · exact List.mem_append_left _ (h.sampled l hl)
    · simp
  · simp [MeasuredValues.add, h.sum]
  · intro _
    exact bound_append min_le_left min_le_right le_trans le_refl h.least fun hlog => (h.unset hlog).1
  · intro _
    exact bound_append (R := fun a b => b ≤ a) le_max_left le_max_right (fun hab hbc => le_trans hbc hab) le_refl
      h.greatest fun hlog => (h.unset hlog).2
  · intro hlog
    exact absurd hlog (by simp)

/-! ## What a summary says -/

/-- The order of the figures. -/
structure Summary.Ordered (s : Summary) : Prop where
  least_p50 : s.minMs ≤ s.p50Ms
  p50_p95 : s.p50Ms ≤ s.p95Ms
  p95_p99 : s.p95Ms ≤ s.p99Ms
  p99_greatest : s.p99Ms ≤ s.maxMs
  least_average : s.minMs ≤ s.averageMs
  average_greatest : s.averageMs ≤ s.maxMs

/-- The figures before they are rounded. -/
def FloatArithmetic.unrounded (float : FloatArithmetic) : FloatArithmetic := { float with round := id }

/-- A greater ratio gives no smaller product. -/
def FloatArithmetic.Monotone (float : FloatArithmetic) : Prop := ∀ n p q, p ≤ q → float.times n p ≤ float.times n q

theorem percentile_mono {float : FloatArithmetic} (hfloat : float.Monotone) (latencies : List Rat) {p q : Rat}
    (h : p ≤ q) : percentile float latencies p ≤ percentile float latencies q := by
  unfold percentile
  apply ranked_mono
  apply Int.toNat_le_toNat
  exact roundEven_mono (hfloat _ _ _ h)

theorem Measured.average {log : List Rat} {values : MeasuredValues} (h : Measured log values) (hlog : log ≠ [])
    {least greatest : Rat} (hleast : ∀ l ∈ log, least ≤ l) (hgreatest : ∀ l ∈ log, l ≤ greatest) :
    least ≤ values.latencySum / values.total ∧ values.latencySum / values.total ≤ greatest := by
  have hpos : (0 : Rat) < log.length := by
    have := List.length_pos_iff.mpr hlog
    exact_mod_cast this
  rw [h.sum, h.counted, le_div_iff₀ hpos, div_le_iff₀ hpos, mul_comm least, mul_comm greatest]
  exact ⟨length_mul_le_sum hleast, sum_le_length_mul hgreatest⟩

theorem Measured.summarize {log : List Rat} {values : MeasuredValues} (h : Measured log values)
    {float : FloatArithmetic} (hfloat : float.Monotone) (elapsed : Rat) :
    let summary := Load.summarize float.unrounded values elapsed
    summary.total = summary.successful + summary.failed ∧ summary.Ordered := by
  dsimp only
  unfold Load.summarize
  split
  · exact ⟨rfl, le_refl _, le_refl _, le_refl _, le_refl _, le_refl _, le_refl _⟩
  · next htotal =>
    have hlog : log ≠ [] := by
      rintro rfl
      exact htotal h.counted
    have hlatencies : values.latencies ≠ [] := by
      have hkept := h.kept
      have hlimit : 0 < SAMPLE_LIMIT := by decide
      rw [← List.length_pos_iff]
      omega
    obtain ⟨least, hminimum, hleast⟩ := h.least hlog
    obtain ⟨greatest, hmaximum, hgreatest⟩ := h.greatest hlog
    have hfloat' : float.unrounded.Monotone := hfloat
    have hmem : ∀ ratio, percentile float.unrounded values.latencies ratio ∈ log := fun ratio =>
      h.sampled _ (ranked_mem hlatencies _)
    have haverage := h.average hlog hleast hgreatest
    refine ⟨h.split, ?_⟩
    constructor
    · simpa [FloatArithmetic.unrounded, hminimum] using hleast _ (hmem _)
    · exact percentile_mono hfloat' _ (by norm_num)
    · exact percentile_mono hfloat' _ (by norm_num)
    · simpa [FloatArithmetic.unrounded, hmaximum] using hgreatest _ (hmem _)
    · simpa [FloatArithmetic.unrounded, hminimum] using haverage.1
    · simpa [FloatArithmetic.unrounded, hmaximum] using haverage.2

/-- The counters of a summary are those of its values. -/
theorem Measured.counts {log : List Rat} {values : MeasuredValues} (h : Measured log values) (float : FloatArithmetic)
    (elapsed : Rat) : (Load.summarize float values elapsed).total = values.total ∧
      (Load.summarize float values elapsed).successful = values.successful ∧
      (Load.summarize float values elapsed).failed = values.failed := by
  have hsplit := h.split
  unfold Load.summarize
  split
  · next htotal =>
    refine ⟨htotal.symm, ?_, ?_⟩
    · change 0 = values.successful
      omega
    · change 0 = values.failed
      omega
  · exact ⟨rfl, rfl, rfl⟩

/-! ## Sums over the targets -/

/-- A counter: it starts at zero, and what one request adds to it does not depend on the others. -/
structure Counter (f : MetricValues → Nat) : Prop where
  empty : f .empty = 0
  add : ∀ success status error, ∃ delta, ∀ values, f (values.add success status error) = f values + delta

theorem counter_total : Counter MetricValues.total := ⟨rfl, fun _ _ _ => ⟨1, fun _ => rfl⟩⟩

theorem counter_successful : Counter MetricValues.successful := ⟨rfl, fun _ _ _ => ⟨_, fun _ => rfl⟩⟩

theorem counter_failed : Counter MetricValues.failed := ⟨rfl, fun _ _ _ => ⟨_, fun _ => rfl⟩⟩

theorem get_tick {κ : Type} [DecidableEq κ] (counter : Dict κ Nat) (key k : κ) :
    ((tick counter key).get? k).getD 0 = (counter.get? k).getD 0 + if k = key then 1 else 0 := by
  unfold tick
  by_cases hk : k = key
  · subst hk
    simp
  · simp [hk]

theorem counter_status (code : Int) : Counter fun values => (values.statuses.get? code).getD 0 := by
  refine ⟨rfl, fun success status error => ?_⟩
  cases status with
  | none => exact ⟨0, fun values => rfl⟩
  | some key => exact ⟨_, fun values => get_tick values.statuses key code⟩

theorem counter_error (name : String) : Counter fun values => (values.errors.get? name).getD 0 := by
  refine ⟨rfl, fun success status error => ?_⟩
  cases error with
  | none => exact ⟨0, fun values => rfl⟩
  | some key => exact ⟨_, fun values => get_tick values.errors key name⟩

/-- The sum of a counter over the targets. -/
def targetSum (f : MetricValues → Nat) (targets : Dict String MeasuredValues) : Nat :=
  (targets.values.map fun values => f values.toMetricValues).sum

theorem targetSum_set {f : MetricValues → Nat} {targets : Dict String MeasuredValues} {name : String}
    {values : MeasuredValues} (h : targets.get? name = some values) (changed : MeasuredValues) :
    targetSum f (targets.set name changed) + f values.toMetricValues =
      targetSum f targets + f changed.toMetricValues := by
  have hmem := (targets.get?_eq_some_iff name values).mp h
  have hnodup := targets.nodup
  unfold targetSum Dict.values Dict.set
  dsimp only
  generalize targets.entries = entries at hmem hnodup
  induction entries with
  | nil => simp at hmem
  | cons entry rest ih =>
    obtain ⟨key, first⟩ := entry
    simp only [List.map_cons, List.nodup_cons] at hnodup
    by_cases hkey : key = name
    · subst hkey
      have hfirst : first = values := by
        rcases List.mem_cons.mp hmem with heq | hrest
        · exact (Prod.mk.inj heq).2.symm
        · exact absurd (List.mem_map_of_mem (f := Prod.fst) hrest) hnodup.1
      subst hfirst
      simp only [upsert, if_true, List.map_cons, List.sum_cons]
      omega
    · have hrest : (name, values) ∈ rest := by simpa [Ne.symm hkey] using hmem
      have hsum := ih hrest hnodup.2
      simp only [upsert, hkey, if_false, List.map_cons, List.sum_cons]
      omega

/-- Every target starts with nothing. -/
theorem get?_empty_targets {names : List String} {name : String} {values : MeasuredValues}
    (h : (MeasuredMetrics.empty names).targets.get? name = some values) : values = .empty := by
  suffices hfold : ∀ targets : Dict String MeasuredValues,
      (∀ name values, targets.get? name = some values → values = .empty) →
      (names.foldl (fun targets name => targets.set name .empty) targets).get? name = some values → values = .empty from
    hfold .empty (by simp) h
  clear h
  induction names with
  | nil => exact fun targets htargets h => htargets name values h
  | cons first rest ih =>
    intro targets htargets
    apply ih
    intro name values hget
    rw [Dict.get?_set] at hget
    split at hget
    · exact (Option.some.inj hget).symm
    · exact htargets name values hget

theorem targetSum_empty {f : MetricValues → Nat} (hf : f .empty = 0) (names : List String) :
    targetSum f (MeasuredMetrics.empty names).targets = 0 := by
  unfold targetSum
  apply List.sum_eq_zero
  intro n hn
  obtain ⟨values, hvalues, rfl⟩ := List.mem_map.mp hn
  obtain ⟨name, hget⟩ := (Dict.mem_values_iff _ values).mp hvalues
  rw [get?_empty_targets hget]
  exact hf

/-! ## Runs -/

def MetricsCall.measurement? : MetricsCall → Option Measurement
  | .add m => some m
  | .addScenario _ _ _ => none

def MetricsCall.scenario? : MetricsCall → Option Rat
  | .add _ => none
  | .addScenario latency _ _ => some latency

/-- The requests that have been added. -/
def measurements (calls : List MetricsCall) : List Measurement := calls.filterMap (·.measurement?)

/-- What the metrics hold of the calls. -/
structure Recorded (float : FloatArithmetic) (calls : List MetricsCall) (metrics : MeasuredMetrics) : Prop where
  all : Measured ((measurements calls).map (·.latency)) metrics.all
  targets : ∀ name values, metrics.targets.get? name = some values →
    Measured (((measurements calls).filter (·.name = name)).map (·.latency)) values
  scenarios : Measured (calls.filterMap (·.scenario?)) metrics.scenarios
  successful : metrics.successful =
    (((measurements calls).filter (·.success)).map (·.sample float)).take SUCCESS_RESPONSE_SAMPLES
  failed : metrics.failed =
    (((measurements calls).filter (!·.success)).map (·.sample float)).take FAILED_RESPONSE_SAMPLES
  sums : ∀ f, Counter f → f metrics.all.toMetricValues = targetSum f metrics.targets

section KeepResponse

variable (float : FloatArithmetic) (metrics : MeasuredMetrics) (m : Measurement)

@[simp] theorem keepResponse_all : (metrics.keepResponse float m).all = metrics.all := by
  unfold MeasuredMetrics.keepResponse
  split <;> rfl

@[simp] theorem keepResponse_targets : (metrics.keepResponse float m).targets = metrics.targets := by
  unfold MeasuredMetrics.keepResponse
  split <;> rfl

@[simp] theorem keepResponse_scenarios : (metrics.keepResponse float m).scenarios = metrics.scenarios := by
  unfold MeasuredMetrics.keepResponse
  split <;> rfl

/-- A call for a target that is there. -/
theorem add_of_get? {values : MeasuredValues} (h : metrics.targets.get? m.name = some values) :
    (metrics.add float m).2 = MeasuredMetrics.keepResponse float
      { metrics with
        all := metrics.all.add m.latency m.success m.status m.error m.drawAll
        targets := metrics.targets.set m.name (values.add m.latency m.success m.status m.error m.drawTarget) } m := by
  unfold MeasuredMetrics.add
  simp only [h]

end KeepResponse

theorem take_append_below {α : Type} (limit : Nat) (l : List α) (x : α) :
    appendBelow limit (l.take limit) x = (l ++ [x]).take limit := by
  unfold appendBelow
  rw [List.length_take]
  split
  · next h =>
    rw [List.take_of_length_le (by omega), List.take_of_length_le (by simp; omega)]
  · next h => rw [List.take_append_of_le_length (by omega)]

namespace Recorded

variable {float : FloatArithmetic} {calls : List MetricsCall} {metrics : MeasuredMetrics}

theorem empty (names : List String) : Recorded float [] (.empty names) := by
  constructor
  · exact .empty
  · intro name values hget
    rw [get?_empty_targets hget]
    exact .empty
  · exact .empty
  · rfl
  · rfl
  · intro f hf
    rw [targetSum_empty hf.empty]
    exact hf.empty

theorem measurements_append (m : Measurement) : measurements (calls ++ [.add m]) = measurements calls ++ [m] := by
  simp [measurements, MetricsCall.measurement?]

theorem measurements_append_scenario (latency : Rat) (success : Bool) (draw : Nat) :
    measurements (calls ++ [.addScenario latency success draw]) = measurements calls := by
  simp [measurements, MetricsCall.measurement?]

theorem add (h : Recorded float calls metrics) {m : Measurement} {values : MeasuredValues}
    (hvalues : metrics.targets.get? m.name = some values) :
    Recorded float (calls ++ [.add m]) (metrics.add float m).2 := by
  rw [add_of_get? float metrics m hvalues]
  constructor
  · rw [keepResponse_all, measurements_append, List.map_append]
    exact h.all.add _ _ _ _ _
  · intro name values' hget
    rw [keepResponse_targets, Dict.get?_set] at hget
    rw [measurements_append, List.filter_append]
    split at hget
    · next hname =>
      subst hname
      obtain rfl := Option.some.inj hget
      simpa using (h.targets _ _ hvalues).add m.latency m.success m.status m.error m.drawTarget
    · next hname =>
      simpa [Ne.symm hname] using h.targets _ _ hget
  · rw [keepResponse_scenarios]
    simpa [MetricsCall.scenario?] using h.scenarios
  · rw [measurements_append, List.filter_append, List.map_append]
    cases hsuccess : m.success
    · simp [MeasuredMetrics.keepResponse, hsuccess, h.successful]
    · simp [MeasuredMetrics.keepResponse, hsuccess, h.successful, take_append_below]
  · rw [measurements_append, List.filter_append, List.map_append]
    cases hsuccess : m.success
    · simp [MeasuredMetrics.keepResponse, hsuccess, h.failed, take_append_below]
    · simp [MeasuredMetrics.keepResponse, hsuccess, h.failed]
  · intro f hf
    obtain ⟨delta, hdelta⟩ := hf.add m.success m.status m.error
    have hsum := targetSum_set (f := f) hvalues (values.add m.latency m.success m.status m.error m.drawTarget)
    have hold := h.sums f hf
    have hnew : f (values.add m.latency m.success m.status m.error m.drawTarget).toMetricValues =
        f values.toMetricValues + delta := hdelta _
    have hmore : f (metrics.all.add m.latency m.success m.status m.error m.drawAll).toMetricValues =
        f metrics.all.toMetricValues + delta := hdelta _
    rw [keepResponse_all, keepResponse_targets]
    dsimp only
    omega

theorem addScenario (h : Recorded float calls metrics) (latency : Rat) (success : Bool) (draw : Nat) :
    Recorded float (calls ++ [.addScenario latency success draw]) (metrics.addScenario latency success draw) := by
  constructor
  · rw [measurements_append_scenario]
    exact h.all
  · rw [measurements_append_scenario]
    exact h.targets
  · rw [List.filterMap_append]
    exact h.scenarios.add latency success none none draw
  · rw [measurements_append_scenario]
    exact h.successful
  · rw [measurements_append_scenario]
    exact h.failed
  · exact h.sums

end Recorded

/-- A call that names one of the targets, as every call of the executor does. -/
def MetricsCall.Names (names : List String) (call : MetricsCall) : Prop := ∀ m, call.measurement? = some m → m.name ∈ names

theorem isSome_foldl_set {names : List String} (targets : Dict String MeasuredValues) {name : String}
    (h : name ∈ names ∨ (targets.get? name).isSome = true) :
    ((names.foldl (fun targets name => targets.set name .empty) targets).get? name).isSome = true := by
  induction names generalizing targets with
  | nil => simpa using h
  | cons first rest ih =>
    apply ih
    rw [Dict.get?_set]
    split
    · exact .inr rfl
    · next hne => simpa [hne] using h

/-- The targets stay the ones of the start. -/
theorem call_targets {float : FloatArithmetic} {metrics : MeasuredMetrics} {call : MetricsCall} {name : String}
    (h : (metrics.targets.get? name).isSome = true) :
    ((metrics.call float call).targets.get? name).isSome = true := by
  cases call with
  | addScenario latency success draw => exact h
  | add m =>
    unfold MeasuredMetrics.call
    cases hvalues : metrics.targets.get? m.name with
    | none => simpa [MeasuredMetrics.add, hvalues] using h
    | some values =>
      dsimp only
      rw [add_of_get? float metrics m hvalues, keepResponse_targets, Dict.get?_set]
      split
      · rfl
      · exact h

theorem recorded_run {float : FloatArithmetic} {names : List String} {calls : List MetricsCall}
    (hnames : ∀ call ∈ calls, call.Names names) :
    Recorded float calls ((MeasuredMetrics.empty names).run float calls) ∧
      ∀ name ∈ names, (((MeasuredMetrics.empty names).run float calls).targets.get? name).isSome = true := by
  -- From the last call back, since the log grows at its end.
  induction calls using List.reverseRecOn with
  | nil => exact ⟨.empty names, fun name hname => isSome_foldl_set .empty (.inl hname)⟩
  | append_singleton calls call ih =>
    rw [List.forall_mem_append] at hnames
    obtain ⟨hrecorded, htargets⟩ := ih hnames.1
    have hcall := hnames.2 call (List.mem_singleton.mpr rfl)
    unfold MeasuredMetrics.run at hrecorded htargets ⊢
    rw [List.foldl_append, List.foldl_cons, List.foldl_nil]
    refine ⟨?_, fun name hname => call_targets (htargets name hname)⟩
    cases call with
    | addScenario latency success draw => exact hrecorded.addScenario latency success draw
    | add m =>
      obtain ⟨values, hvalues⟩ := Option.isSome_iff_exists.mp (htargets m.name (hcall m rfl))
      exact hrecorded.add hvalues

section Snapshots

variable {float : FloatArithmetic} {calls : List MetricsCall} {metrics : MeasuredMetrics}

/-- A counter of the overall summary is the sum over the targets. -/
theorem Recorded.overall_eq (h : Recorded float calls metrics) {f : MetricValues → Nat} (hf : Counter f)
    {g : Summary → Nat} {rounding : FloatArithmetic} {now started : Rat}
    (hg : ∀ {log values} elapsed, Measured log values → g (summarize rounding values elapsed) = f values.toMetricValues) :
    g (metrics.snapshot rounding now started).overall =
      ((metrics.snapshot rounding now started).targetMetrics.map fun e => g e.2).sum := by
  unfold MeasuredMetrics.snapshot
  dsimp only
  rw [hg _ h.all, h.sums f hf, targetSum, List.map_map, Dict.values, List.map_map]
  congr 1
  apply List.map_congr_left
  rintro ⟨name, values⟩ hentry
  exact (hg _ (h.targets name values ((Dict.get?_eq_some_iff _ name values).mpr hentry))).symm

/-- Every summary of a snapshot adds up, and its figures are in order. -/
theorem Recorded.ordered (h : Recorded float calls metrics) (hfloat : float.Monotone) {now started : Rat}
    {summary : Summary} (hsummary : summary ∈ (metrics.snapshot float.unrounded now started).overall ::
      (metrics.snapshot float.unrounded now started).scenarioMetrics ::
      (metrics.snapshot float.unrounded now started).targetMetrics.map Prod.snd) :
    summary.total = summary.successful + summary.failed ∧ summary.Ordered := by
  rcases List.mem_cons.mp hsummary with rfl | hsummary
  · exact h.all.summarize hfloat _
  rcases List.mem_cons.mp hsummary with rfl | hsummary
  · exact h.scenarios.summarize hfloat _
  obtain ⟨pair, hpair, rfl⟩ := List.mem_map.mp hsummary
  obtain ⟨⟨name, values⟩, hentry, rfl⟩ := List.mem_map.mp hpair
  exact (h.targets name values ((Dict.get?_eq_some_iff _ name values).mpr hentry)).summarize hfloat _

end Snapshots

/-- Every snapshot is consistent: its counters, its samples and the order of its figures. -/
theorem snapshots_consistent {float : FloatArithmetic} (hfloat : float.Monotone) {names : List String}
    {calls : List MetricsCall} (hnames : ∀ call ∈ calls, call.Names names) (now started : Rat) :
    let metrics := (MeasuredMetrics.empty names).run float calls
    let snapshot := metrics.snapshot float.unrounded now started
    (∀ summary ∈ snapshot.overall :: snapshot.scenarioMetrics :: snapshot.targetMetrics.map Prod.snd,
      summary.total = summary.successful + summary.failed ∧ summary.Ordered) ∧
    snapshot.overall.total = (snapshot.targetMetrics.map fun e => e.2.total).sum ∧
    snapshot.overall.successful = (snapshot.targetMetrics.map fun e => e.2.successful).sum ∧
    snapshot.overall.failed = (snapshot.targetMetrics.map fun e => e.2.failed).sum ∧
    (∀ f, Counter f → f metrics.all.toMetricValues = targetSum f metrics.targets) ∧
    snapshot.overall.total = (measurements calls).length ∧
    metrics.all.latencies.length = min metrics.all.total SAMPLE_LIMIT ∧
    (∀ l ∈ metrics.all.latencies, ∃ m ∈ measurements calls, m.latency = l) ∧
    (∀ name values, metrics.targets.get? name = some values →
      values.latencies.length = min values.total SAMPLE_LIMIT ∧
      ∀ l ∈ values.latencies, ∃ m ∈ measurements calls, m.name = name ∧ m.latency = l) ∧
    snapshot.successful =
      (((measurements calls).filter (·.success)).map (·.sample float)).take SUCCESS_RESPONSE_SAMPLES ∧
    snapshot.failed =
      (((measurements calls).filter (!·.success)).map (·.sample float)).take FAILED_RESPONSE_SAMPLES := by
  intro metrics snapshot
  obtain ⟨hrecorded, -⟩ := @recorded_run float names calls hnames
  refine ⟨fun summary => hrecorded.ordered hfloat, ?_, ?_, ?_, hrecorded.sums, ?_, hrecorded.all.kept, ?_, ?_,
    hrecorded.successful, hrecorded.failed⟩
  · exact hrecorded.overall_eq counter_total fun elapsed h => (h.counts _ elapsed).1
  · exact hrecorded.overall_eq counter_successful fun elapsed h => (h.counts _ elapsed).2.1
  · exact hrecorded.overall_eq counter_failed fun elapsed h => (h.counts _ elapsed).2.2
  · have htotal := (hrecorded.all.counts float.unrounded (max (now - started) (1 / 1000000))).1
    exact htotal.trans (by rw [hrecorded.all.counted, List.length_map])
  · intro l hl
    exact List.mem_map.mp (hrecorded.all.sampled l hl)
  · intro name values hget
    have hmeasured := hrecorded.targets name values hget
    refine ⟨hmeasured.kept, fun l hl => ?_⟩
    obtain ⟨m, hm, hlatency⟩ := List.mem_map.mp (hmeasured.sampled l hl)
    obtain ⟨hmem, hname⟩ := List.mem_filter.mp hm
    exact ⟨m, hmem, of_decide_eq_true hname, hlatency⟩

/-- The product without an error. -/
def exactArithmetic : FloatArithmetic := ⟨id, fun n ratio => n * ratio⟩

theorem exactArithmetic_monotone : exactArithmetic.Monotone :=
  fun n _ _ h => mul_le_mul_of_nonneg_left h (Nat.cast_nonneg n)

/-- Seven logins that go well, eleven searches that fail, and a scenario. -/
def mixedCalls : List MetricsCall :=
  (List.range 7).map (fun k => .add ⟨"login", 12 + 3 * k, true, some 200, none, none, 0, k⟩) ++
    (List.range 11).map (fun k => .add ⟨"search", 40 - 2 * k, false, some 503, some "http_status", none, 2 * k, 0⟩) ++
      [.addScenario 95 false 0]

theorem mixedCalls_consistent : (∀ call ∈ mixedCalls, call.Names ["login", "search"]) ∧
    let metrics := (MeasuredMetrics.empty ["login", "search"]).run exactArithmetic mixedCalls
    let snapshot := metrics.snapshot exactArithmetic.unrounded 30 0
    snapshot.overall.total = 18 ∧ snapshot.overall.total = (snapshot.targetMetrics.map fun e => e.2.total).sum ∧
      (∀ entry ∈ snapshot.targetMetrics, entry.2.Ordered) ∧ metrics.all.latencies.length = 18 ∧
      snapshot.successful.length = 5 ∧ snapshot.failed.length = 10 := by
  have hnames : ∀ call ∈ mixedCalls, call.Names ["login", "search"] := by
    intro call hcall m hm
    simp only [mixedCalls, List.mem_append, List.mem_map, List.mem_singleton] at hcall
    rcases hcall with (⟨k, -, rfl⟩ | ⟨k, -, rfl⟩) | rfl
    · obtain rfl := Option.some.inj hm
      simp
    · obtain rfl := Option.some.inj hm
      simp
    · cases hm
  obtain ⟨hordered, htotal, -, -, -, hcount, hkept, -, -, hsuccessful, hfailed⟩ :=
    snapshots_consistent exactArithmetic_monotone hnames 30 0
  have heighteen : (measurements mixedCalls).length = 18 := by decide
  refine ⟨hnames, hcount.trans heighteen, htotal, ?_, ?_, ?_, ?_⟩
  · intro entry hentry
    exact (hordered entry.2 (by simp [List.mem_map_of_mem hentry])).2
  · exact hkept.trans (congrArg (min · SAMPLE_LIMIT) (hcount.trans heighteen))
  · rw [hsuccessful, List.length_take, List.length_map]
    rfl
  · rw [hfailed, List.length_take, List.length_map]
    rfl

end SmartTest.Load
