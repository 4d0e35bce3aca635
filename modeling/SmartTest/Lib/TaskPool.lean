import Mathlib.Data.List.Basic
import Mathlib.Tactic.Common

/-! # Mapping a function in a pool of threads

The inputs are taken in their order, at most `limit` of them at a time, and end in any
order. Each result goes to the place of its own input.
-/

namespace SmartTest.Lib

variable {α β : Type}

/-- `taken` inputs have been started; a place is empty until its call ends. -/
structure TaskPool (β : Type) where
  taken : Nat
  results : List (Option β)
  deriving DecidableEq

inductive PoolMove where
  | start
  | finish (index : Nat)
  deriving DecidableEq, Repr

namespace TaskPool

def submit (inputs : List α) : TaskPool β := ⟨0, inputs.map fun _ => none⟩

def running (t : TaskPool β) : Nat := ((t.results.take t.taken).filter (·.isNone)).length

/-- The input that the next free worker takes. -/
def next? (limit : Int) (inputs : List α) (t : TaskPool β) : Option α :=
  if (t.running : Int) < limit then inputs[t.taken]? else none

def move (limit : Int) (f : α → β) (inputs : List α) (t : TaskPool β) : PoolMove → Option (TaskPool β)
  | .start => (t.next? limit inputs).map fun _ => { t with taken := t.taken + 1 }
  | .finish index =>
    if index < t.taken ∧ (t.results[index]?).any (·.isNone) then
      inputs[index]?.map fun input => { t with results := t.results.set index (some (f input)) }
    else none

def gather : List (Option β) → Option (List β)
  | [] => some []
  | none :: _ => none
  | some r :: rest => (gather rest).map (r :: ·)

/-- What the caller of the pool waits for. -/
def collect (t : TaskPool β) : Option (List β) := gather t.results

/-! ## What every run keeps -/

structure Sound (f : α → β) (inputs : List α) (t : TaskPool β) : Prop where
  length : t.results.length = inputs.length
  taken : t.taken ≤ inputs.length
  result : ∀ (i : Nat) (r : β), t.results[i]? = some (some r) → i < t.taken ∧ inputs[i]?.map f = some r

theorem sound_submit (f : α → β) (inputs : List α) : Sound f inputs (submit inputs) where
  length := by simp [submit]
  taken := by simp [submit]
  result i r h := by
    obtain ⟨x, -, hx⟩ := List.mem_map.mp (List.mem_of_getElem? h)
    simp at hx

variable {f : α → β} {inputs : List α} {t t' : TaskPool β} {limit : Int}

theorem next?_eq_some {input : α} (h : t.next? limit inputs = some input) : inputs[t.taken]? = some input := by
  unfold next? at h
  split at h
  · exact h
  · simp at h

theorem move_start (h : t.move limit f inputs .start = some t') :
    (∃ input, inputs[t.taken]? = some input) ∧ t' = { t with taken := t.taken + 1 } := by
  unfold move at h
  obtain ⟨input, hnext, rfl⟩ := Option.map_eq_some_iff.mp h
  exact ⟨⟨input, next?_eq_some hnext⟩, rfl⟩

theorem move_finish {index : Nat} (h : t.move limit f inputs (.finish index) = some t') :
    index < t.taken ∧ ∃ input, inputs[index]? = some input ∧
      t' = { t with results := t.results.set index (some (f input)) } := by
  simp only [move] at h
  split at h
  · next hidle =>
    obtain ⟨input, hinput, rfl⟩ := Option.map_eq_some_iff.mp h
    exact ⟨hidle.1, input, hinput, rfl⟩
  · simp at h

theorem Sound.start (hs : Sound f inputs t) (h : t.move limit f inputs .start = some t') :
    Sound f inputs t' := by
  obtain ⟨⟨input, hinput⟩, rfl⟩ := move_start h
  have hlt : t.taken < inputs.length := (List.getElem?_eq_some_iff.mp hinput).1
  refine ⟨hs.length, hlt, ?_⟩
  intro i r hr
  obtain ⟨hi, hvalue⟩ := hs.result i r hr
  exact ⟨Nat.lt_succ_of_lt hi, hvalue⟩

theorem Sound.finish {index : Nat} (hs : Sound f inputs t)
    (h : t.move limit f inputs (.finish index) = some t') : Sound f inputs t' := by
  obtain ⟨htaken, input, hinput, rfl⟩ := move_finish h
  refine ⟨by simp [hs.length], hs.taken, ?_⟩
  intro i r hr
  simp only [List.getElem?_set] at hr
  split at hr
  · next heq =>
    subst heq
    split at hr
    · obtain rfl : f input = r := by simpa using hr
      exact ⟨htaken, by simp [hinput]⟩
    · simp at hr
  · exact hs.result i r hr

theorem Sound.move {m : PoolMove} (hs : Sound f inputs t) (h : t.move limit f inputs m = some t') :
    Sound f inputs t' := by
  cases m with
  | start => exact hs.start h
  | finish index => exact hs.finish h

/-! ## Collecting the results -/

theorem gather_eq_some {results : List (Option β)} {rs : List β} (h : gather results = some rs) :
    results = rs.map some := by
  induction results generalizing rs with
  | nil =>
    simp only [gather, Option.some.injEq] at h
    simp [← h]
  | cons x rest ih =>
    cases x with
    | none => simp [gather] at h
    | some r =>
      obtain ⟨rs', hrest, rfl⟩ := Option.map_eq_some_iff.mp h
      rw [ih hrest, List.map_cons]

/-- The order in which the calls end leaves no trace. -/
theorem Sound.collect_eq (hs : Sound f inputs t) {rs : List β} (h : t.collect = some rs) :
    rs = inputs.map f ∧ t.taken = inputs.length := by
  replace h := gather_eq_some h
  have hlen : rs.length = inputs.length := by
    rw [← hs.length, h, List.length_map]
  have hdone : ∀ i r, rs[i]? = some r → i < t.taken ∧ inputs[i]?.map f = some r := by
    intro i r hr
    apply hs.result
    simp [h, hr]
  constructor
  · apply List.ext_getElem?
    intro i
    rw [List.getElem?_map]
    rcases hri : rs[i]? with _ | r
    · have hle : inputs.length ≤ i := by
        rw [← hlen]
        exact List.getElem?_eq_none_iff.mp hri
      simp [List.getElem?_eq_none_iff.mpr hle]
    · exact (hdone i r hri).2.symm
  · apply Nat.le_antisymm hs.taken
    by_contra hlt
    have hlast : t.taken < rs.length := by omega
    have := (hdone t.taken _ (List.getElem?_eq_getElem hlast)).1
    omega

/-! ## A pool with a worker never waits for nothing -/

theorem gather_of_forall {results : List (Option β)} (h : ∀ x ∈ results, x.isSome) : ∃ rs, gather results = some rs := by
  induction results with
  | nil => exact ⟨[], rfl⟩
  | cons x rest ih =>
    obtain ⟨hx, hrest⟩ := List.forall_mem_cons.mp h
    obtain ⟨r, rfl⟩ := Option.isSome_iff_exists.mp hx
    obtain ⟨rs, hrs⟩ := ih hrest
    exact ⟨r :: rs, by simp [gather, hrs]⟩

theorem Sound.exists_move (hs : Sound f inputs t) (hlimit : 0 < limit) (h : t.collect = none) :
    ∃ m t', t.move limit f inputs m = some t' := by
  by_cases hbusy : ∃ i, i < t.taken ∧ (t.results[i]?).any (·.isNone)
  · obtain ⟨i, hi, hnone⟩ := hbusy
    have hlt : i < inputs.length := Nat.lt_of_lt_of_le hi hs.taken
    refine ⟨.finish i, { t with results := t.results.set i (some (f inputs[i])) }, ?_⟩
    simp [TaskPool.move, hi, hnone, hlt]
  · have hended : ∀ i, i < t.taken → ∀ x, t.results[i]? = some x → x.isSome := by
      intro i hi x hx
      by_contra hnone
      exact hbusy ⟨i, hi, by simpa [hx] using hnone⟩
    have hidle : t.running = 0 := by
      unfold running
      rw [List.length_eq_zero_iff, List.filter_eq_nil_iff]
      intro x hx
      obtain ⟨i, hi⟩ := List.getElem?_of_mem hx
      rw [List.getElem?_take] at hi
      split at hi
      · next hlt =>
        have hsome := hended i hlt x hi
        simpa [Option.isSome_iff_ne_none] using hsome
      · cases hi
    have hlt : t.taken < inputs.length := by
      by_contra hall
      have hsome : ∀ x ∈ t.results, x.isSome := by
        intro x hx
        obtain ⟨i, hi⟩ := List.getElem?_of_mem hx
        have hin := (List.getElem?_eq_some_iff.mp hi).1
        exact hended i (by have := hs.length; omega) x hi
      obtain ⟨rs, hrs⟩ := gather_of_forall hsome
      rw [collect, hrs] at h
      cases h
    refine ⟨.start, { t with taken := t.taken + 1 }, ?_⟩
    simp [TaskPool.move, next?, hidle, hlimit, hlt]

end TaskPool

end SmartTest.Lib
