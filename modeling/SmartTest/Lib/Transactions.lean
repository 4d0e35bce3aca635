import SmartTest.Lib.Dict
import SmartTest.Lib.Replicas
import SmartTest.Lib.Steps

/-!
# Transactions side by side

Numbered transactions that hold locks to their end, and runs in which every step either leaves
the tables alone or answers one call as the calls one after the other would.
-/

namespace SmartTest.Lib

/-! ## Locks -/

section Locks

variable {T R : Type} {locks : T → List R}

/-- No row is locked twice. -/
def Exclusive (locks : T → List R) (active : Dict Nat T) : Prop :=
  ∀ t t' a b row, active.get? t = some a → active.get? t' = some b → row ∈ locks a → row ∈ locks b → t = t'

theorem Exclusive.empty : Exclusive locks .empty := by
  intro t t' a b row ha
  simp at ha

theorem Exclusive.erase {active : Dict Nat T} (h : Exclusive locks active) (t : Nat) :
    Exclusive locks (active.erase t) := by
  intro first second b c row hb hc
  rw [Dict.get?_erase] at hb hc
  split at hb
  · cases hb
  · split at hc
    · cases hc
    · exact h first second b c row hb hc

/-- What another transaction holds, the one that goes on does not. -/
theorem Exclusive.disjoint {active : Dict Nat T} (h : Exclusive locks active) {t t' : Nat} {a b : T}
    (ha : active.get? t = some a) (hb : active.get? t' = some b) (hne : t' ≠ t) : ∀ row ∈ locks b, row ∉ locks a :=
  fun row hrow hother => hne (h t' t b a row hb ha hrow hother)

variable [DecidableEq R]

/-- No other transaction than number `t` holds the row. -/
def rowFree (locks : T → List R) (active : Dict Nat T) (t : Nat) (row : R) : Bool :=
  active.entries.all fun entry => entry.1 = t || row ∉ locks entry.2

theorem rowFree_iff {active : Dict Nat T} {t : Nat} {row : R} : rowFree locks active t row = true ↔
    ∀ t' transaction, active.get? t' = some transaction → row ∈ locks transaction → t' = t := by
  unfold rowFree
  rw [List.all_eq_true]
  constructor
  · intro h t' transaction hget hrow
    have hentry := h (t', transaction) ((Dict.get?_eq_some_iff _ _ _).mp hget)
    simpa [hrow] using hentry
  · rintro h ⟨t', transaction⟩ hentry
    have hsame := h t' transaction ((Dict.get?_eq_some_iff _ _ _).mpr hentry)
    by_cases hrow : row ∈ locks transaction
    · simp [hsame hrow]
    · simp [hrow]

theorem Exclusive.rowFree {active : Dict Nat T} (h : Exclusive locks active) {t : Nat} {a : T} {row : R}
    (hget : active.get? t = some a) (hrow : row ∈ locks a) : rowFree locks active t row = true :=
  rowFree_iff.mpr fun t' b hget' hrow' => h t' t b a row hget' hget hrow' hrow

/-- A transaction begins or goes on, on rows that are free. -/
theorem Exclusive.put {active : Dict Nat T} (h : Exclusive locks active) {t : Nat} {a : T}
    (hfree : ∀ row ∈ locks a, Lib.rowFree locks active t row = true) : Exclusive locks (active.set t a) := by
  intro first second b c row hb hc hbrow hcrow
  rw [Dict.get?_set] at hb hc
  split at hb
  · next hfirst =>
    obtain rfl := Option.some.inj hb
    split at hc
    · next hsecond => exact hfirst.trans hsecond.symm
    · exact hfirst.trans (rowFree_iff.mp (hfree row hbrow) second c hc hcrow).symm
  · split at hc
    · next hsecond =>
      obtain rfl := Option.some.inj hc
      exact (rowFree_iff.mp (hfree row hcrow) first b hb hbrow).trans hsecond.symm
    · exact h first second b c row hb hc hbrow hcrow

end Locks

/-! ## Serial runs -/

section Serial

variable {σ τ ℓ α ε : Type} {on : τ → ℓ → α × τ}

theorem answers_append (s : τ) (first rest : List ℓ) :
    answers on s (first ++ rest) = answers on s first ++ answers on (stateAfter on s first) rest := by
  induction first generalizing s with
  | nil => rfl
  | cons call first ih => simp only [List.cons_append, answers, stateAfter, ih]

theorem stateAfter_append (s : τ) (first rest : List ℓ) :
    stateAfter on s (first ++ rest) = stateAfter on (stateAfter on s first) rest := by
  induction first generalizing s with
  | nil => rfl
  | cons call first ih => simp only [List.cons_append, stateAfter, ih]

/-- The calls that were answered give their answers one after the other. -/
def Serial (on : τ → ℓ → α × τ) (start : τ) (tables : τ) (done : List (ℓ × α)) : Prop :=
  done.map Prod.snd = answers on start (done.map Prod.fst) ∧ tables = stateAfter on start (done.map Prod.fst)

theorem Serial.answered {start tables : τ} {done : List (ℓ × α)} (h : Serial on start tables done) (call : ℓ) :
    Serial on start (on tables call).2 (done ++ [(call, (on tables call).1)]) := by
  unfold Serial
  simp only [List.map_append, List.map_cons, List.map_nil, answers_append, stateAfter_append, ← h.2, h.1]
  exact ⟨rfl, rfl⟩

end Serial

end SmartTest.Lib
