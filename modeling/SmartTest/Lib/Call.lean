import Mathlib.Tactic.Common

/-!
# Calls that write before they raise

A call answers or raises, and either way leaves a state. A transaction gives the state
back when it raises.
-/

namespace SmartTest.Lib

variable {ε σ α β : Type}

abbrev Call (ε σ : Type) := ExceptT ε (StateM σ)

namespace Call

/-- The answer of a call and the state it leaves. -/
def on (call : Call ε σ α) (state : σ) : Except ε α × σ := call.run.run state

theorem on_bind (call : Call ε σ α) (next : α → Call ε σ β) (state : σ) :
    (call >>= next).on state = match call.on state with
      | (.ok a, s) => (next a).on s
      | (.error e, s) => (.error e, s) := by
  show ExceptT.bindCont next (call.on state).1 (call.on state).2 = _
  rcases call.on state with ⟨_ | a, s⟩ <;> rfl

/-- A call that answers has answered in each of its parts. -/
theorem on_bind_eq_ok_iff {call : Call ε σ α} {next : α → Call ε σ β} {state after : σ} {b : β} :
    (call >>= next).on state = (.ok b, after) ↔
      ∃ a s, call.on state = (.ok a, s) ∧ (next a).on s = (.ok b, after) := by
  rw [on_bind]
  rcases call.on state with ⟨_ | a, s⟩
  · simp
  · simp only [Prod.mk.injEq, Except.ok.injEq]
    constructor
    · intro h
      exact ⟨a, s, ⟨rfl, rfl⟩, h⟩
    · rintro ⟨_, _, ⟨rfl, rfl⟩, h⟩
      exact h

theorem on_pure (a : α) (state : σ) : (pure a : Call ε σ α).on state = (.ok a, state) := rfl

theorem on_get (state : σ) : (get : Call ε σ σ).on state = (.ok state, state) := rfl

theorem on_modify (f : σ → σ) (state : σ) : (modify f : Call ε σ PUnit).on state = (.ok ⟨⟩, f state) := rfl

theorem on_ofExcept (x : Except ε α) (state : σ) : (ofExcept x : Call ε σ α).on state = (x, state) := by
  cases x <;> rfl

theorem on_forM_modify (f : α → σ → σ) (l : List α) (state : σ) :
    (l.forM fun a => (modify (f a) : Call ε σ PUnit)).on state = (.ok ⟨⟩, l.foldl (fun s a => f a s) state) := by
  induction l generalizing state with
  | nil => rfl
  | cons a rest ih => exact ih (f a state)

/-- The call as one transaction. -/
def transaction (call : Call ε σ α) (state : σ) : Except ε α × σ :=
  match call.on state with
  | (.ok a, s) => (.ok a, s)
  | (.error e, _) => (.error e, state)

theorem transaction_of_ok {call : Call ε σ α} {state after : σ} {a : α} (h : call.on state = (.ok a, after)) :
    call.transaction state = (.ok a, after) := by
  rw [transaction, h]

theorem transaction_of_error {call : Call ε σ α} {state : σ} {e : ε} (h : (call.on state).1 = .error e) :
    call.transaction state = (.error e, state) := by
  rw [transaction]
  rcases hon : call.on state with ⟨_ | a, s⟩
  · rw [hon] at h
    obtain rfl := Except.error.inj h
    rfl
  · rw [hon] at h
    cases h

end Call

end SmartTest.Lib
