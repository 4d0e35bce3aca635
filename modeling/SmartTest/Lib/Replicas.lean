import Mathlib.Data.List.Forall2
import Mathlib.Data.List.Nodup

/-!
# Two stores under the same calls

A call answers and leaves a state. Two stores that answer one call alike, and stay related,
answer every list of calls alike. Calls may draw ids, each of them once.
-/

namespace SmartTest.Lib

variable {σ τ ℓ α β ι : Type}

/-- The answers to a list of calls, one after the other. -/
def answers (on : σ → ℓ → α × σ) : σ → List ℓ → List α
  | _, [] => []
  | s, call :: rest => (on s call).1 :: answers on (on s call).2 rest

/-- The state after a list of calls. -/
def stateAfter (on : σ → ℓ → α × σ) : σ → List ℓ → σ
  | s, [] => s
  | s, call :: rest => stateAfter on (on s call).2 rest

variable {on : σ → ℓ → α × σ} {on' : τ → ℓ → β × τ}

/-- No id is drawn twice. -/
def DrawnOnce (draws : ℓ → Option ι) (drawn : List ι) (calls : List ℓ) : Prop :=
  (drawn ++ calls.filterMap draws).Nodup

instance [DecidableEq ι] (draws : ℓ → Option ι) (drawn : List ι) (calls : List ℓ) :
    Decidable (DrawnOnce draws drawn calls) :=
  inferInstanceAs (Decidable (drawn ++ calls.filterMap draws).Nodup)

theorem drawnOnce_cons {draws : ℓ → Option ι} {drawn : List ι} {call : ℓ} {rest : List ℓ}
    (h : DrawnOnce draws drawn (call :: rest)) :
    (∀ i, draws call = some i → i ∉ drawn) ∧ DrawnOnce draws (drawn ++ (draws call).toList) rest := by
  unfold DrawnOnce at h ⊢
  rw [List.filterMap_cons] at h
  cases hdraws : draws call with
  | none =>
    rw [hdraws] at h
    exact ⟨by simp, by simpa using h⟩
  | some i =>
    rw [hdraws] at h
    refine ⟨?_, by simpa using h⟩
    rintro j hj hmem
    obtain rfl := Option.some.inj hj
    exact (List.nodup_append.mp h).2.2 i hmem i List.mem_cons_self rfl

/-- Related stores answer alike. -/
theorem answers_alike {draws : ℓ → Option ι} {R : List ι → σ → τ → Prop} {same : α → β → Prop}
    (hstep : ∀ drawn s t call, R drawn s t → (∀ i, draws call = some i → i ∉ drawn) →
      same (on s call).1 (on' t call).1 ∧ R (drawn ++ (draws call).toList) (on s call).2 (on' t call).2)
    {drawn : List ι} {s : σ} {t : τ} {calls : List ℓ} (hs : R drawn s t) (hcalls : DrawnOnce draws drawn calls) :
    List.Forall₂ same (answers on s calls) (answers on' t calls) := by
  induction calls generalizing drawn s t with
  | nil => exact .nil
  | cons call rest ih =>
    obtain ⟨hnew, hrest⟩ := drawnOnce_cons hcalls
    obtain ⟨hsame, hnext⟩ := hstep drawn s t call hs hnew
    exact .cons hsame (ih hnext hrest)

end SmartTest.Lib
