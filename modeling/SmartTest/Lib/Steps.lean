import Mathlib.Tactic.Common

/-!
# Labelled steps

A machine that takes one labelled step at a time. The label has everything the machine does
not decide itself, so a list of labels is one run, and a label that is not possible ends it.
-/

namespace SmartTest.Lib

variable {σ ℓ : Type}

/-- The state after a list of steps, or `none` where one of them is not possible. -/
def runSteps (step : σ → ℓ → Option σ) : σ → List ℓ → Option σ
  | s, [] => some s
  | s, label :: rest => (step s label).bind fun s' => runSteps step s' rest

variable {step : σ → ℓ → Option σ}

theorem runSteps_cons {s s' : σ} {label : ℓ} {rest : List ℓ} :
    runSteps step s (label :: rest) = some s' ↔ ∃ t, step s label = some t ∧ runSteps step t rest = some s' := by
  rw [runSteps, Option.bind_eq_some_iff]

/-- Every step of the run meets `ok`, in the state in which it is taken. -/
def Along (step : σ → ℓ → Option σ) (ok : σ → ℓ → Prop) : σ → List ℓ → Prop
  | _, [] => True
  | s, label :: rest => ok s label ∧ ∀ s', step s label = some s' → Along step ok s' rest

theorem along_cons {ok : σ → ℓ → Prop} {s t : σ} {label : ℓ} {rest : List ℓ} (hok : ok s label)
    (hstep : step s label = some t) (hrest : Along step ok t rest) : Along step ok s (label :: rest) := by
  refine ⟨hok, ?_⟩
  intro t' ht'
  rw [hstep] at ht'
  exact Option.some.inj ht' ▸ hrest

/-- What every step keeps, a run keeps. -/
theorem runSteps_keeps {I : σ → Prop} (hstep : ∀ s label s', I s → step s label = some s' → I s') {s s' : σ}
    {labels : List ℓ} (hs : I s) (hrun : runSteps step s labels = some s') : I s' := by
  induction labels generalizing s with
  | nil =>
    obtain rfl := Option.some.inj hrun
    exact hs
  | cons label rest ih =>
    obtain ⟨t, ht, hrest⟩ := runSteps_cons.mp hrun
    exact ih (hstep s label t hs ht) hrest

/-- Where every step of one machine is, seen through `f`, a step of the other with the same label, so are its runs. -/
theorem runSteps_map {σ' : Type} {step' : σ' → ℓ → Option σ'} {f : σ → σ'}
    (hstep : ∀ s label t, step s label = some t → step' (f s) label = some (f t)) {s t : σ} {labels : List ℓ}
    (hrun : runSteps step s labels = some t) : runSteps step' (f s) labels = some (f t) := by
  induction labels generalizing s with
  | nil =>
    obtain rfl := Option.some.inj hrun
    rfl
  | cons label rest ih =>
    obtain ⟨u, hu, hrest⟩ := runSteps_cons.mp hrun
    exact runSteps_cons.mpr ⟨f u, hstep s label u hu, ih hrest⟩

/-- Where every step of one machine is, seen through `f`, a step of the other or none, so are its runs. -/
theorem runSteps_simulates {σ' ℓ' : Type} {step' : σ' → ℓ' → Option σ'} {f : σ → σ'}
    (hstep : ∀ s label t, step s label = some t → f t = f s ∨ ∃ label', step' (f s) label' = some (f t)) {s t : σ}
    {labels : List ℓ} (hrun : runSteps step s labels = some t) :
    ∃ labels', runSteps step' (f s) labels' = some (f t) := by
  induction labels generalizing s with
  | nil =>
    obtain rfl := Option.some.inj hrun
    exact ⟨[], rfl⟩
  | cons label rest ih =>
    obtain ⟨u, hu, hrest⟩ := runSteps_cons.mp hrun
    obtain ⟨labels', hlabels'⟩ := ih hrest
    rcases hstep s label u hu with hstays | ⟨label', hlabel'⟩
    · exact ⟨labels', hstays ▸ hlabels'⟩
    · exact ⟨label' :: labels', runSteps_cons.mpr ⟨f u, hlabel', hlabels'⟩⟩

/-- What every step that meets `ok` keeps, a run of such steps keeps. -/
theorem Along.keeps {I : σ → Prop} {ok : σ → ℓ → Prop}
    (hstep : ∀ s label s', I s → ok s label → step s label = some s' → I s') {s s' : σ} {labels : List ℓ} (hs : I s)
    (hok : Along step ok s labels) (hrun : runSteps step s labels = some s') : I s' := by
  induction labels generalizing s with
  | nil =>
    obtain rfl := Option.some.inj hrun
    exact hs
  | cons label rest ih =>
    obtain ⟨t, ht, hrest⟩ := runSteps_cons.mp hrun
    exact ih (hstep s label t hs hok.1 ht) (hok.2 t ht) hrest

/-- A condition on the labels alone. -/
theorem along_of_forall {ok : σ → ℓ → Prop} {s : σ} {labels : List ℓ} (h : ∀ label ∈ labels, ∀ s, ok s label) :
    Along step ok s labels := by
  induction labels generalizing s with
  | nil => trivial
  | cons label rest ih =>
    obtain ⟨hlabel, hrest⟩ := List.forall_mem_cons.mp h
    exact ⟨hlabel s, fun s' _ => ih hrest⟩

theorem Along.imp {ok ok' : σ → ℓ → Prop} {s : σ} {labels : List ℓ} (h : Along step ok s labels)
    (himp : ∀ s label, ok s label → ok' s label) : Along step ok' s labels := by
  induction labels generalizing s with
  | nil => trivial
  | cons label rest ih => exact ⟨himp s label h.1, fun s' hs' => ih (h.2 s' hs')⟩

/-- `Along`, evaluated. -/
def checkAlong (step : σ → ℓ → Option σ) (ok : σ → ℓ → Bool) : σ → List ℓ → Bool
  | _, [] => true
  | s, label :: rest => ok s label && (step s label).all fun s' => checkAlong step ok s' rest

theorem along_of_check {ok : σ → ℓ → Bool} {s : σ} {labels : List ℓ} (h : checkAlong step ok s labels = true) :
    Along step (fun s label => ok s label = true) s labels := by
  induction labels generalizing s with
  | nil => trivial
  | cons label rest ih =>
    obtain ⟨hok, hrest⟩ := Bool.and_eq_true_iff.mp h
    refine ⟨hok, ?_⟩
    intro s' hs'
    rw [hs', Option.all_some] at hrest
    exact ih hrest

theorem Along.and {ok ok' : σ → ℓ → Prop} {s : σ} {labels : List ℓ} (h : Along step ok s labels)
    (h' : Along step ok' s labels) : Along step (fun s label => ok s label ∧ ok' s label) s labels := by
  induction labels generalizing s with
  | nil => trivial
  | cons label rest ih => exact ⟨⟨h.1, h'.1⟩, fun s' hs' => ih (h.2 s' hs') (h'.2 s' hs')⟩

/-- Two conditions that say the same wherever an invariant holds, and keep it, say the same of runs. -/
theorem along_iff_along {I : σ → Prop} {P : ℓ → Prop} {ok ok' : σ → ℓ → Prop}
    (hiff : ∀ s label s', I s → P label → step s label = some s' → (ok s label ↔ ok' s label))
    (hstep : ∀ s label s', I s → P label → ok s label → step s label = some s' → I s') {s s' : σ} {labels : List ℓ}
    (hs : I s) (hlabels : ∀ label ∈ labels, P label) (hrun : runSteps step s labels = some s') :
    Along step ok s labels ↔ Along step ok' s labels := by
  induction labels generalizing s with
  | nil => rfl
  | cons label rest ih =>
    obtain ⟨t, ht, hrest⟩ := runSteps_cons.mp hrun
    obtain ⟨hlabel, hlater⟩ := List.forall_mem_cons.mp hlabels
    have hnext : ok s label → (Along step ok t rest ↔ Along step ok' t rest) :=
      fun hok => ih (hstep s label t hs hlabel hok ht) hlater hrest
    simp only [Along, ht, Option.some.injEq, forall_eq']
    rw [← hiff s label t hs hlabel ht]
    exact and_congr_right hnext

/-- A run that breaks the condition has a step that does. -/
theorem exists_of_not_along {ok : σ → ℓ → Prop} {s s' : σ} {labels : List ℓ}
    (hrun : runSteps step s labels = some s') (h : ¬ Along step ok s labels) :
    ∃ t label t' first rest, runSteps step s first = some t ∧ ¬ ok t label ∧ step t label = some t' ∧
      runSteps step t' rest = some s' := by
  induction labels generalizing s with
  | nil => exact absurd trivial h
  | cons label rest ih =>
    obtain ⟨t, ht, hrest⟩ := runSteps_cons.mp hrun
    by_cases hok : ok s label
    · have hlater : ¬ Along step ok t rest := by
        intro halong
        refine h ⟨hok, ?_⟩
        intro u hu
        obtain rfl := Option.some.inj (ht.symm.trans hu)
        exact halong
      obtain ⟨u, bad, u', first, last, hfirst, hbad, hu, hlast⟩ := ih hrest hlater
      exact ⟨u, bad, u', label :: first, last, runSteps_cons.mpr ⟨t, ht, hfirst⟩, hbad, hu, hlast⟩
    · exact ⟨s, label, t, [], rest, rfl, hok, ht, hrest⟩

/-- A quantity that every step brings down bounds the length of a run. -/
theorem length_le_of_decreases {size : σ → Nat}
    (hstep : ∀ s label s', step s label = some s' → size s' < size s) {s s' : σ} {labels : List ℓ}
    (hrun : runSteps step s labels = some s') : labels.length + size s' ≤ size s := by
  induction labels generalizing s with
  | nil =>
    obtain rfl := Option.some.inj hrun
    simp
  | cons label rest ih =>
    obtain ⟨t, ht, hrest⟩ := runSteps_cons.mp hrun
    have hlt := hstep s label t ht
    have hle := ih hrest
    simp only [List.length_cons]
    omega

end SmartTest.Lib
