import Mathlib.Data.List.Induction
import Mathlib.Logic.Function.Basic
import SmartTest.Lib.Prog

/-!
# Concurrent calls

Any number of calls run at once, each its own program. A move starts a call, takes the next
step of one, or changes the state from outside. A move that is not possible changes
nothing, so every list of moves is a run.
-/

namespace SmartTest.Lib

/-- `κ` are the calls, `γ` is history that no program reads. -/
structure Pool (κ ℓ σ γ ε : Type) where
  store : σ
  history : γ
  threads : Nat → Option (κ × Prog ℓ σ ε Unit)

inductive Move (κ η : Type) where
  | spawn (pid : Nat) (call : κ)
  | step (pid : Nat)
  | outside (event : η)

/-- What the calls of a pool do, and what is noted of their steps. -/
structure Machine (κ ℓ σ γ η ε : Type) where
  program : κ → Prog ℓ σ ε Unit
  outside : η → σ → σ
  obs : Nat → κ → Seen ℓ σ → γ → γ

namespace Pool

open Prog

variable {κ ℓ σ γ η ε : Type} (M : Machine κ ℓ σ γ η ε)

def apply (c : Pool κ ℓ σ γ ε) : Move κ η → Pool κ ℓ σ γ ε
  | .spawn pid call =>
    match c.threads pid with
    | none => { c with threads := Function.update c.threads pid (some (call, M.program call)) }
    | some _ => c
  | .step pid =>
    match c.threads pid with
    | some (call, .step label act next) =>
      { store := act c.store
        history := M.obs pid call ⟨label, c.store, act c.store⟩ c.history
        threads := Function.update c.threads pid (some (call, next c.store)) }
    | _ => c
  | .outside event => { c with store := M.outside event c.store }

/-- Every call has ended. -/
def Quiet (c : Pool κ ℓ σ γ ε) : Prop :=
  ∀ pid call p, c.threads pid = some (call, p) → (∃ a, p = .ret a) ∨ ∃ e, p = .raise e

/-- The runs of which every move meets `ok`. -/
inductive Reaches (ok : Pool κ ℓ σ γ ε → Move κ η → Prop) (start : Pool κ ℓ σ γ ε) :
    Pool κ ℓ σ γ ε → Prop
  | start : Reaches ok start start
  | move {c : Pool κ ℓ σ γ ε} (m : Move κ η) (h : Reaches ok start c) (hm : ok c m) :
      Reaches ok start (c.apply M m)

/-- The pool after a list of moves. -/
def runMoves (c : Pool κ ℓ σ γ ε) (moves : List (Move κ η)) : Pool κ ℓ σ γ ε := moves.foldl (apply M) c

theorem reaches_runMoves (start : Pool κ ℓ σ γ ε) (moves : List (Move κ η)) :
    Reaches M (fun _ _ => True) start (start.runMoves M moves) := by
  induction moves using List.reverseRecOn with
  | nil => exact .start
  | append_singleton moves m ih =>
    rw [runMoves, List.foldl_append]
    exact .move m ih trivial

variable {M} {ok : Pool κ ℓ σ γ ε → Move κ η → Prop} {start : Pool κ ℓ σ γ ε}

theorem Reaches.mono {ok' : Pool κ ℓ σ γ ε → Move κ η → Prop} (hok : ∀ c m, ok c m → ok' c m)
    {c : Pool κ ℓ σ γ ε} (h : Reaches M ok start c) : Reaches M ok' start c := by
  induction h with
  | start => exact .start
  | move m _ hm ih => exact .move m ih (hok _ _ hm)

theorem Reaches.trans {c d : Pool κ ℓ σ γ ε} (h : Reaches M ok start c) (h' : Reaches M ok c d) :
    Reaches M ok start d := by
  induction h' with
  | start => exact h
  | move m _ hm ih => exact .move m ih hm

/-! ## Rules for each call -/

/-- The rules of all calls fit together. `Idle` says what is noted of a number that no call has yet. -/
structure Fits (M : Machine κ ℓ σ γ η ε) (rules : Nat → κ → Rules ℓ σ γ) (I : σ × γ → Prop)
    (Idle : Nat → σ × γ → Prop) : Prop where
  obs : ∀ pid call, (rules pid call).obs = M.obs pid call
  inv : ∀ pid call, (rules pid call).inv = I
  trust : ∀ pid call label x y, (rules pid call).trust label x y
  refl : ∀ pid call x, (rules pid call).rely x x
  trans : ∀ pid call x y z, (rules pid call).rely x y → (rules pid call).rely y z → (rules pid call).rely x z
  others : ∀ pid call pid' call' label x y, pid ≠ pid' → I x → (rules pid call).guar label x y →
    (rules pid' call').rely x y
  idle : ∀ pid call label pid' x y, pid ≠ pid' → (rules pid call).guar label x y → Idle pid' x → Idle pid' y
  outside : ∀ event x, I x → I (M.outside event x.1, x.2) ∧
    (∀ pid call, (rules pid call).rely x (M.outside event x.1, x.2)) ∧
    ∀ pid, Idle pid x → Idle pid (M.outside event x.1, x.2)

def now (c : Pool κ ℓ σ γ ε) : σ × γ := (c.store, c.history)

/-- What holds in every state of a run: the invariant, and the rest of each call is safe from where it
stood last. -/
structure Sound (rules : Nat → κ → Rules ℓ σ γ) (I : σ × γ → Prop) (Idle : Nat → σ × γ → Prop)
    (Q : Nat → κ → Unit → σ × γ → Prop) (E : Nat → κ → ε → σ × γ → Prop) (c : Pool κ ℓ σ γ ε) : Prop where
  inv : I c.now
  idle : ∀ pid, c.threads pid = none → Idle pid c.now
  threads : ∀ pid call p, c.threads pid = some (call, p) →
    ∃ x, (rules pid call).rely x c.now ∧ Safe (rules pid call) (Q pid call) (E pid call) p x

variable {rules : Nat → κ → Rules ℓ σ γ} {I : σ × γ → Prop} {Idle : Nat → σ × γ → Prop}
  {Q : Nat → κ → Unit → σ × γ → Prop} {E : Nat → κ → ε → σ × γ → Prop}

/-- A step of a call keeps its guarantee. -/
theorem Sound.step_guar (hfits : Fits M rules I Idle) {c : Pool κ ℓ σ γ ε} (h : Sound rules I Idle Q E c)
    {pid : Nat} {call : κ} {label : ℓ} {act : σ → σ} {next : σ → Prog ℓ σ ε Unit}
    (hthread : c.threads pid = some (call, .step label act next)) :
    (rules pid call).guar label c.now (c.apply M (.step pid)).now ∧
      Safe (rules pid call) (Q pid call) (E pid call) (next c.store) (c.apply M (.step pid)).now := by
  obtain ⟨x, hrely, hsafe⟩ := h.threads pid call _ hthread
  have hinv : (rules pid call).inv c.now := by
    rw [hfits.inv]
    exact h.inv
  have heq : (c.apply M (.step pid)).now = (rules pid call).after label act c.now := by
    simp [apply, hthread, now, Rules.after, hfits.obs]
  rw [heq]
  exact hsafe c.now hinv hrely (hfits.trust _ _ _ _ _)

theorem Sound.spawn (hfits : Fits M rules I Idle) {c : Pool κ ℓ σ γ ε} (h : Sound rules I Idle Q E c)
    {pid : Nat} {call : κ} (hspawn : ∀ x, I x → Idle pid x →
      Safe (rules pid call) (Q pid call) (E pid call) (M.program call) x) :
    Sound rules I Idle Q E (c.apply M (.spawn pid call)) := by
  cases hthread : c.threads pid with
  | some _ => simpa only [Pool.apply, hthread] using h
  | none =>
    simp only [Pool.apply, hthread]
    refine ⟨h.inv, ?_, ?_⟩
    · intro pid' hnone
      dsimp only at hnone
      by_cases hp : pid' = pid
      · simp [hp] at hnone
      · rw [Function.update_of_ne hp] at hnone
        exact h.idle pid' hnone
    · intro pid' call' p hp'
      dsimp only at hp'
      by_cases hp : pid' = pid
      · subst hp
        rw [Function.update_self] at hp'
        cases hp'
        exact ⟨c.now, hfits.refl _ _ _, hspawn _ h.inv (h.idle _ hthread)⟩
      · rw [Function.update_of_ne hp] at hp'
        exact h.threads pid' call' p hp'

theorem Sound.step (hfits : Fits M rules I Idle) {c : Pool κ ℓ σ γ ε} (h : Sound rules I Idle Q E c)
    {pid : Nat} {call : κ} {label : ℓ} {act : σ → σ} {next : σ → Prog ℓ σ ε Unit}
    (hthread : c.threads pid = some (call, .step label act next)) :
    Sound rules I Idle Q E (c.apply M (.step pid)) := by
  obtain ⟨hguar, hnext⟩ := h.step_guar hfits hthread
  have hinv := (rules pid call).guar_inv label c.now _ (by rw [hfits.inv]; exact h.inv)
    (hfits.trust _ _ _ _ _) hguar
  rw [hfits.inv] at hinv
  have hthreads : (c.apply M (.step pid)).threads =
      Function.update c.threads pid (some (call, next c.store)) := by
    simp [Pool.apply, hthread]
  refine ⟨hinv, ?_, ?_⟩
  · intro pid' hnone
    rw [hthreads] at hnone
    by_cases hp : pid' = pid
    · simp [hp] at hnone
    · rw [Function.update_of_ne hp] at hnone
      exact hfits.idle pid call label pid' _ _ (Ne.symm hp) hguar (h.idle pid' hnone)
  · intro pid' call' p' hp'
    rw [hthreads] at hp'
    by_cases hp : pid' = pid
    · subst hp
      rw [Function.update_self] at hp'
      cases hp'
      exact ⟨_, hfits.refl _ _ _, hnext⟩
    · rw [Function.update_of_ne hp] at hp'
      obtain ⟨x, hrely, hsafe⟩ := h.threads pid' call' p' hp'
      have hkept := hfits.others pid call pid' call' label _ _ (Ne.symm hp) h.inv hguar
      exact ⟨x, hfits.trans _ _ _ _ _ hrely hkept, hsafe⟩

theorem Sound.apply (hfits : Fits M rules I Idle) {c : Pool κ ℓ σ γ ε} (h : Sound rules I Idle Q E c)
    (m : Move κ η) (hspawn : ∀ pid call, m = .spawn pid call → ∀ x, I x → Idle pid x →
      Safe (rules pid call) (Q pid call) (E pid call) (M.program call) x) :
    Sound rules I Idle Q E (c.apply M m) := by
  cases m with
  | spawn pid call => exact h.spawn hfits (hspawn pid call rfl)
  | step pid =>
    rcases hthread : c.threads pid with _ | ⟨call, p⟩
    · simpa only [Pool.apply, hthread] using h
    · cases p with
      | ret a => simpa only [Pool.apply, hthread] using h
      | raise e => simpa only [Pool.apply, hthread] using h
      | step label act next => exact h.step hfits hthread
  | outside event =>
    obtain ⟨hinv, hrely, hidle⟩ := hfits.outside event c.now h.inv
    refine ⟨hinv, fun pid hnone => hidle pid (h.idle pid hnone), ?_⟩
    intro pid call p hp
    obtain ⟨x, hx, hsafe⟩ := h.threads pid call p hp
    exact ⟨x, hfits.trans _ _ _ _ _ hx (hrely pid call), hsafe⟩

/-- What a move does to the state: nothing, a step of a call, or an event from outside. -/
theorem Sound.move_cases (hfits : Fits M rules I Idle) {c : Pool κ ℓ σ γ ε} (h : Sound rules I Idle Q E c)
    (m : Move κ η) : (c.apply M m).now = c.now ∨
      (∃ pid call label p, m = .step pid ∧ c.threads pid = some (call, p) ∧
        (rules pid call).guar label c.now (c.apply M m).now) ∨
      ∃ event, (c.apply M m).now = (M.outside event c.store, c.history) := by
  cases m with
  | spawn pid call =>
    left
    simp only [Pool.apply]
    split <;> rfl
  | step pid =>
    rcases hthread : c.threads pid with _ | ⟨call, p⟩
    · exact .inl (by simp [Pool.apply, hthread])
    · cases p with
      | ret a => exact .inl (by simp [Pool.apply, hthread])
      | raise e => exact .inl (by simp [Pool.apply, hthread])
      | step label act next =>
        exact .inr (.inl ⟨pid, call, label, _, rfl, hthread, (h.step_guar hfits hthread).1⟩)
  | outside event => exact .inr (.inr ⟨event, rfl⟩)

/-- Safe calls are sound in every state of every run. -/
theorem Reaches.sound (hfits : Fits M rules I Idle) (hstart : Sound rules I Idle Q E start)
    (hspawn : ∀ c pid call, ok c (.spawn pid call) → ∀ x, I x → Idle pid x →
      Safe (rules pid call) (Q pid call) (E pid call) (M.program call) x)
    {c : Pool κ ℓ σ γ ε} (h : Reaches M ok start c) : Sound rules I Idle Q E c := by
  induction h with
  | start => exact hstart
  | @move c m _ hm ih =>
    refine ih.apply hfits m ?_
    rintro pid call rfl
    exact hspawn c pid call hm

end Pool

end SmartTest.Lib
