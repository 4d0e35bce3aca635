import Mathlib.Tactic.Common

/-!
# Programs made of atomic steps

A program is a tree of labelled atomic steps on a shared state. The program goes on with
what the step saw, so a step is one operation of the shared state and what follows is the
caller's own code. Other parties may change the state between two steps.
-/

namespace SmartTest.Lib

/-- `ℓ` labels the steps, `σ` is the shared state, `ε` what a program may raise. -/
inductive Prog (ℓ σ ε α : Type) where
  | ret (value : α)
  | raise (exn : ε)
  | step (label : ℓ) (act : σ → σ) (next : σ → Prog ℓ σ ε α)

/-- A step that was taken. -/
structure Seen (ℓ σ : Type) where
  label : ℓ
  before : σ
  after : σ

namespace Prog

variable {ℓ σ ε α β γ : Type}

def bind (p : Prog ℓ σ ε α) (k : α → Prog ℓ σ ε β) : Prog ℓ σ ε β :=
  match p with
  | ret a => k a
  | raise e => raise e
  | step label act next => step label act fun s => (next s).bind k

/-- `try p except e: h e`. -/
def handle (p : Prog ℓ σ ε α) (h : ε → Prog ℓ σ ε α) : Prog ℓ σ ε α :=
  match p with
  | ret a => ret a
  | raise e => h e
  | step label act next => step label act fun s => (next s).handle h

instance : Monad (Prog ℓ σ ε) where
  pure := ret
  bind := bind

instance : MonadExceptOf ε (Prog ℓ σ ε) where
  throw := raise
  tryCatch := handle

/-- One operation of the shared state, with its answer or exception. -/
def op (label : ℓ) (f : σ → Except ε α × σ) : Prog ℓ σ ε α :=
  step label (fun s => (f s).2) fun s =>
    match (f s).1 with
    | .ok a => ret a
    | .error e => raise e

/-! ## Runs among other parties -/

/-- A run of a program while others move the state along `R` between its steps: the steps it took,
the outcome, and the state in which it came. -/
inductive Runs (R : σ → σ → Prop) : Prog ℓ σ ε α → σ → List (Seen ℓ σ) → Except ε α → σ → Prop
  | ret (a : α) (s : σ) : Runs R (ret a) s [] (.ok a) s
  | raise (e : ε) (s : σ) : Runs R (raise e) s [] (.error e) s
  | step {label : ℓ} {act : σ → σ} {next : σ → Prog ℓ σ ε α} {s s₁ s' : σ} {trace : List (Seen ℓ σ)}
      {out : Except ε α} (hothers : R s s₁) (hrest : Runs R (next s₁) (act s₁) trace out s') :
      Runs R (step label act next) s (⟨label, s₁, act s₁⟩ :: trace) out s'

/-- A run that begins with an operation and returns: what the operation found and answered, and the rest. -/
theorem Runs.op_bind {R : σ → σ → Prop} {label : ℓ} {f : σ → Except ε α × σ} {k : α → Prog ℓ σ ε β} {s s' : σ}
    {trace : List (Seen ℓ σ)} {b : β} (h : Runs R (op label f >>= k) s trace (.ok b) s') :
    ∃ s₁ a rest, R s s₁ ∧ (f s₁).1 = .ok a ∧ trace = ⟨label, s₁, (f s₁).2⟩ :: rest ∧
      Runs R (k a) (f s₁).2 rest (.ok b) s' := by
  cases h with
  | @step _ _ _ _ s₁ _ rest _ hothers hrest =>
    dsimp only at hrest
    cases hf : (f s₁).1 with
    | ok a =>
      rw [hf] at hrest
      exact ⟨s₁, a, rest, hothers, hf, rfl, hrest⟩
    | error e =>
      rw [hf] at hrest
      cases hrest

/-- The run in which the others move the state along `env n` before the `n`-th step. -/
def runWith (env : Nat → σ → σ) : Nat → Prog ℓ σ ε α → σ → List (Seen ℓ σ) × Except ε α × σ
  | _, ret a, s => ([], .ok a, s)
  | _, raise e, s => ([], .error e, s)
  | n, step label act next, s =>
    let (trace, out, s') := runWith env (n + 1) (next (env n s)) (act (env n s))
    (⟨label, env n s, act (env n s)⟩ :: trace, out, s')

theorem runs_runWith {R : σ → σ → Prop} {env : Nat → σ → σ} (henv : ∀ n s, R s (env n s))
    (p : Prog ℓ σ ε α) (n : Nat) (s : σ) :
    Runs R p s (runWith env n p s).1 (runWith env n p s).2.1 (runWith env n p s).2.2 := by
  induction p generalizing n s with
  | ret a => exact .ret a s
  | raise e => exact .raise e s
  | step label act next ih => exact .step (henv n s) (ih _ (n + 1) _)

/-! ## Safety of a program -/

/-- What a party may rely on and must guarantee. The second state is history: it is written by `obs`
and never read by a program. `trust` is what is known of its own steps already. -/
structure Rules (ℓ σ γ : Type) where
  obs : Seen ℓ σ → γ → γ
  inv : σ × γ → Prop
  rely : σ × γ → σ × γ → Prop
  trust : ℓ → σ × γ → σ × γ → Prop
  guar : ℓ → σ × γ → σ × γ → Prop
  guar_inv : ∀ label x y, inv x → trust label x y → guar label x y → inv y

/-- The state and the history after a step. -/
def Rules.after (L : Rules ℓ σ γ) (label : ℓ) (act : σ → σ) (x : σ × γ) : σ × γ :=
  (act x.1, L.obs ⟨label, x.1, act x.1⟩ x.2)

/-- The condition that goes with an outcome. -/
def Meets (Q : α → σ × γ → Prop) (E : ε → σ × γ → Prop) : Except ε α → σ × γ → Prop
  | .ok a, x => Q a x
  | .error e, x => E e x

/-- Every step of `p` keeps the guarantee, wherever the others have moved the state before it, and
the outcome meets `Q` or `E`. -/
def Safe (L : Rules ℓ σ γ) (Q : α → σ × γ → Prop) (E : ε → σ × γ → Prop) :
    Prog ℓ σ ε α → σ × γ → Prop
  | ret a, x => Q a x
  | raise e, x => E e x
  | step label act next, x => ∀ y, L.inv y → L.rely x y → L.trust label y (L.after label act y) →
      L.guar label y (L.after label act y) ∧ Safe L Q E (next y.1) (L.after label act y)

/-- The rules of a party of which the guarantee is proved. -/
def Rules.trusting (L : Rules ℓ σ γ) : Rules ℓ σ γ where
  obs := L.obs
  inv := L.inv
  rely := L.rely
  trust label x y := L.trust label x y ∧ L.guar label x y
  guar _ _ _ := True
  guar_inv label x y hx htrust _ := L.guar_inv label x y hx htrust.1 htrust.2

/-- A condition on the outcome may be proved apart from the guarantee. -/
theorem Safe.and {L : Rules ℓ σ γ} {Q Q' : α → σ × γ → Prop} {E E' : ε → σ × γ → Prop} {p : Prog ℓ σ ε α}
    {x : σ × γ} (h : Safe L Q E p x) (h' : Safe L.trusting Q' E' p x) :
    Safe L (fun a x => Q a x ∧ Q' a x) (fun e x => E e x ∧ E' e x) p x := by
  induction p generalizing x with
  | ret a => exact ⟨h, h'⟩
  | raise e => exact ⟨h, h'⟩
  | step label act next ih =>
    intro y hy hrely htrust
    obtain ⟨hguar, hnext⟩ := h y hy hrely htrust
    exact ⟨hguar, ih y.1 hnext (h' y hy hrely ⟨htrust, hguar⟩).2⟩

/-- What safety says about a run: the outcome meets its condition, with the history of its steps. -/
theorem Safe.runs {L : Rules ℓ σ γ} {Q : α → σ × γ → Prop} {E : ε → σ × γ → Prop} {p : Prog ℓ σ ε α}
    {R : σ → σ → Prop} {x : σ × γ} {trace : List (Seen ℓ σ)} {out : Except ε α} {s' : σ} (hx : L.inv x)
    (h : Safe L Q E p x) (hrely : ∀ y s, L.inv y → R y.1 s → L.rely y (s, y.2) ∧ L.inv (s, y.2))
    (htrust : ∀ label y z, L.trust label y z) (hrun : Runs R p x.1 trace out s') :
    Meets Q E out (s', trace.foldl (fun g seen => L.obs seen g) x.2) := by
  obtain ⟨s, g⟩ := x
  simp only at hrun
  induction hrun generalizing g with
  | ret a s => exact h
  | raise e s => exact h
  | @step label act next s s₁ s' trace out hothers hrest ih =>
    obtain ⟨hr, hinv⟩ := hrely (s, g) s₁ hx hothers
    obtain ⟨hguar, hnext⟩ := h (s₁, g) hinv hr (htrust _ _ _)
    exact ih _ (L.guar_inv _ _ _ hinv (htrust _ _ _) hguar) hnext

/-! ## What all steps have in common -/

/-- Every step of the program meets `S`, whatever the steps before it saw. -/
def All (S : ℓ → (σ → σ) → Prop) : Prog ℓ σ ε α → Prop
  | ret _ => True
  | raise _ => True
  | step label act next => S label act ∧ ∀ s, All S (next s)

namespace All

variable {S : ℓ → (σ → σ) → Prop}

theorem any (p : Prog ℓ σ ε α) : All (fun _ _ => True) p := by
  induction p with
  | ret a => trivial
  | raise e => trivial
  | step label act next ih => exact ⟨trivial, ih⟩

theorem mono {S' : ℓ → (σ → σ) → Prop} {p : Prog ℓ σ ε α} (h : All S p)
    (himp : ∀ label act, S label act → S' label act) : All S' p := by
  induction p with
  | ret a => trivial
  | raise e => trivial
  | step label act next ih => exact ⟨himp label act h.1, fun s => ih s (h.2 s)⟩

theorem ret (a : α) : All S (pure a : Prog ℓ σ ε α) := trivial

theorem raise (e : ε) : All S (throw e : Prog ℓ σ ε α) := trivial

theorem bind {p : Prog ℓ σ ε α} {k : α → Prog ℓ σ ε β} (hp : All S p) (hk : ∀ a, All S (k a)) :
    All S (p >>= k) := by
  induction p with
  | ret a => exact hk a
  | raise e => trivial
  | step label act next ih => exact ⟨hp.1, fun s => ih s (hp.2 s)⟩

theorem handle {p : Prog ℓ σ ε α} {h : ε → Prog ℓ σ ε α} (hp : All S p) (hh : ∀ e, All S (h e)) :
    All S (p.handle h) := by
  induction p with
  | ret a => trivial
  | raise e => exact hh e
  | step label act next ih => exact ⟨hp.1, fun s => ih s (hp.2 s)⟩

theorem op {label : ℓ} {f : σ → Except ε α × σ} (h : S label fun s => (f s).2) : All S (op label f) := by
  refine ⟨h, fun s => ?_⟩
  dsimp only
  split <;> trivial

/-- What every step of the program and the others keep, a run keeps. -/
theorem runs_keeps {R : σ → σ → Prop} {I : σ → Prop} {p : Prog ℓ σ ε α} (hall : All (fun _ act => ∀ s, I s → I (act s)) p)
    (hothers : ∀ s s', R s s' → I s → I s') {s s' : σ} {trace : List (Seen ℓ σ)} {out : Except ε α}
    (hrun : Runs R p s trace out s') (hs : I s) : I s' := by
  induction hrun with
  | ret a s => exact hs
  | raise e s => exact hs
  | step hstep hrest ih => exact ih (hall.2 _) (hall.1 _ (hothers _ _ hstep hs))

end All

/-! ## Pre- and postconditions -/

/-- From any state with `P`, the program is safe and ends with `Q` or `E`. -/
def Triple (L : Rules ℓ σ γ) (P : σ × γ → Prop) (p : Prog ℓ σ ε α) (Q : α → σ × γ → Prop)
    (E : ε → σ × γ → Prop) : Prop := ∀ x, L.inv x → P x → Safe L Q E p x

/-- The other parties keep `P`. -/
def Stable (L : Rules ℓ σ γ) (P : σ × γ → Prop) : Prop :=
  ∀ x y, L.inv x → L.inv y → L.rely x y → P x → P y

variable {L : Rules ℓ σ γ} {P : σ × γ → Prop} {Q : α → σ × γ → Prop} {E : ε → σ × γ → Prop}

namespace Triple

theorem ret {a : α} (h : ∀ x, L.inv x → P x → Q a x) : Triple L P (pure a : Prog ℓ σ ε α) Q E := h

theorem raise {e : ε} (h : ∀ x, L.inv x → P x → E e x) : Triple L P (throw e : Prog ℓ σ ε α) Q E := h

theorem bind {Q' : β → σ × γ → Prop} {p : Prog ℓ σ ε α} {k : α → Prog ℓ σ ε β} (hp : Triple L P p Q E)
    (hk : ∀ a, Triple L (Q a) (k a) Q' E) : Triple L P (p >>= k) Q' E := by
  intro x hx hP
  have hsafe := hp x hx hP
  clear hP hp
  induction p generalizing x with
  | ret a => exact hk a x hx hsafe
  | raise e => exact hsafe
  | step label act next ih =>
    intro y hy hrely htrust
    obtain ⟨hguar, hnext⟩ := hsafe y hy hrely htrust
    exact ⟨hguar, ih y.1 _ (L.guar_inv _ _ _ hy htrust hguar) hnext⟩

theorem handle {E' : ε → σ × γ → Prop} {p : Prog ℓ σ ε α} {h : ε → Prog ℓ σ ε α} (hp : Triple L P p Q E)
    (hh : ∀ e, Triple L (E e) (h e) Q E') : Triple L P (p.handle h) Q E' := by
  intro x hx hP
  have hsafe := hp x hx hP
  clear hP hp
  induction p generalizing x with
  | ret a => exact hsafe
  | raise e => exact hh e x hx hsafe
  | step label act next ih =>
    intro y hy hrely htrust
    obtain ⟨hguar, hnext⟩ := hsafe y hy hrely htrust
    exact ⟨hguar, ih y.1 _ (L.guar_inv _ _ _ hy htrust hguar) hnext⟩

theorem weaken {P' : σ × γ → Prop} {Q' : α → σ × γ → Prop} {E' : ε → σ × γ → Prop} {p : Prog ℓ σ ε α}
    (h : Triple L P p Q E) (hP : ∀ x, L.inv x → P' x → P x) (hQ : ∀ a x, L.inv x → Q a x → Q' a x)
    (hE : ∀ e x, L.inv x → E e x → E' e x) : Triple L P' p Q' E' := by
  intro x hx hP'
  have hsafe := h x hx (hP x hx hP')
  clear hP' hP h
  induction p generalizing x with
  | ret a => exact hQ a x hx hsafe
  | raise e => exact hE e x hx hsafe
  | step label act next ih =>
    intro y hy hrely htrust
    obtain ⟨hguar, hnext⟩ := hsafe y hy hrely htrust
    exact ⟨hguar, ih y.1 _ (L.guar_inv _ _ _ hy htrust hguar) hnext⟩

/-- An operation is safe when it is so wherever it finds the state. -/
theorem op {label : ℓ} {f : σ → Except ε α × σ} (hP : Stable L P)
    (h : ∀ y, L.inv y → P y → L.trust label y (L.after label (fun s => (f s).2) y) →
      L.guar label y (L.after label (fun s => (f s).2) y) ∧
      Meets Q E (f y.1).1 (L.after label (fun s => (f s).2) y)) : Triple L P (op label f) Q E := by
  intro x hx hPx y hy hrely htrust
  obtain ⟨hguar, hpost⟩ := h y hy (hP x y hx hy hrely hPx) htrust
  refine ⟨hguar, ?_⟩
  dsimp only
  cases hf : (f y.1).1 with
  | ok a =>
    rw [hf] at hpost
    exact hpost
  | error e =>
    rw [hf] at hpost
    exact hpost

/-- A fact that does not depend on the state. -/
theorem assume {φ : Prop} {p : Prog ℓ σ ε α} (h : φ → Triple L P p Q E) :
    Triple L (fun x => P x ∧ φ) p Q E := fun x hx hP => h hP.2 x hx hP.1

/-- What the other parties and every step keep can be added before and after. -/
theorem frame {S : ℓ → (σ → σ) → Prop} {F : σ × γ → Prop} {p : Prog ℓ σ ε α} (h : Triple L P p Q E)
    (hall : All S p) (hF : Stable L F) (hstep : ∀ label act, S label act → ∀ y, L.inv y →
      L.trust label y (L.after label act y) → L.guar label y (L.after label act y) → F y →
      F (L.after label act y)) :
    Triple L (fun x => P x ∧ F x) p (fun a x => Q a x ∧ F x) fun e x => E e x ∧ F x := by
  rintro x hx ⟨hP, hFx⟩
  have hsafe := h x hx hP
  clear hP h
  induction p generalizing x with
  | ret a => exact ⟨hsafe, hFx⟩
  | raise e => exact ⟨hsafe, hFx⟩
  | step label act next ih =>
    intro y hy hrely htrust
    obtain ⟨hguar, hnext⟩ := hsafe y hy hrely htrust
    have hkept := hstep label act hall.1 y hy htrust hguar (hF x y hx hy hrely hFx)
    exact ⟨hguar, ih y.1 (hall.2 y.1) _ (L.guar_inv _ _ _ hy htrust hguar) hkept hnext⟩

/-- What the other parties and every step of the program keep, the program keeps. -/
theorem of_all {S : ℓ → (σ → σ) → Prop} {p : Prog ℓ σ ε α} (hall : All S p) (hP : Stable L P)
    (hstep : ∀ label act, S label act → ∀ y, L.inv y → P y → L.trust label y (L.after label act y) →
      L.guar label y (L.after label act y) ∧ P (L.after label act y)) :
    Triple L P p (fun _ => P) fun _ => P := by
  intro x hx hPx
  induction p generalizing x with
  | ret a => exact hPx
  | raise e => exact hPx
  | step label act next ih =>
    intro y hy hrely htrust
    obtain ⟨hguar, hkept⟩ := hstep label act hall.1 y hy (hP x y hx hy hrely hPx) htrust
    exact ⟨hguar, ih y.1 (hall.2 y.1) _ (L.guar_inv _ _ _ hy htrust hguar) hkept⟩

end Triple

end Prog

end SmartTest.Lib
