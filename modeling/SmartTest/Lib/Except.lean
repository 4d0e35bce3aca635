import Mathlib.Data.List.Forall2
import Mathlib.Tactic.Common

/-! # Taking a successful `Except` computation apart -/

namespace SmartTest.Lib

variable {ε α β : Type}

theorem bind_eq_ok_iff (x : Except ε α) (f : α → Except ε β) (b : β) :
    (x >>= f) = .ok b ↔ ∃ a, x = .ok a ∧ f a = .ok b := by
  cases x with
  | error e => simp [bind, Except.bind]
  | ok a => simp [bind, Except.bind]

theorem bind_eq_error_iff (x : Except ε α) (f : α → Except ε β) (e : ε) :
    (x >>= f) = .error e ↔ x = .error e ∨ ∃ a, x = .ok a ∧ f a = .error e := by
  cases x with
  | error e' => simp [bind, Except.bind]
  | ok a => simp [bind, Except.bind]

theorem map_eq_error_iff (x : Except ε α) (f : α → β) (e : ε) : x.map f = .error e ↔ x = .error e := by
  cases x <;> simp [Except.map]

theorem map_eq_ok_iff (x : Except ε α) (f : α → β) (b : β) : x.map f = .ok b ↔ ∃ a, x = .ok a ∧ f a = b := by
  cases x <;> simp [Except.map]

/-- A guard that raises leaves the rest of its block behind. -/
theorem error_bind (e : ε) (f : α → Except ε β) : (Except.error e >>= f) = .error e := rfl

theorem ok_bind (a : α) (f : α → Except ε β) : (Except.ok a >>= f) = f a := rfl

theorem pure_eq_ok_iff (a b : α) : (pure a : Except ε α) = .ok b ↔ a = b := by
  simp [pure, Except.pure]

theorem ite_error_eq_ok_iff {c : Prop} [Decidable c] (e : ε) (x : Except ε α) (a : α) :
    (if c then .error e else x) = .ok a ↔ ¬ c ∧ x = .ok a := by
  split <;> simp_all

theorem mapM_eq_ok_iff {f : α → Except ε β} {l : List α} {l' : List β} :
    l.mapM f = .ok l' ↔ List.Forall₂ (fun a b => f a = .ok b) l l' := by
  induction l generalizing l' with
  | nil => rw [List.mapM_nil, pure_eq_ok_iff, List.forall₂_nil_left_iff, eq_comm]
  | cons a rest ih =>
    simp only [List.mapM_cons, bind_eq_ok_iff, pure_eq_ok_iff, ih, List.forall₂_cons_left_iff]
    constructor
    · rintro ⟨b, hb, bs, hbs, rfl⟩
      exact ⟨b, bs, hb, hbs, rfl⟩
    · rintro ⟨b, bs, hb, hbs, rfl⟩
      exact ⟨b, hb, bs, hbs, rfl⟩

theorem mapM_ok_of_forall {f : α → Except ε β} {l : List α} (h : ∀ a ∈ l, ∃ b, f a = .ok b) :
    ∃ l', l.mapM f = .ok l' := by
  induction l with
  | nil => exact ⟨[], rfl⟩
  | cons a rest ih =>
    obtain ⟨b, hb⟩ := h a List.mem_cons_self
    obtain ⟨bs, hbs⟩ := ih fun x hx => h x (List.mem_cons_of_mem _ hx)
    exact ⟨b :: bs, by rw [List.mapM_cons, hb, ok_bind, hbs]; rfl⟩

/-- The first that raises decides. -/
theorem mapM_eq_error_iff {f : α → Except ε β} {l : List α} {e : ε} :
    l.mapM f = .error e ↔
      ∃ before a after, l = before ++ a :: after ∧ (∀ x ∈ before, ∃ b, f x = .ok b) ∧ f a = .error e := by
  induction l with
  | nil => simp [pure, Except.pure]
  | cons a rest ih =>
    rw [List.mapM_cons, bind_eq_error_iff]
    constructor
    · rintro (ha | ⟨b, hb, h⟩)
      · exact ⟨[], a, rest, rfl, by simp, ha⟩
      · rcases (bind_eq_error_iff _ _ _).mp h with hrest | ⟨bs, -, h⟩
        · obtain ⟨before, c, after, rfl, hbefore, hc⟩ := ih.mp hrest
          exact ⟨a :: before, c, after, rfl, List.forall_mem_cons.mpr ⟨⟨b, hb⟩, hbefore⟩, hc⟩
        · cases h
    · rintro ⟨before, c, after, hl, hbefore, hc⟩
      cases before with
      | nil =>
        obtain ⟨rfl, -⟩ := List.cons.inj hl
        exact .inl hc
      | cons first before =>
        obtain ⟨rfl, hrest⟩ := List.cons.inj hl
        obtain ⟨⟨b, hb⟩, hbefore⟩ := List.forall_mem_cons.mp hbefore
        exact .inr ⟨b, hb, (bind_eq_error_iff _ _ _).mpr (.inl (ih.mpr ⟨before, c, after, hrest, hbefore, hc⟩))⟩

/-! ## Raising alike -/

/-- Two computations that raise where the other raises, and the same. -/
def RaisesAlike (x : Except ε α) (y : Except ε β) : Prop := ∀ e, x = .error e ↔ y = .error e

namespace RaisesAlike

variable {γ δ : Type} {x : Except ε α} {y : Except ε β}

theorem refl (x : Except ε α) : RaisesAlike x x := fun _ => Iff.rfl

theorem symm (h : RaisesAlike x y) : RaisesAlike y x := fun e => (h e).symm

theorem trans {z : Except ε γ} (h : RaisesAlike x y) (h' : RaisesAlike y z) : RaisesAlike x z :=
  fun e => (h e).trans (h' e)

theorem ok (a : α) (b : β) : RaisesAlike (.ok a : Except ε α) (.ok b : Except ε β) := by
  intro e
  simp

theorem map (x : Except ε α) (f : α → γ) : RaisesAlike (x.map f) x := fun e => map_eq_error_iff x f e

theorem bind {f : α → Except ε γ} {g : β → Except ε δ} (h : RaisesAlike x y)
    (hnext : ∀ a b, x = .ok a → y = .ok b → RaisesAlike (f a) (g b)) : RaisesAlike (x >>= f) (y >>= g) := by
  cases x with
  | error e =>
    rw [(h e).mp rfl]
    intro e'
    simp [error_bind]
  | ok a =>
    cases y with
    | error e => exact absurd ((h e).mpr rfl) (by simp)
    | ok b => exact hnext a b rfl rfl

/-- What follows the last that may raise does not matter. -/
theorem bind_pure (h : RaisesAlike x y) (f : α → γ) : RaisesAlike (do return f (← x)) y := by
  cases x with
  | error e =>
    intro e'
    rw [← h e']
    simp
  | ok a =>
    intro e
    rw [← h e]
    simp [ok_bind, pure, Except.pure]

theorem mapM {f : α → Except ε β} {g : α → Except ε γ} {l : List α} (h : ∀ a ∈ l, RaisesAlike (f a) (g a)) :
    RaisesAlike (l.mapM f) (l.mapM g) := by
  induction l with
  | nil => exact ok [] []
  | cons a rest ih =>
    obtain ⟨ha, hrest⟩ := List.forall_mem_cons.mp h
    rw [List.mapM_cons, List.mapM_cons]
    refine ha.bind fun b c _ _ => (ih hrest).bind fun bs cs _ _ => ok _ _

theorem mapM_append (f : α → Except ε β) (l l' : List α) :
    RaisesAlike ((l ++ l').mapM f) (do
      let _ ← l.mapM f
      l'.mapM f) := by
  rw [List.mapM_append]
  refine (refl (l.mapM f)).bind fun bs bs' _ _ => ?_
  exact (refl (l'.mapM f)).bind_pure _

theorem mapM_flatMap (f : β → Except ε γ) (g : α → List β) (l : List α) :
    RaisesAlike ((l.flatMap g).mapM f) (l.mapM fun a => (g a).mapM f) := by
  induction l with
  | nil => exact ok [] []
  | cons a rest ih =>
    rw [List.flatMap_cons, List.mapM_cons]
    refine (mapM_append f _ _).trans ?_
    refine (refl _).bind fun bs bs' _ _ => ?_
    exact (ih.symm.bind_pure _).symm

end RaisesAlike

end SmartTest.Lib
