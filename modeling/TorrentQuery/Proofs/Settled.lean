import Mathlib.Tactic.Common

namespace TorrentQuery

theorem eq_ok_of_toOption {ε α : Type} {x : Except ε α} {a : α} (h : x.toOption = some a) :
    x = .ok a := by
  cases x with
  | error e => cases h
  | ok b => exact congrArg _ (Option.some.inj h)

/-- A way of running work in a state, and the states that it is run in. -/
structure Runner (m : Type → Type) [Monad m] (σ : Type) where
  run {α : Type} : m α → σ → α × σ
  fits : σ → Prop
  run_pure {α : Type} (a : α) (s : σ) : run (pure a) s = (a, s)
  run_bind {α β : Type} (w : m α) (f : α → m β) (s : σ) :
    run (w >>= f) s = run (f (run w s).1) (run w s).2

theorem Runner.run_map {m : Type → Type} [Monad m] [LawfulMonad m] {σ ε α β : Type}
    (R : Runner m σ) (w : ExceptT ε m α) (f : α → β) (s : σ) :
    R.run (f <$> w).run s = ((R.run w.run s).1.map f, (R.run w.run s).2) := by
  rw [ExceptT.run_map, map_eq_pure_bind, R.run_bind, R.run_pure]

theorem Runner.run_adapt {m : Type → Type} [Monad m] [LawfulMonad m] {σ ε ε' α : Type}
    (R : Runner m σ) (w : ExceptT ε m α) (f : ε → ε') (s : σ) :
    R.run (w.adapt f).run s = ((R.run w.run s).1.mapError f, (R.run w.run s).2) := by
  have hrun : (w.adapt f).run = Except.mapError f <$> w.run := rfl
  rw [hrun, map_eq_pure_bind, R.run_bind, R.run_pure]

/-- The work comes to `x` from a state, or fails if `x` is nothing, and leaves a state behind that
work is run in. -/
def ComesTo {m : Type → Type} [Monad m] {σ ε α : Type} (R : Runner m σ) (w : ExceptT ε m α) (s : σ)
    (x : Option α) : Prop :=
  (R.run w.run s).1.toOption = x ∧ R.fits (R.run w.run s).2

/-- The work comes to the same from each of the states. -/
def Settled {m : Type → Type} [Monad m] {σ ε α : Type} (R : Runner m σ) (w : ExceptT ε m α)
    (x : Option α) : Prop :=
  ∀ s, R.fits s → ComesTo R w s x

namespace Settled

variable {m : Type → Type} [Monad m] {σ ε ε' α β : Type} {R : Runner m σ}

protected theorem pure (a : α) : Settled R (pure a : ExceptT ε m α) (some a) := by
  intro s hs
  rw [ComesTo, ExceptT.run_pure, R.run_pure]
  exact ⟨rfl, hs⟩

protected theorem throw (e : ε) : Settled R (throw e : ExceptT ε m α) none := by
  intro s hs
  rw [ComesTo, ExceptT.run_throw, R.run_pure]
  exact ⟨rfl, hs⟩

protected theorem bind {w : ExceptT ε m α} {f : α → ExceptT ε m β} {x : Option α}
    {y : α → Option β} (hw : Settled R w x) (hf : ∀ a, x = some a → Settled R (f a) (y a)) :
    Settled R (w >>= f) (x.bind y) := by
  intro s hs
  obtain ⟨hx, hs'⟩ := hw s hs
  rw [ComesTo, ExceptT.run_bind, R.run_bind]
  generalize R.run w.run s = r at hx hs'
  obtain ⟨answer, s'⟩ := r
  cases answer with
  | error e =>
    subst hx
    exact Settled.throw e s' hs'
  | ok a =>
    subst hx
    exact hf a rfl s' hs'

protected theorem map [LawfulMonad m] {w : ExceptT ε m α} {x : Option α} (hw : Settled R w x)
    (f : α → β) : Settled R (f <$> w) (x.map f) := by
  rw [map_eq_pure_bind, Option.map_eq_bind]
  exact hw.bind fun a _ => Settled.pure (f a)

protected theorem adapt [LawfulMonad m] {w : ExceptT ε m α} {x : Option α} (hw : Settled R w x)
    (f : ε → ε') : Settled R (w.adapt f) x := by
  intro s hs
  obtain ⟨hx, hs'⟩ := hw s hs
  rw [ComesTo, R.run_adapt]
  refine ⟨?_, hs'⟩
  rw [← hx]
  cases (R.run w.run s).1 <;> rfl

/-- What is made of a result is settled just as if it was made by the work itself. -/
theorem map_iff [LawfulMonad m] {w : ExceptT ε m α} {f : α → β} {y : Option β} :
    Settled R (f <$> w) y ↔ ∀ s, R.fits s →
      (R.run w.run s).1.toOption.map f = y ∧ R.fits (R.run w.run s).2 := by
  have hmap (x : Except ε α) : (x.map f).toOption = x.toOption.map f := by
    cases x <;> rfl
  simp only [Settled, ComesTo, R.run_map, hmap]

end Settled

end TorrentQuery
