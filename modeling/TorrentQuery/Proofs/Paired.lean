import TorrentQuery.Proofs.Settled

namespace TorrentQuery

/-- The same failure, or results that are related. -/
inductive Agree {ε β γ : Type} (R : β → γ → Prop) : Except ε β → Except ε γ → Prop
  | error (e : ε) : Agree R (.error e) (.error e)
  | ok {b : β} {c : γ} : R b c → Agree R (.ok b) (.ok c)

namespace Agree

variable {ε β γ : Type} {R : β → γ → Prop} {x : Except ε β} {y : Except ε γ}

theorem eq {y : Except ε β} (h : Agree Eq x y) : x = y := by
  cases h with
  | error e => rfl
  | ok h => rw [h]

theorem refl {R : β → β → Prop} (hR : ∀ b, R b b) (x : Except ε β) : Agree R x x := by
  cases x with
  | error e => exact .error e
  | ok b => exact .ok (hR b)

theorem mapError {ε' : Type} (f : ε → ε') (h : Agree R x y) :
    Agree R (x.mapError f) (y.mapError f) := by
  cases h with
  | error e => exact .error (f e)
  | ok h => exact .ok h

end Agree

/-- Two ways of running work, and which pairs of states they are run in. -/
structure RunnerPair (m : Type → Type) [Monad m] (σ : Type) where
  left : Runner m σ
  right : Runner m σ
  twins : σ → σ → Prop

namespace RunnerPair

variable {m : Type → Type} [Monad m] {σ ε ε' β γ β' γ' : Type} {P : RunnerPair m σ}

/-- The works fail alike or come to related results, and leave twins behind. -/
def Relates (P : RunnerPair m σ) (R : β → γ → Prop) (w : ExceptT ε m β) (w' : ExceptT ε m γ) : Prop :=
  ∀ x y, P.twins x y → Agree R (P.left.run w.run x).1 (P.right.run w'.run y).1 ∧
    P.twins (P.left.run w.run x).2 (P.right.run w'.run y).2

/-- Both runs of the work come to the same. -/
def Same (P : RunnerPair m σ) (w : ExceptT ε m β) : Prop := P.Relates Eq w w

variable {R : β → γ → Prop} {S : β' → γ' → Prop}

theorem relates_pure {b : β} {c : γ} (h : R b c) :
    P.Relates R (pure b : ExceptT ε m β) (pure c : ExceptT ε m γ) := by
  intro x y hxy
  rw [ExceptT.run_pure, ExceptT.run_pure, P.left.run_pure, P.right.run_pure]
  exact ⟨.ok h, hxy⟩

theorem relates_throw (e : ε) :
    P.Relates R (throw e : ExceptT ε m β) (throw e : ExceptT ε m γ) := by
  intro x y hxy
  rw [ExceptT.run_throw, ExceptT.run_throw, P.left.run_pure, P.right.run_pure]
  exact ⟨.error e, hxy⟩

theorem Relates.bind {w : ExceptT ε m β} {w' : ExceptT ε m γ} {f : β → ExceptT ε m β'}
    {g : γ → ExceptT ε m γ'} (hw : P.Relates R w w')
    (hf : ∀ b c, R b c → P.Relates S (f b) (g c)) : P.Relates S (w >>= f) (w' >>= g) := by
  intro x y hxy
  obtain ⟨hresult, hnext⟩ := hw x y hxy
  rw [ExceptT.run_bind, ExceptT.run_bind, P.left.run_bind, P.right.run_bind]
  generalize P.left.run w.run x = r at hresult hnext
  generalize P.right.run w'.run y = r' at hresult hnext
  obtain ⟨out, t⟩ := r
  obtain ⟨out', t'⟩ := r'
  cases hresult with
  | error e => exact relates_throw e t t' hnext
  | ok h => exact hf _ _ h t t' hnext

theorem same_pure (b : β) : P.Same (pure b : ExceptT ε m β) := relates_pure rfl

theorem same_throw (e : ε) : P.Same (throw e : ExceptT ε m β) := relates_throw e

theorem Same.bind {w : ExceptT ε m β} {f : β → ExceptT ε m β'} (hw : P.Same w)
    (hf : ∀ b, P.Same (f b)) : P.Same (w >>= f) := by
  apply Relates.bind hw
  rintro b _ rfl
  exact hf b

theorem Same.map [LawfulMonad m] {w : ExceptT ε m β} (hw : P.Same w) (f : β → β') :
    P.Same (f <$> w) := by
  rw [map_eq_pure_bind]
  exact hw.bind fun b => same_pure (f b)

/-- What is made of related results may be the same. -/
theorem Relates.same_of_eq {w : ExceptT ε m β} {R : β → β → Prop} (hw : P.Relates R w w)
    {f : β → β'} (hf : ∀ b c, R b c → f b = f c) : P.Same (w >>= fun b => pure (f b)) :=
  hw.bind fun b c h => relates_pure (hf b c h)

theorem Relates.adapt [LawfulMonad m] {w : ExceptT ε m β} {w' : ExceptT ε m γ}
    (hw : P.Relates R w w') (f : ε → ε') :
    P.Relates R (w.adapt f : ExceptT ε' m β) (w'.adapt f : ExceptT ε' m γ) := by
  intro x y hxy
  obtain ⟨hresult, hnext⟩ := hw x y hxy
  rw [Runner.run_adapt, Runner.run_adapt]
  exact ⟨hresult.mapError f, hnext⟩

theorem Same.adapt [LawfulMonad m] {w : ExceptT ε m β} (hw : P.Same w) (f : ε → ε') :
    P.Same (w.adapt f : ExceptT ε' m β) :=
  Relates.adapt hw f

end RunnerPair

end TorrentQuery
