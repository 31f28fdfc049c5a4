import TorrentQuery.Daemon.Session

namespace TorrentQuery

inductive Exchange where
  | call (request : Request) (answer : Answer)
  | batch (requests : List Request) (answers : Answers)

def Exchange.isProbe : Exchange → Bool
  | .call r _ => r.method == "system.listMethods" && r.params.isEmpty
  | .batch _ _ => false

def Exchange.By (reply : Request → Answer) (batch : List Request → Answers) : Exchange → Prop
  | .call r x => reply r = x
  | .batch rs x => batch rs = x

namespace Dialogue

variable {α β : Type}

/-- The work comes to a result in the course of these exchanges. -/
inductive Runs : Dialogue α → List Exchange → α → Prop
  | done (a : α) : Runs (.done a) [] a
  | call {r : Request} {next : Answer → Dialogue α} {log : List Exchange} {a : α} (x : Answer) :
      Runs (next x) log a → Runs (.call r next) (.call r x :: log) a
  | batch {rs : List Request} {next : Answers → Dialogue α} {log : List Exchange} {a : α}
      (x : Answers) : Runs (next x) log a → Runs (.batch rs next) (.batch rs x :: log) a

theorem runs_bind {d : Dialogue α} {f : α → Dialogue β} {log : List Exchange} {b : β} :
    (d.bind f).Runs log b ↔
      ∃ before a after, log = before ++ after ∧ d.Runs before a ∧ (f a).Runs after b := by
  induction d generalizing log with
  | done a =>
    constructor
    · intro h
      exact ⟨[], a, log, rfl, .done a, h⟩
    · rintro ⟨before, a', after, rfl, hfirst, hrest⟩
      cases hfirst
      exact hrest
  | call r next ih =>
    constructor
    · intro h
      cases h with
      | call x h =>
        obtain ⟨before, a, after, rfl, hfirst, hrest⟩ := (ih x).1 h
        exact ⟨_ :: before, a, after, rfl, .call x hfirst, hrest⟩
    · rintro ⟨before, a, after, rfl, hfirst, hrest⟩
      cases hfirst with
      | call x hfirst => exact .call x ((ih x).2 ⟨_, a, after, rfl, hfirst, hrest⟩)
  | batch rs next ih =>
    constructor
    · intro h
      cases h with
      | batch x h =>
        obtain ⟨before, a, after, rfl, hfirst, hrest⟩ := (ih x).1 h
        exact ⟨_ :: before, a, after, rfl, .batch x hfirst, hrest⟩
    · rintro ⟨before, a, after, rfl, hfirst, hrest⟩
      cases hfirst with
      | batch x hfirst => exact .batch x ((ih x).2 ⟨_, a, after, rfl, hfirst, hrest⟩)

variable (reply : Request → Answer) (batch : List Request → Answers)

def transcript : Dialogue α → List Exchange
  | .done _ => []
  | .call r next => .call r (reply r) :: (next (reply r)).transcript
  | .batch rs next => .batch rs (batch rs) :: (next (batch rs)).transcript

theorem runs_transcript (d : Dialogue α) :
    d.Runs (d.transcript reply batch) (d.run (m := Id) reply batch) := by
  induction d with
  | done a => exact .done a
  | call r next ih => exact .call _ (ih _)
  | batch rs next ih => exact .batch _ (ih _)

theorem by_of_mem_transcript (d : Dialogue α) :
    ∀ e ∈ d.transcript reply batch, e.By reply batch := by
  induction d with
  | done a => exact List.forall_mem_nil _
  | call r next ih => exact List.forall_mem_cons.2 ⟨rfl, ih _⟩
  | batch rs next ih => exact List.forall_mem_cons.2 ⟨rfl, ih _⟩

end Dialogue

/-- Work in a state that can be written down as exchanges. -/
structure Tracer (m : Type → Type) [Monad m] (σ : Type) where
  /-- From a state, the work comes to a result and a state in the course of some exchanges. -/
  runs {α : Type} : m α → σ → List Exchange → α → σ → Prop
  runs_pure {α : Type} {a b : α} {s s' : σ} {log : List Exchange} :
    runs (pure a) s log b s' ↔ log = [] ∧ b = a ∧ s' = s
  runs_bind {α β : Type} {w : m α} {f : α → m β} {s s' : σ} {log : List Exchange} {b : β} :
    runs (w >>= f) s log b s' ↔ ∃ before a t after, log = before ++ after ∧ runs w s before a t ∧
      runs (f a) t after b s'

namespace Tracer

variable {m : Type → Type} [Monad m] {σ ε ε' α β : Type} (T : Tracer m σ) {s s' : σ}
  {log : List Exchange}

/-- A failure ends the work. -/
theorem runs_except_bind {w : ExceptT ε m α} {f : α → ExceptT ε m β} {out : Except ε β} :
    T.runs (w >>= f).run s log out s' ↔
      (∃ e, out = .error e ∧ T.runs w.run s log (.error e) s') ∨
        ∃ before a t after, log = before ++ after ∧ T.runs w.run s before (.ok a) t ∧
          T.runs (f a).run t after out s' := by
  rw [ExceptT.run_bind, T.runs_bind]
  constructor
  · rintro ⟨before, x, t, after, rfl, hfirst, hrest⟩
    cases x with
    | error e =>
      obtain ⟨rfl, rfl, rfl⟩ := T.runs_pure.1 hrest
      rw [List.append_nil]
      exact .inl ⟨e, rfl, hfirst⟩
    | ok a => exact .inr ⟨before, a, t, after, rfl, hfirst, hrest⟩
  · rintro (⟨e, rfl, h⟩ | ⟨before, a, t, after, rfl, hfirst, hrest⟩)
    · exact ⟨log, .error e, s', [], (List.append_nil log).symm, h, T.runs_pure.2 ⟨rfl, rfl, rfl⟩⟩
    · exact ⟨before, .ok a, t, after, rfl, hfirst, hrest⟩

theorem runs_except_bind_ok {w : ExceptT ε m α} {f : α → ExceptT ε m β} {b : β}
    (h : T.runs (w >>= f).run s log (.ok b) s') :
    ∃ before a t after, log = before ++ after ∧ T.runs w.run s before (.ok a) t ∧
      T.runs (f a).run t after (.ok b) s' := by
  rcases T.runs_except_bind.1 h with ⟨e, hok, -⟩ | h
  · cases hok
  · exact h

theorem runs_except_map {w : ExceptT ε m α} {f : α → β} {out : Except ε β}
    (h : T.runs (w >>= fun a => pure (f a)).run s log out s') :
    ∃ x : Except ε α, out = x.map f ∧ T.runs w.run s log x s' := by
  rcases T.runs_except_bind.1 h with ⟨e, rfl, hfail⟩ | ⟨before, a, t, after, rfl, hfirst, hrest⟩
  · exact ⟨.error e, rfl, hfail⟩
  · obtain ⟨rfl, rfl, rfl⟩ := T.runs_pure.1 hrest
    rw [List.append_nil]
    exact ⟨.ok a, rfl, hfirst⟩

theorem runs_map [LawfulMonad m] {w : m α} {f : α → β} {b : β} :
    T.runs (f <$> w) s log b s' ↔ ∃ a, b = f a ∧ T.runs w s log a s' := by
  rw [map_eq_pure_bind, T.runs_bind]
  constructor
  · rintro ⟨before, a, t, after, rfl, hfirst, hrest⟩
    obtain ⟨rfl, rfl, rfl⟩ := T.runs_pure.1 hrest
    rw [List.append_nil]
    exact ⟨a, rfl, hfirst⟩
  · rintro ⟨a, rfl, h⟩
    exact ⟨log, a, s', [], (List.append_nil log).symm, h, T.runs_pure.2 ⟨rfl, rfl, rfl⟩⟩

theorem runs_adapt [LawfulMonad m] {w : ExceptT ε m α} {f : ε → ε'} {out : Except ε' α} :
    T.runs (w.adapt f).run s log out s' ↔
      ∃ x : Except ε α, out = x.mapError f ∧ T.runs w.run s log x s' :=
  T.runs_map (w := w.run)

end Tracer

def Session.tracer : Tracer (StateT Session Dialogue) Session where
  runs w s log a s' := (w.run s).Runs log (a, s')
  runs_pure := by
    intro α a b s s' log
    constructor
    · intro h
      cases h
      exact ⟨rfl, rfl, rfl⟩
    · rintro ⟨rfl, rfl, rfl⟩
      exact .done _
  runs_bind := by
    intro α β w f s s' log b
    have hbind : ((w >>= f).run s).Runs log (b, s') ↔ _ :=
      Dialogue.runs_bind (d := w.run s) (f := fun r => (f r.1).run r.2)
    rw [hbind]
    constructor
    · rintro ⟨before, ⟨a, t⟩, after, hlog, hfirst, hrest⟩
      exact ⟨before, a, t, after, hlog, hfirst, hrest⟩
    · rintro ⟨before, a, t, after, hlog, hfirst, hrest⟩
      exact ⟨before, (a, t), after, hlog, hfirst, hrest⟩

namespace Session

variable {s s' : Session} {log : List Exchange}

theorem runs_ask {r : Request} {out : Answer}
    (h : tracer.runs (ask r).run s log out s') : log = [.call r out] ∧ s' = s := by
  cases h with
  | call x h =>
    cases h
    exact ⟨rfl, rfl⟩

theorem runs_askAll {rs : List Request} {out : Answers}
    (h : tracer.runs (askAll rs).run s log out s') : log = [.batch rs out] ∧ s' = s := by
  cases h with
  | batch x h =>
    cases h
    exact ⟨rfl, rfl⟩

/-- The daemon's methods are asked for at most once, and that is all that is asked. -/
theorem runs_methodNames {out : Except DaemonError (List String)}
    (h : tracer.runs methodNames.run s log out s') :
    (∀ e ∈ log, e.isProbe = true) ∧ s'.registry = s.registry := by
  obtain ⟨methods, registry⟩ := s
  cases methods with
  | some ms =>
    cases h
    exact ⟨List.forall_mem_nil _, rfl⟩
  | none =>
    cases h with
    | call x h =>
      have hprobe : (Exchange.call ⟨"system.listMethods", []⟩ x).isProbe = true := rfl
      cases x with
      | error e =>
        cases h
        exact ⟨List.forall_mem_singleton.2 hprobe, rfl⟩
      | ok j =>
        cases j with
        | arr items =>
          cases h
          exact ⟨List.forall_mem_singleton.2 hprobe, rfl⟩
        | _ =>
          cases h
          exact ⟨List.forall_mem_singleton.2 hprobe, rfl⟩

end Session

end TorrentQuery
