import TorrentQuery.Filter.Matcher

namespace TorrentQuery

open Number

variable {α : Type}

namespace Filter

/-- The filter as it is read back from its written form. -/
def canonical (f : Filter α) : Filter α :=
  match f.test with
  | .flag wanted => { f with value := ⟨if wanted then "yes" else "no", false⟩ }
  | _ => f

theorem canonical_render (f : Filter α) : f.canonical.render = f.render := by
  obtain ⟨field, op, effective, value, test⟩ := f
  cases test with
  | flag wanted => rfl
  | _ => rfl

variable [Scalar α]

theorem canonical_preFilter (f : Filter α) : f.canonical.preFilter = f.preFilter := by
  obtain ⟨field, op, effective, value, test⟩ := f
  cases test with
  | flag wanted => rfl
  | _ => rfl

theorem canonical_eval {m : Type → Type} [Monad m] [MonadExceptOf QueryError m]
    (read : String → m (Value α)) (f : Filter α) : f.canonical.eval read = f.eval read := by
  obtain ⟨field, op, effective, value, test⟩ := f
  cases test with
  | flag wanted => rfl
  | _ => rfl

end Filter

namespace Matcher

def canonical : Matcher α → Matcher α
  | .leaf f => .leaf f.canonical
  | .all ms => .all (canonicalAll ms)
  | .any ms => .any (canonicalAll ms)
  | .group invert m => .group invert m.canonical
where
  canonicalAll : List (Matcher α) → List (Matcher α)
    | [] => []
    | m :: r => m.canonical :: canonicalAll r

theorem length_canonicalAll (ms : List (Matcher α)) :
    (canonical.canonicalAll ms).length = ms.length := by
  induction ms with
  | nil => rfl
  | cons m r ih => exact congrArg Nat.succ ih

theorem canonical_pare (ms : List (Matcher α)) :
    (pare .all ms).canonical = pare .all (canonical.canonicalAll ms) ∧
      (pare .any ms).canonical = pare .any (canonical.canonicalAll ms) := by
  match ms with
  | [] => exact ⟨rfl, rfl⟩
  | [m] => exact ⟨rfl, rfl⟩
  | _ :: _ :: _ => exact ⟨rfl, rfl⟩

mutual

theorem canonical_render (m : Matcher α) : m.canonical.render = m.render := by
  cases m with
  | leaf f => exact f.canonical_render
  | all ms => rw [canonical, render, render, canonicalAll_render ms]
  | any ms => rw [canonical, render, render, canonicalAll_render ms]
  | group invert m => rw [canonical, render, render, canonical_render m]

theorem canonicalAll_render (ms : List (Matcher α)) :
    render.renderAll (canonical.canonicalAll ms) = render.renderAll ms := by
  cases ms with
  | nil => rfl
  | cons m r =>
    rw [canonical.canonicalAll, render.renderAll, render.renderAll, canonical_render m,
      canonicalAll_render r]

end

variable [Scalar α]

mutual

theorem canonical_preFilter (level : Level) (m : Matcher α) :
    m.canonical.preFilter level = m.preFilter level := by
  cases m with
  | leaf f => rw [canonical, preFilter, preFilter, f.canonical_preFilter]
  | all ms => simp only [canonical, preFilter, canonicalAll_preFilters level ms]
  | any ms =>
    rw [canonical, preFilter, preFilter, canonicalAll_preFilters level ms, length_canonicalAll]
  | group invert m => rw [canonical, preFilter, preFilter, canonical_preFilter level m]

theorem canonicalAll_preFilters (level : Level) (ms : List (Matcher α)) :
    preFilters level (canonical.canonicalAll ms) = preFilters level ms := by
  cases ms with
  | nil => rfl
  | cons m r =>
    rw [canonical.canonicalAll, preFilters, preFilters, canonical_preFilter level m,
      canonicalAll_preFilters level r]

end

section Eval

variable {m : Type → Type} [Monad m] [MonadExceptOf QueryError m] (read : String → m (Value α))

mutual

theorem canonical_eval (x : Matcher α) : x.canonical.eval read = x.eval read := by
  cases x with
  | leaf f => exact Filter.canonical_eval read f
  | all ms => exact canonical_evalAll ms
  | any ms => exact canonical_evalAny ms
  | group invert x => rw [canonical, eval, eval, canonical_eval x]

theorem canonical_evalAll (ms : List (Matcher α)) :
    evalAll read (canonical.canonicalAll ms) = evalAll read ms := by
  cases ms with
  | nil => rfl
  | cons x r => rw [canonical.canonicalAll, evalAll, evalAll, canonical_eval x, canonical_evalAll r]

theorem canonical_evalAny (ms : List (Matcher α)) :
    evalAny read (canonical.canonicalAll ms) = evalAny read ms := by
  cases ms with
  | nil => rfl
  | cons x r => rw [canonical.canonicalAll, evalAny, evalAny, canonical_eval x, canonical_evalAny r]

end

end Eval

end Matcher

end TorrentQuery
