import TorrentQuery.Filter.Matcher
import TorrentQuery.Proofs.Filter.Fields
import TorrentQuery.Proofs.Query.Leaves

namespace TorrentQuery

open Number

def failure? {ε α : Type} : Except ε α → Option ε
  | .error e => some e
  | .ok _ => none

theorem toOption_eq_none {ε α : Type} {x : Except ε α} :
    x.toOption = none ↔ ∃ e, x = .error e := by
  cases x <;> simp [Except.toOption]

/-- One of several fails just when there is a first one that does. -/
theorem findSome?_failure {ε α : Type} {xs : List (Except ε α)} :
    (∃ e, xs.findSome? failure? = some e) ↔ none ∈ xs.map Except.toOption := by
  induction xs with
  | nil => simp
  | cons x xs ih =>
    rw [List.findSome?_cons, List.map_cons, List.mem_cons, ← ih]
    cases x <;> simp [failure?, Except.toOption]

variable {α : Type} [Scalar α]

namespace Leaf

/-- The filter of a condition. There is none if the field is not known, or if the value does not
suit the field. -/
def filter (now : α) (r : Registry) (l : Leaf) : Except QueryError (Filter α) := do
  let field ← ((Registry.resolve l.name).run.run r).1
  Filter.ofCondition now field l.operator l.value

/-- What is left of a registry once the field of a condition has been looked up. -/
def after (r : Registry) (l : Leaf) : Registry := ((Registry.resolve l.name).run.run r).2

def afterAll (r : Registry) (ls : List Leaf) : Registry := ls.foldl after r

def filters (now : α) : Registry → List Leaf → List (Except QueryError (Filter α))
  | _, [] => []
  | r, l :: ls => l.filter now r :: filters now (l.after r) ls

theorem filters_append (now : α) (r : Registry) (a b : List Leaf) :
    filters now r (a ++ b) = filters now r a ++ filters now (afterAll r a) b := by
  induction a generalizing r with
  | nil => rfl
  | cons l a ih => exact congrArg _ (ih (l.after r))

theorem afterAll_append (r : Registry) (a b : List Leaf) :
    afterAll r (a ++ b) = afterAll (afterAll r a) b := List.foldl_append

section Eval

variable {m : Type → Type} [Monad m] [MonadExceptOf QueryError m]

def holds (now : α) (read : String → m (Value α)) (r : Registry) (l : Leaf) : m Bool :=
  match l.filter now r with
  | .ok f => f.eval read
  | .error e => throw e

end Eval

end Leaf

namespace Cond

section Eval

variable {m : Type → Type} [Monad m] [MonadExceptOf QueryError m] (now : α)
  (read : String → m (Value α))

mutual

def holds (r : Registry) : Cond → m Bool
  | .named name op v => (Leaf.named name op v).holds now read r
  | .bare v => (Leaf.bare v).holds now read r
  | .group negated body => return (← anyHolds r body) != negated

/-- Conditions hold together. The first that does not hold decides. -/
def allHold (r : Registry) : List Cond → m Bool
  | [] => pure true
  | c :: cs => do if ← holds r c then allHold (Leaf.afterAll r c.leaves) cs else pure false

def anyHolds (r : Registry) : List (List Cond) → m Bool
  | [] => pure false
  | cs :: s => do
    if ← allHold r cs then pure true else anyHolds (Leaf.afterAll r (leavesOfAll cs)) s

end

end Eval

end Cond

def Stmt.holds {m : Type → Type} [Monad m] [MonadExceptOf QueryError m] (now : α)
    (read : String → m (Value α)) (r : Registry) (s : Stmt) : m Bool := Cond.anyHolds now read r s

namespace Matcher

section Pare

variable {m : Type → Type} [Monad m] [LawfulMonad m] [MonadExceptOf QueryError m]
  (read : String → m (Value α))

theorem eval_pare (ms : List (Matcher α)) :
    (pare .all ms).eval read = evalAll read ms ∧ (pare .any ms).eval read = evalAny read ms := by
  match ms with
  | [] => simp only [pare, eval, and_self]
  | _ :: _ :: _ => simp only [pare, eval, and_self]
  | [n] =>
    have hall : evalAll read [n] = n.eval read >>= pure := by
      rw [evalAll]
      refine bind_congr fun b => ?_
      cases b <;> simp [evalAll]
    have hany : evalAny read [n] = n.eval read >>= pure := by
      rw [evalAny]
      refine bind_congr fun b => ?_
      cases b <;> simp [evalAny]
    rw [hall, hany, bind_pure]
    exact ⟨rfl, rfl⟩

end Pare

/-- Work that makes filters of some conditions: it fails as the first of them does that has no
filter, or else comes to a result of which `means` holds and leaves what they have entered. -/
def Compiles {β : Type} (now : α) (r : Registry) (ls : List Leaf) (work : Lookup β)
    (means : β → Prop) : Prop :=
  match work.run.run r with
  | (.error e, _) => (Leaf.filters now r ls).findSome? failure? = some e
  | (.ok b, left) => (Leaf.filters now r ls).findSome? failure? = none ∧
      left = Leaf.afterAll r ls ∧ means b

section Compiles

variable {β γ : Type} {now : α} {r left : Registry} {ls ls' : List Leaf} {work : Lookup β}
  {f : β → Lookup γ} {means : β → Prop} {means' : γ → Prop}

theorem run_bind_ok {b : β} (h : work.run.run r = (.ok b, left)) :
    (work >>= f).run.run r = (f b).run.run left := by
  rw [ExceptT.run_bind, StateT.run_bind, h]
  rfl

theorem run_bind_error {e : QueryError} (h : work.run.run r = (.error e, left)) :
    (work >>= f).run.run r = (.error e, left) := by
  rw [ExceptT.run_bind, StateT.run_bind, h]
  rfl

theorem Compiles.pure {b : β} (h : means b) : Compiles now r [] (pure b) means :=
  ⟨rfl, rfl, h⟩

theorem Compiles.bind (hw : Compiles now r ls work means)
    (hf : ∀ b, means b → Compiles now (Leaf.afterAll r ls) ls' (f b) means') :
    Compiles now r (ls ++ ls') (work >>= f) means' := by
  unfold Compiles at hw
  split at hw
  · next hrun =>
    unfold Compiles
    rw [run_bind_error hrun, Leaf.filters_append, List.findSome?_append]
    exact Option.or_eq_some_iff.2 (.inl hw)
  · next hrun =>
    obtain ⟨hnone, rfl, hmeans⟩ := hw
    have hrest := hf _ hmeans
    unfold Compiles at hrest ⊢
    rwa [run_bind_ok hrun, Leaf.filters_append, List.findSome?_append, hnone, Option.none_or,
      Leaf.afterAll_append]

theorem Compiles.map {g : β → γ} (hw : Compiles now r ls work means)
    (hg : ∀ b, means b → means' (g b)) :
    Compiles now r ls (do return g (← work)) means' := by
  rw [← List.append_nil ls]
  exact hw.bind fun b hb => .pure (hg b hb)

theorem Compiles.error_iff (hw : Compiles now r ls work means) (e : QueryError) :
    (work.run.run r).1 = .error e ↔ (Leaf.filters now r ls).findSome? failure? = some e := by
  unfold Compiles at hw
  split at hw
  · next hrun => rw [hrun, hw, Except.error.injEq, Option.some.injEq]
  · next hrun => simp [hrun, hw.1]

theorem Compiles.of_ok (hw : Compiles now r ls work means) {b : β}
    (hb : (work.run.run r).1 = .ok b) : means b := by
  unfold Compiles at hw
  split at hw
  · next hrun =>
    rw [hrun] at hb
    cases hb
  · next hrun =>
    rw [hrun] at hb
    cases hb
    exact hw.2.2

end Compiles

abbrev Answering (α : Type) [Scalar α] : Type 1 :=
  (m : Type → Type) → [Monad m] → [MonadExceptOf QueryError m] → (String → m (Value α)) → m Bool

/-- Conditions have been made filters, and these answer as the conditions do. -/
structure Means (now : α) (r : Registry) (ls : List Leaf) (fs : List (Filter α))
    (answer reference : Answering α) : Prop where
  filters : Leaf.filters now r ls = fs.map .ok
  answers : ∀ {m : Type → Type} [Monad m] [LawfulMonad m] [MonadExceptOf QueryError m]
    (read : String → m (Value α)), answer m read = reference m read

variable {now : α}

theorem run_condition (r : Registry) (l : Leaf) :
    (condition now l.name l.operator l.value).run.run r =
      ((l.filter now r).map .leaf, l.after r) := by
  unfold condition Leaf.filter Leaf.after
  cases hfield : (Registry.resolve l.name).run.run r with
  | mk answer left =>
    cases answer with
    | error e =>
      rw [run_bind_error hfield]
      rfl
    | ok field =>
      rw [run_bind_ok hfield]
      change _ = (Except.map Matcher.leaf (Filter.ofCondition now field l.operator l.value), left)
      cases Filter.ofCondition now field l.operator l.value <;> rfl

theorem compiles_condition (r : Registry) (l : Leaf) :
    Compiles now r [l] (condition now l.name l.operator l.value) fun n =>
      Means now r [l] n.filters (fun _ _ _ read => n.eval read)
        fun _ _ _ read => l.holds now read r := by
  unfold Compiles
  rw [run_condition]
  cases hf : l.filter now r with
  | error e => simp [Except.map, Leaf.filters, hf, failure?]
  | ok f =>
    refine ⟨by simp [Leaf.filters, hf, failure?], rfl, by simp [Leaf.filters, hf, filters], ?_⟩
    intro m _ _ _ read
    simp only [eval, Leaf.holds, hf]

section

variable (now)

mutual

theorem compiles_ofCond (r : Registry) (c : Cond) :
    Compiles now r c.leaves (ofCond now c) fun n =>
      Means now r c.leaves n.filters (fun _ _ _ read => n.eval read)
        fun _ _ _ read => c.holds now read r := by
  cases c with
  | named name op v => exact compiles_condition r (.named name op v)
  | bare v => exact compiles_condition r (.bare v)
  | group negated body =>
    apply (compiles_ofAlternatives r body).map
    intro ms h
    refine ⟨?_, fun read => ?_⟩
    · rw [filters, (filters_pare ms).2]
      exact h.filters
    · rw [eval, (eval_pare read ms).2, h.answers]
      rfl

theorem compiles_ofConds (r : Registry) (cs : List Cond) :
    Compiles now r (Cond.leavesOfAll cs) (ofConds now cs) fun ms =>
      Means now r (Cond.leavesOfAll cs) (filters.filtersOfAll ms) (fun _ _ _ read => evalAll read ms)
        fun _ _ _ read => Cond.allHold now read r cs := by
  cases cs with
  | nil => exact .pure ⟨rfl, fun read => rfl⟩
  | cons c rest =>
    apply (compiles_ofCond r c).bind
    intro n hn
    apply (compiles_ofConds _ rest).map
    intro ms hms
    refine ⟨?_, fun read => ?_⟩
    · rw [filters.filtersOfAll, List.map_append, ← hn.filters, ← hms.filters]
      exact Leaf.filters_append now r _ _
    · rw [evalAll, hn.answers, hms.answers]
      rfl

theorem compiles_ofAlternatives (r : Registry) (s : List (List Cond)) :
    Compiles now r (Cond.leavesOfStmt s) (ofAlternatives now s) fun ms =>
      Means now r (Cond.leavesOfStmt s) (filters.filtersOfAll ms) (fun _ _ _ read => evalAny read ms)
        fun _ _ _ read => Cond.anyHolds now read r s := by
  cases s with
  | nil => exact .pure ⟨rfl, fun read => rfl⟩
  | cons cs rest =>
    apply (compiles_ofConds r cs).bind
    intro first hfirst
    apply (compiles_ofAlternatives _ rest).map
    intro ms hms
    refine ⟨?_, fun read => ?_⟩
    · rw [filters.filtersOfAll, (filters_pare first).1, List.map_append, ← hfirst.filters,
        ← hms.filters]
      exact Leaf.filters_append now r _ _
    · rw [evalAny, (eval_pare read first).1, hfirst.answers, hms.answers]
      rfl

end

end

theorem compiles_ofStmt (now : α) (r : Registry) (s : Stmt) :
    Compiles now r s.leaves (ofStmt now s) fun n =>
      Means now r s.leaves n.filters (fun _ _ _ read => n.eval read)
        fun _ _ _ read => s.holds now read r := by
  apply (compiles_ofAlternatives now r s).map
  intro ms h
  refine ⟨?_, fun read => ?_⟩
  · rw [(filters_pare ms).2]
    exact h.filters
  · rw [(eval_pare read ms).2]
    exact h.answers read

end Matcher

namespace Leaf

variable {stands : String → Except QueryError (Option Field)} {r : Registry}

theorem settled_filter (now : α) (hr : (Registry.runner stands).fits r) (l : Leaf) :
    (l.filter now r).toOption = ((stands l.name).toOption.bind id).bind
        (fun field => (Filter.ofCondition now field l.operator l.value).toOption) ∧
      (Registry.runner stands).fits (l.after r) := by
  have hresolve : Settled (Registry.runner stands) (Registry.resolve l.name) _ :=
    Registry.settled_resolve
  obtain ⟨hfield, hleft⟩ := hresolve r hr
  refine ⟨?_, hleft⟩
  rw [← hfield]
  change (l.filter now r).toOption = ((Registry.resolve l.name).run.run r).1.toOption.bind _
  unfold Leaf.filter
  cases ((Registry.resolve l.name).run.run r).1 <;> rfl

/-- Where names stand for fields of their own, conditions have the same filters after one another as
each has by itself. -/
theorem toOption_filters (now : α) (hr : r.Faithful) (ls : List Leaf) :
    (filters now r ls).map Except.toOption = ls.map fun l => (l.filter now r).toOption := by
  have hfits : (Registry.runner r.denotes).fits r := ⟨hr, fun _ => rfl⟩
  have hlater (r' : Registry) (hr' : (Registry.runner r.denotes).fits r') :
      (filters now r' ls).map Except.toOption = ls.map fun l => (l.filter now r).toOption := by
    induction ls generalizing r' with
    | nil => rfl
    | cons l ls ih =>
      obtain ⟨hfilter, hleft⟩ := settled_filter now hr' l
      rw [filters, List.map_cons, List.map_cons, ih _ hleft, hfilter,
        (settled_filter now hfits l).1]
  exact hlater r hfits

end Leaf

namespace Matcher

/-- A filter is compiled unless the field of some condition is not known or its value does not suit
the field, and fails as the first such condition does. The matcher answers every item as the filter
itself does, with the same failures. -/
theorem ofStmt_keeps_meaning (now : α) (r : Registry) (s : Stmt) :
    (∀ e, ((ofStmt now s).run.run r).1 = .error e ↔
      (Leaf.filters now r s.leaves).findSome? failure? = some e) ∧
    (r.Faithful → ((∃ e, ((ofStmt now s).run.run r).1 = .error e) ↔
      ∃ l ∈ s.leaves, ∃ e, l.filter now r = .error e)) ∧
    ∀ n, ((ofStmt now s).run.run r).1 = .ok n →
      ∀ {m : Type → Type} [Monad m] [LawfulMonad m] [MonadExceptOf QueryError m]
        (read : String → m (Value α)), n.eval read = s.holds now read r := by
  have hcompiles := compiles_ofStmt now r s
  refine ⟨hcompiles.error_iff, fun hr => ?_, fun n hn m _ _ _ read => ?_⟩
  · rw [exists_congr hcompiles.error_iff, findSome?_failure, Leaf.toOption_filters now hr,
      List.mem_map]
    exact exists_congr fun l => and_congr_right' toOption_eq_none
  · exact (hcompiles.of_ok hn).answers read

/-- In `NOT [ is_open=yes ] OR is_active=no` the second condition is not asked about an item that is
not open. In `is_open=yes is_active=maybe` it cannot be compiled. -/
theorem ofStmt_keeps_meaning_negated_group :
    (∃ n : Matcher Float,
      ((ofStmt 0 [[.group true [[.named "is_open" .eq ⟨"yes", false⟩]]],
        [.named "is_active" .eq ⟨"no", false⟩]]).run.run Catalogue.registry).1 = .ok n ∧
      n.eval (m := Except QueryError) (fun name =>
        if name = "is_open" then .ok (.bool false) else .error (.attribute name "timeout")) =
          .ok true) ∧
    ∃ e, ((ofStmt (0 : Float) [[.named "is_open" .eq ⟨"yes", false⟩,
      .named "is_active" .eq ⟨"maybe", false⟩]]).run.run Catalogue.registry).1 = .error e := by
  constructor
  · obtain ⟨n, hn⟩ : ∃ n : Matcher Float,
        ((ofStmt 0 [[.group true [[.named "is_open" .eq ⟨"yes", false⟩]]],
          [.named "is_active" .eq ⟨"no", false⟩]]).run.run Catalogue.registry).1 = .ok n := ⟨_, rfl⟩
    exact ⟨n, hn, ((ofStmt_keeps_meaning _ _ _).2.2 n hn _).trans rfl⟩
  · have hrejected : ∃ e, (Leaf.named "is_active" .eq ⟨"maybe", false⟩).filter (0 : Float)
        Catalogue.registry = .error e := ⟨_, rfl⟩
    refine ((ofStmt_keeps_meaning _ _ _).2.1 Catalogue.registry_faithful).2 ⟨_, ?_, hrejected⟩
    simp [Stmt.leaves, Cond.leavesOfStmt, Cond.leavesOfAll, Cond.leaves]

end Matcher

end TorrentQuery
