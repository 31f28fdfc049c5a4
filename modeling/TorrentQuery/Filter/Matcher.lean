import TorrentQuery.Field.Registry
import TorrentQuery.Filter.Basic
import TorrentQuery.Query.Reading

namespace TorrentQuery

open Number Text

inductive Matcher (α : Type) where
  | leaf (f : Filter α)
  | all (ms : List (Matcher α))
  | any (ms : List (Matcher α))
  | group (invert : Bool) (m : Matcher α)
  deriving Inhabited

namespace Matcher

variable {α : Type}

def filters : Matcher α → List (Filter α)
  | .leaf f => [f]
  | .all ms => filtersOfAll ms
  | .any ms => filtersOfAll ms
  | .group _ m => m.filters
where
  filtersOfAll : List (Matcher α) → List (Filter α)
    | [] => []
    | m :: r => m.filters ++ filtersOfAll r

variable [Scalar α]

def render : Matcher α → String
  | .leaf f => f.render
  | .all ms => joinWith " " (renderAll ms)
  | .any ms => joinWith " OR " (renderAll ms)
  | .group invert m => (if invert then "NOT " else "") ++ "[ " ++ m.render ++ " ]"
where
  renderAll : List (Matcher α) → List String
    | [] => []
    | m :: r => m.render :: renderAll r

section Eval

variable {m : Type → Type} [Monad m] [MonadExceptOf QueryError m]

mutual

/-- The answer for an item, from left to right and no further than needed. -/
def eval (read : String → m (Value α)) : Matcher α → m Bool
  | .leaf f => f.eval read
  | .all ms => evalAll read ms
  | .any ms => evalAny read ms
  | .group invert m => return (← eval read m) != invert

def evalAll (read : String → m (Value α)) : List (Matcher α) → m Bool
  | [] => pure true
  | m :: r => do if ← eval read m then evalAll read r else pure false

def evalAny (read : String → m (Value α)) : List (Matcher α) → m Bool
  | [] => pure false
  | m :: r => do if ← eval read m then pure true else evalAny read r

end

end Eval

/-- The one condition that is sent for several that hold together: the first exact one, or else the
first. It is exact for all only if there are no others. -/
def safest (parts : List (Option PreFilter)) : Option PreFilter :=
  let known := parts.filterMap id
  let chosen := (known.find? (·.exact)).or known.head?
  chosen.map fun p => ⟨p.command, p.exact && parts.length == 1⟩

/-- Several conditions that hold together. Those that cannot be expressed are left out. -/
def conjunction (parts : List (Option PreFilter)) : Option PreFilter :=
  (PreFilter.allOf (parts.filterMap id)).map fun p => ⟨p.command, p.exact && parts.all (·.isSome)⟩

mutual

/-- The condition that the daemon can check. -/
def preFilter (level : Level) : Matcher α → Option PreFilter
  | .leaf f => if level = .off then none else f.preFilter
  | .all ms =>
    match level with
    | .off => none
    | .safe => safest (preFilters level ms)
    | .aggressive => conjunction (preFilters level ms)
  | .any ms =>
    if level = .off || (level = .safe && 1 < ms.length) then none
    else ((preFilters level ms).mapM id).bind PreFilter.anyOf
  | .group invert m =>
    let inner := preFilter level m
    if invert then inner.bind (·.negate) else inner

def preFilters (level : Level) : List (Matcher α) → List (Option PreFilter)
  | [] => []
  | m :: r => preFilter level m :: preFilters level r

end

def preFilterText (level : Level) (m : Matcher α) : String :=
  ((m.preFilter level).map (·.render)).getD ""

def pare (join : List (Matcher α) → Matcher α) : List (Matcher α) → Matcher α
  | [m] => m
  | ms => join ms

def condition (now : α) (name : String) (op : Operator) (value : Literal) : Lookup (Matcher α) := do
  match Filter.ofCondition now (← Registry.resolve name) op value with
  | .ok f => return .leaf f
  | .error e => throw e

mutual

/-- The matcher of a condition. Values without a field are about the name. -/
def ofCond (now : α) : Cond → Lookup (Matcher α)
  | .named field op value => condition now field op value
  | .bare value => condition now "name" .eq value
  | .group negated body => do
    let ms ← ofAlternatives now body
    return .group negated (pare .any ms)

def ofConds (now : α) : List Cond → Lookup (List (Matcher α))
  | [] => pure []
  | c :: r => do
    let m ← ofCond now c
    return m :: (← ofConds now r)

def ofAlternatives (now : α) : List (List Cond) → Lookup (List (Matcher α))
  | [] => pure []
  | cs :: r => do
    let ms ← ofConds now cs
    return pare .all ms :: (← ofAlternatives now r)

end

def ofStmt (now : α) (s : Stmt) : Lookup (Matcher α) := return pare .any (← ofAlternatives now s)

def ofText (now : α) (text : String) : Lookup (Matcher α) := do
  match Stmt.read text with
  | .ok s => ofStmt now s
  | .error e => throw e

end Matcher

end TorrentQuery
