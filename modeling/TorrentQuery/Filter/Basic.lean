import TorrentQuery.Daemon.PreFilter
import TorrentQuery.Filter.Test
import TorrentQuery.Query.Cond

namespace TorrentQuery

open Number Text

structure Filter (α : Type) where
  field : Field
  /-- The operator as it is written. -/
  operator : Operator
  /-- The operator that is applied. -/
  effective : Operator
  value : Literal
  test : Test α

namespace Filter

def splitSign (op : Operator) (s : String) : Operator × String :=
  match op, s.toList with
  | .eq, '+' :: r => (.ge, String.ofList r)
  | .eq, '-' :: r => (.le, String.ofList r)
  | _, _ => (op, s)

variable {α : Type} [Scalar α]

/-- The filter of a condition on a field. Spans of time reach back from `now`. -/
def ofCondition (now : α) (field : Field) (op : Operator) (value : Literal) :
    Except QueryError (Filter α) :=
  let (signed, text) := if field.filter.isNumeric then splitSign op value.text else (op, value.text)
  match Test.read now field.filter text with
  | .ok test => .ok ⟨field, op, test.effective signed, value, test⟩
  | .error fault => .error (.invalidValue field.name text fault)

/-- The filter as a condition. Truth values are always written in the same way. -/
def render (f : Filter α) : String :=
  let value := match f.test with
    | .flag wanted => if wanted then "yes" else "no"
    | _ => f.value.render
  f.field.name ++ f.operator.symbol ++ value

def unsupported (f : Filter α) : QueryError :=
  .unsupportedOperator f.test.label f.field.name f.effective

section Eval

variable {m : Type → Type} [Monad m] [MonadExceptOf QueryError m]

/-- The filter's answer for an item of which `read` gives the values. Texts and sets are read anew for
each question; times and durations are read once. -/
def eval (read : String → m (Value α)) (f : Filter α) : m Bool :=
  match f.test with
  | .time x _ _ | .duration x => do
    let v ← read f.field.name
    if f.test.unset v then return false
    else return f.effective.compare (v.number?.getD Scalar.zero) x
  | _ =>
    let equal : m Bool := do f.test.equal read (← read f.field.name)
    let greater : m Bool :=
      match f.test with
      | .number _ | .size _ => do
        return (f.test.greater? (← read f.field.name)).getD false
      | _ => throw f.unsupported
    f.effective.apply equal greater

end Eval

def integral? (x : α) : Option Int := if Scalar.whole x then some (Scalar.trunc64 x) else none

/-- Condition on a scaled number. Thresholds between two integers are rounded so that no number on
the wanted side is lost. -/
def numberPreFilter (scaled : α) (op : Operator) (key : String) : Option PreFilter :=
  let one : α := Scalar.ofInt 1
  let close (relation : String) (n : Int) : PreFilter :=
    ⟨.compareValue relation key n, (integral? scaled).isSome⟩
  match op with
  | .eq => (integral? scaled).map (close "equal")
  | .ne => ((integral? scaled).map (close "equal")).bind (·.negate)
  | .gt => some (close "greater" (Scalar.floor64 scaled))
  | .ge => some (close "greater" (Scalar.floor64 (scaled - one)))
  | .lt => some (close "less" (Scalar.ceil64 scaled))
  | .le => some (close "less" (Scalar.ceil64 (scaled + one)))

/-- Condition on a size, if the daemon can count that far. -/
def sizePreFilter (bytes : Nat) (op : Operator) (key : String) : Option PreFilter :=
  let close (relation : String) (n : Int) : PreFilter := .ofExact (.compare relation key n)
  if maxInt64 < bytes then none
  else match op with
    | .eq => some (close "equal" bytes)
    | .ne => (close "equal" bytes).negate
    | .gt => some (close "greater" bytes)
    | .ge => some (close "greater" ((bytes : Int) - 1))
    | .lt => some (close "less" bytes)
    | .le => if maxInt64 < bytes + 1 then none else some (close "less" (bytes + 1))

/-- Seconds by which the clocks of both sides may differ. -/
def timeSlack : Int := 86400

/-- Condition on a time, with some slack. Zero may stand for an unset time and is not sent. -/
def timePreFilter (threshold : α) (op : Operator) (key : String) : Option PreFilter :=
  let n := Scalar.trunc64 threshold
  if threshold == Scalar.zero then none
  else match op with
    | .gt | .ge => some (.ofSuperset (.compareValue "greater" key (wrap64 (n - timeSlack))))
    | .lt | .le => some (.ofSuperset (.compareValue "less" key (wrap64 (n + timeSlack))))
    | .eq | .ne => none

def patternPreFilter (p : Pattern) (key : String) : Option PreFilter :=
  match p with
  | .empty => some (.ofExact (.empty key))
  | .nonEmpty => some (.ofSuperset (Command.empty key).negate)
  | .regex source _ => (Needle.ofRegex? source).bind (PreFilter.containsNeedle key)
  | .glob source _ => PreFilter.containsNeedle key (Needle.ofGlob source)
  | .always | .template _ => none

/-- The last of the longest texts. -/
def longest (xs : List String) : String :=
  xs.foldl (fun best x => if best.length ≤ x.length then x else best) ""

def tagsPreFilter (tag : String) (exact : Option TextSet) (key : String) : Option PreFilter :=
  match exact with
  | some wanted => if wanted.isEmpty then none else PreFilter.containsNeedle key (longest wanted.toList)
  | none => PreFilter.containsNeedle key tag

/-- Condition for equality with the value of a test that knows no order. -/
def equalPreFilter (test : Test α) (key : String) : Option PreFilter :=
  match test with
  | .flag wanted => some (.ofExact (.compare "equal" key (if wanted then 1 else 0)))
  | .tags tag exact => tagsPreFilter tag exact key
  | .pattern p => patternPreFilter p key
  | _ => none

def preFilter (f : Filter α) : Option PreFilter := do
  let key ← f.field.key
  match f.test with
  | .number x => numberPreFilter (x * Scalar.ofInt f.field.scale) f.effective key
  | .size n => sizePreFilter n f.effective key
  | .time x _ _ | .duration x => timePreFilter x f.effective key
  | test =>
    match f.effective with
    | .eq => equalPreFilter test key
    | .ne => (equalPreFilter test key).bind (·.negate)
    | _ => none

end Filter

end TorrentQuery
