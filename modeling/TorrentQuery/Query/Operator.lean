import TorrentQuery.Number.Scalar

namespace TorrentQuery

open Number

inductive Operator where
  | eq
  | ne
  | gt
  | ge
  | lt
  | le
  deriving DecidableEq, Inhabited, Repr

namespace Operator

def name : Operator → String
  | .eq => "eq"
  | .ne => "ne"
  | .gt => "gt"
  | .ge => "ge"
  | .lt => "lt"
  | .le => "le"

def symbol : Operator → String
  | .eq => "="
  | .ne => "!="
  | .gt => ">"
  | .ge => ">="
  | .lt => "<"
  | .le => "<="

/-- The operator that a symbol denotes. Several symbols may denote one operator. -/
def ofSymbol? : List Char → Option Operator
  | ['='] | ['=', '='] => some .eq
  | ['!', '='] | ['<', '>'] => some .ne
  | ['>'] => some .gt
  | ['>', '='] | ['=', '+'] => some .ge
  | ['<'] => some .lt
  | ['<', '='] | ['=', '-'] => some .le
  | _ => none

/-- The operator for quantities that run backwards: "more than two days ago" is a smaller time. -/
def mirrored : Operator → Operator
  | .gt => .lt
  | .ge => .le
  | .lt => .gt
  | .le => .ge
  | op => op

/-- The operator's answer from those of the two primitives, of which "greater" is only asked where
equality does not decide. -/
def apply [Monad m] (op : Operator) (eq gt : m Bool) : m Bool :=
  match op with
  | .eq => eq
  | .ne => return !(← eq)
  | .gt => gt
  | .ge => do if ← eq then pure true else gt
  | .le => do if ← eq then pure true else return !(← gt)
  | .lt => do if ← eq then pure false else return !(← gt)

def compare {α : Type} [Scalar α] (op : Operator) (left right : α) : Bool :=
  match op with
  | .eq => left == right
  | .ne => !(left == right)
  | .gt => right < left
  | .ge => right ≤ left
  | .lt => left < right
  | .le => left ≤ right

end Operator

end TorrentQuery
