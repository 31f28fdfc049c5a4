import TorrentQuery.Field.TextSet
import TorrentQuery.Number.Scalar
import TorrentQuery.Text.Blank

namespace TorrentQuery

open Number Text

inductive Value (α : Type) where
  | none
  | bool (b : Bool)
  | int (n : Int)
  | float (x : α)
  | str (s : String)
  | set (s : TextSet)
  | list (items : List String)
  deriving Repr

namespace Value

variable {α : Type} [Scalar α]

def isNone : Value α → Bool
  | .none => true
  | _ => false

def truthy : Value α → Bool
  | .none => false
  | .bool b => b
  | .int n => n != 0
  | .float x => !(x == Scalar.zero)
  | .str s => !s.isEmpty
  | .set s => !s.isEmpty
  | .list items => !items.isEmpty

def render : Value α → String
  | .none => ""
  | .bool b => if b then "1" else "0"
  | .int n => toString n
  | .float x => Scalar.render x
  | .str s => s
  | .set s => joinWith " " s.toList
  | .list items => joinWith ", " items

/-- The amount that a value stands for. Texts are amounts if they read as one. -/
def number? : Value α → Option α
  | .bool b => some (Scalar.ofInt (if b then 1 else 0))
  | .int n => some (Scalar.ofInt n)
  | .float x => some x
  | .str s => Scalar.read? (trimmed s)
  | .none | .set _ | .list _ => Option.none

/-- The words of a text, the items of a list, or the one text of any other value. -/
def toSet : Value α → TextSet
  | .none => .empty
  | .set s => s
  | .list items => .ofList items
  | .str s => .ofList (wordsOf s)
  | v => .ofList [v.render]

end Value

end TorrentQuery
