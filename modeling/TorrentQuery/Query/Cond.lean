import TorrentQuery.Query.Operator
import TorrentQuery.Text.Blank

namespace TorrentQuery

/-- A value without the quotes that may have stood around it. -/
structure Literal where
  text : String
  quoted : Bool
  deriving DecidableEq, Inhabited, Repr

/-- The written form. Quotes are added where the value could not stand without them. -/
def Literal.render (v : Literal) : String :=
  if v.quoted || v.text.isEmpty || v.text.toList.any Text.isBlank then "\"" ++ v.text ++ "\""
  else v.text

/-- A condition. The body of a group lists alternatives, each a list of conditions. -/
inductive Cond where
  | named (field : String) (operator : Operator) (value : Literal)
  /-- A value without a field, which is about the name. -/
  | bare (value : Literal)
  | group (negated : Bool) (body : List (List Cond))
  deriving Inhabited, Repr

abbrev Stmt := List (List Cond)

namespace Cond

mutual

def names : Cond → List String
  | .named field _ _ => [field]
  | .bare _ => []
  | .group _ body => namesOfStmt body

def namesOfAll : List Cond → List String
  | [] => []
  | c :: r => names c ++ namesOfAll r

def namesOfStmt : List (List Cond) → List String
  | [] => []
  | cs :: r => namesOfAll cs ++ namesOfStmt r

end

mutual

def hasBare : Cond → Bool
  | .named _ _ _ => false
  | .bare _ => true
  | .group _ body => stmtHasBare body

def anyHasBare : List Cond → Bool
  | [] => false
  | c :: r => hasBare c || anyHasBare r

def stmtHasBare : List (List Cond) → Bool
  | [] => false
  | cs :: r => anyHasBare cs || stmtHasBare r

end

end Cond

/-- The texts in order of first appearance, each once. -/
def firstOccurrences (xs : List String) : List String :=
  xs.foldl (fun seen x => if x ∈ seen then seen else seen ++ [x]) []

namespace Stmt

/-- Fields that a filter names, in order of first appearance. Bare values name none. -/
def keys (s : Stmt) : List String := firstOccurrences (Cond.namesOfStmt s)

def hasBare (s : Stmt) : Bool := Cond.stmtHasBare s

/-- Fields that a filter reads. The name leads them, if only bare values read it. -/
def fields (s : Stmt) : List String :=
  if hasBare s && !(keys s).contains "name" then "name" :: keys s else keys s

end Stmt

end TorrentQuery
