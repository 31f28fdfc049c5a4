import TorrentQuery.Query.Cond

namespace TorrentQuery

/-- A condition with its field and operator. A value without a field is about the name. -/
structure Leaf where
  name : String
  operator : Operator
  value : Literal
  /-- Whether the field is written. -/
  written : Bool
  deriving DecidableEq, Repr

namespace Leaf

def named (name : String) (op : Operator) (v : Literal) : Leaf := ⟨name, op, v, true⟩

def bare (v : Literal) : Leaf := ⟨"name", .eq, v, false⟩

end Leaf

namespace Cond

mutual

def leaves : Cond → List Leaf
  | .named name op v => [.named name op v]
  | .bare v => [.bare v]
  | .group _ body => leavesOfStmt body

def leavesOfAll : List Cond → List Leaf
  | [] => []
  | c :: r => leaves c ++ leavesOfAll r

def leavesOfStmt : List (List Cond) → List Leaf
  | [] => []
  | cs :: r => leavesOfAll cs ++ leavesOfStmt r

end

/-- Names are those that are written in the conditions, and only bare values have none. -/
structure Lists (names : List String) (bare : Bool) (ls : List Leaf) : Prop where
  written : (ls.filter (·.written)).map (·.name) = names
  bare : bare = ls.any (!·.written)
  name_of_bare : ∀ l ∈ ls, l.written = false → l.name = "name"

theorem Lists.nil : Lists [] false [] := ⟨rfl, rfl, List.forall_mem_nil _⟩

theorem Lists.append {names names' : List String} {bare bare' : Bool} {ls ls' : List Leaf}
    (h : Lists names bare ls) (h' : Lists names' bare' ls') :
    Lists (names ++ names') (bare || bare') (ls ++ ls') := by
  refine ⟨?_, ?_, List.forall_mem_append.2 ⟨h.name_of_bare, h'.name_of_bare⟩⟩
  · rw [List.filter_append, List.map_append, h.written, h'.written]
  · rw [List.any_append, ← h.bare, ← h'.bare]

mutual

theorem lists_leaves (c : Cond) : Lists c.names c.hasBare c.leaves := by
  cases c with
  | named name op v => exact ⟨rfl, rfl, List.forall_mem_singleton.2 fun h => (nomatch h)⟩
  | bare v => exact ⟨rfl, rfl, List.forall_mem_singleton.2 fun _ => rfl⟩
  | group negated body => exact lists_leavesOfStmt body

theorem lists_leavesOfAll (cs : List Cond) :
    Lists (namesOfAll cs) (anyHasBare cs) (leavesOfAll cs) := by
  cases cs with
  | nil => exact .nil
  | cons c r => exact (lists_leaves c).append (lists_leavesOfAll r)

theorem lists_leavesOfStmt (s : List (List Cond)) :
    Lists (namesOfStmt s) (stmtHasBare s) (leavesOfStmt s) := by
  cases s with
  | nil => exact .nil
  | cons cs r => exact (lists_leavesOfAll cs).append (lists_leavesOfStmt r)

end

end Cond

namespace Stmt

def leaves (s : Stmt) : List Leaf := Cond.leavesOfStmt s

theorem hasBare_iff {s : Stmt} : s.hasBare = true ↔ ∃ l ∈ s.leaves, l.written = false := by
  rw [hasBare, (Cond.lists_leavesOfStmt s).bare, List.any_eq_true]
  simp only [Bool.not_eq_true']
  rfl

end Stmt

end TorrentQuery
