import TorrentQuery.Filter.Matcher
import TorrentQuery.Torrent.Attribute

namespace TorrentQuery

open Number Text

inductive SelectionError where
  | daemon (e : DaemonError)
  | malformedRow (row : Json)
  | noHash
  | query (e : QueryError)
  deriving Repr

def SelectionError.messages (url : String) : SelectionError → List String
  | .daemon e => ("While getting download items from " ++ url) :: e.message :: e.causes
  | .malformedRow row => ["Malformed item row from " ++ url ++ ": " ++ row.text]
  | .noHash => [(DaemonError.protocol .noHash).message]
  | .query e => [e.message]

namespace Selection

variable {α : Type} [Scalar α]

/-- The condition that is sent for a filter, if any can be expressed and the daemon understands it. -/
def preFilter (settings : Settings) (m : Matcher α) : Work DaemonError (Option String) := do
  if settings.level = .off then return none
  if !(← Session.canUse settings "d.multicall.filtered") then return none
  let condition := m.preFilterText settings.level
  if condition.isEmpty then return none
  if occursIn "string.contains_i".toList condition.toList then
    if !(← Session.canUse settings "string.contains_i") then return none
  return some condition

def request (view : String) (condition : Option String) (calls : List String) : Request :=
  match condition with
  | some c => ⟨"d.multicall.filtered", .str "" :: .str view :: .str c :: calls.map .str⟩
  | none => ⟨"d.multicall2", .str "" :: .str view :: calls.map .str⟩

def rows (settings : Settings) (view : String) (matcher : Option (Matcher α)) (calls : List String) :
    Work DaemonError (List Json) := do
  match Call.hashOfView? view with
  | some hash => return [.arr (← Session.askAll (calls.map (Call.request hash)))]
  | none =>
    let condition ← match matcher with
      | some m => preFilter settings m
      | none => pure none
    let r := request view condition calls
    match ← Session.ask r with
    | .arr rows => return rows
    | j => throw (.protocol (.noItemList r.method j))

/-- The item of a row, if the filter selects it. -/
def select (settings : Settings) (now : α) (matcher : Option (Matcher α)) (item : Item) :
    Work SelectionError (Option Item) := do
  match matcher with
  | none => return some item
  | some m =>
    let (selected, item) ←
      ((m.eval (Item.read settings now)).start item).adapt SelectionError.query
    return if selected then some item else none

def selectAll (settings : Settings) (now : α) (matcher : Option (Matcher α)) (calls : List String) :
    List Json → Work SelectionError (List Item)
  | [] => return []
  | .arr answers :: r => do
    match Item.ofRow? calls answers with
    | none => throw .noHash
    | some item =>
      let selected ← select settings now matcher item
      let others ← selectAll settings now matcher calls r
      return selected.toList ++ others
  | row :: _ => throw (.malformedRow row)

/-- The calls that are made for each item of a selection. -/
def callsFor (prefetch : List String) : List String :=
  if prefetch.isEmpty then Call.ordered Call.usual else Call.ordered (Call.base ++ prefetch)

def items (settings : Settings) (now : α) (view : String) (matcher : Option (Matcher α))
    (prefetch : List String) : Work SelectionError (List Item) := do
  let calls := callsFor prefetch
  let rows ← (rows settings view matcher calls).adapt .daemon
  selectAll settings now matcher calls rows

end Selection

end TorrentQuery
