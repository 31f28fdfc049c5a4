import TorrentQuery.Daemon.Call
import TorrentQuery.Daemon.Reply
import TorrentQuery.Daemon.Session

namespace TorrentQuery

open Text

structure Item where
  hash : String
  /-- Answers by calls. -/
  known : List (String × Json)
  deriving Repr

/-- Reading an item in the course of a session. Answers that came before a failure are kept. -/
abbrev Reading (ε α : Type) := ExceptT ε (StateT Item (StateT Session Dialogue)) α

def Reading.ofWork {ε α : Type} (w : Work ε α) : Reading ε α := ExceptT.mk (StateT.lift w.run)

/-- Reads an item as it is now, which gives it back with what has become known of it. -/
def Reading.start {ε α : Type} (r : Reading ε α) (item : Item) : Work ε (α × Item) :=
  ExceptT.mk do
    let (answer, item) ← r.run.run item
    return answer.map (·, item)

namespace Item

/-- The item of some calls with their answers, among which there must be its info hash. -/
def ofRow? (calls : List String) (answers : List Json) : Option Item :=
  let known := calls.zip answers
  match known.find? (·.1 = "d.hash=") with
  | some (_, .str hash) => if hash.isEmpty then none else some ⟨hash, known⟩
  | _ => none

def fetch (call : String) : Reading DaemonError Json := do
  let item ← get
  match item.known.find? (·.1 = call) with
  | some (_, j) => return j
  | none =>
    let j ← Reading.ofWork (Session.ask (Call.request item.hash call))
    modify fun item => { item with known := item.known ++ [(call, j)] }
    return j

def text (call : String) : Reading DaemonError String := return (← fetch call).asText

def integer (call : String) : Reading DaemonError Int := return (← fetch call).asInteger

def flag (call : String) : Reading DaemonError Bool := return (← integer call) != 0

/-- Announce URLs of the trackers that are enabled, in their order. -/
def announceUrls : Reading DaemonError (List String) := do
  return (← fetch Catalogue.trackerCall).asRows.filterMap fun
    | url :: enabled :: _ => if enabled.asInteger != 0 then some url.asText else none
    | _ => none

def shown (item : Item) : String :=
  "TorrentItem \x7b hash: " ++ quoted item.hash ++ ", cached: " ++ toString item.known.length ++
    " \x7d"

end Item

end TorrentQuery
