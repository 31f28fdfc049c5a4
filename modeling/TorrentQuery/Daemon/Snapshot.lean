import TorrentQuery.Daemon.Dialogue
import TorrentQuery.Text.Split

namespace TorrentQuery

open Text

structure Snapshot where
  /-- Items, each with its answers by calls. -/
  items : List (List (String × Json)) := []
  methods : Json := .arr []
  /-- Methods that fail. -/
  faults : List (String × DaemonError) := []
  /-- Methods that have one answer. -/
  replies : List (String × Json) := []

namespace Snapshot

/-- The text of a parameter; others than texts count as empty. -/
def textOf : Json → String
  | .str s => s
  | _ => ""

def find? {α : Type} (key : String) (entries : List (String × α)) : Option α :=
  (entries.find? (·.1 = key)).map (·.2)

def itemAnswer (item : List (String × Json)) (call : String) : Json := (find? call item).getD (.str "")

def rows (d : Snapshot) (calls : List Json) : Json :=
  .arr (d.items.map fun item => .arr (calls.map fun call => itemAnswer item (textOf call)))

def hasHash (hash : String) (item : List (String × Json)) : Bool :=
  match find? "d.hash=" item with
  | some (.str h) => h = hash
  | _ => false

/-- The answer about the item that the first parameter names. -/
def itemReply (d : Snapshot) (method : String) (params : List Json) : Answer :=
  let hash := (params.head?.map textOf).getD ""
  match d.items.find? (hasHash hash) with
  | some item => .ok (itemAnswer item (method ++ "=" ++ joinWith "," ((params.drop 1).map textOf)))
  | none => .error (.hashNotFound hash)

def answer (d : Snapshot) (r : Request) : Answer :=
  match find? r.method d.faults, find? r.method d.replies with
  | some e, _ => .error e
  | none, some j => .ok j
  | none, none =>
    match r.method with
    | "system.listMethods" => .ok d.methods
    | "d.multicall2" => .ok (d.rows (r.params.drop 2))
    | "d.multicall.filtered" => .ok (d.rows (r.params.drop 3))
    | method => d.itemReply method r.params

end Snapshot

end TorrentQuery
