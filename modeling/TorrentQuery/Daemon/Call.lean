import TorrentQuery.Daemon.Dialogue
import TorrentQuery.Field.Registry
import TorrentQuery.Field.TextSet
import TorrentQuery.Number.Hex
import TorrentQuery.Text.Split

namespace TorrentQuery.Call

open Number Text

def split (call : String) : String × List String :=
  match splitOnce ['='] call.toList with
  | some (method, []) => (String.ofList method, [])
  | some (method, rest) =>
    (String.ofList method, (splitWhere (· == ',') rest).map String.ofList)
  | none => (call, [])

def request (hash call : String) : Request :=
  let (method, args) := split call
  ⟨method, .str hash :: args.map .str⟩

def hashOfView? (view : String) : Option String :=
  match view.toList with
  | '#' :: hash => some (String.ofList hash)
  | cs => if cs.length = 40 && cs.all isHexDigit then some view else none

def base : List String := ["d.hash="]

def usual : List String :=
  ["d.hash=", "d.name=", "d.is_private=", "d.is_multi_file=", "d.tracker_size=", "d.size_bytes=",
    "d.complete=", "d.tied_to_file=", "d.base_path=", "d.custom=memo_alias",
    "d.custom=tm_completed", "d.custom=tm_loaded", "d.custom=tm_started", "d.down.rate=",
    "d.down.total=", "d.is_active=", "d.is_open=", "d.message=", "d.ratio=", "d.up.rate=",
    "d.up.total="]

def ordered (calls : List String) : List String := (TextSet.ofList calls).toList

def prefetch (names : List String) : Lookup (List String) := do
  if names.isEmpty then return ordered usual
  else return ordered (base ++ (← Registry.requiredCalls names))

end TorrentQuery.Call
