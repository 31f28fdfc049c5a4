import TorrentQuery.Field.Registry
import TorrentQuery.Number.Bounded

namespace TorrentQuery.Catalogue

open Number Text

def trackerCall : String := "t.multicall=,t.url=,t.is_enabled="

def filesCall : String := "f.multicall=,f.path="

def fileSizesCall : String := "f.multicall=,f.path=,f.size_bytes="

def keyed (name : String) (type : ValueType) (filter : FilterKind) (doc call : String) : Field :=
  { name, type, filter, doc, key := some call, requires := [call] }

/-- A field whose value is computed from the answers to some calls. -/
def computed (name : String) (type : ValueType) (filter : FilterKind) (doc : String)
    (requires : List String) : Field :=
  { name, type, filter, doc, requires }

def coreFields : List Field :=
  [ keyed "hash" .str .pattern "info hash"
      "d.hash=",
    keyed "name" .str .pattern "name (file or root directory)"
      "d.name=",
    keyed "size" .byteSize .byteSize "data size"
      "d.size_bytes=",
    keyed "prio" .int .float "priority (0=off, 1=low, 2=normal, 3=high)"
      "d.priority=",
    keyed "message" .str .pattern "current tracker message"
      "d.message=",
    computed "tracker" .str .pattern "first in the list of announce URLs"
      [trackerCall],
    computed "alias" .str .pattern "tracker alias or domain"
      ["d.custom=memo_alias"],
    keyed "is_private" .bool .bool "private flag set (no DHT/PEX)?"
      "d.is_private=",
    keyed "is_open" .bool .bool "download open?"
      "d.is_open=",
    keyed "is_active" .bool .bool "download active?"
      "d.is_active=",
    keyed "is_complete" .bool .bool "download complete?"
      "d.complete=",
    keyed "is_multi_file" .bool .bool "single- or multi-file download?"
      "d.is_multi_file=",
    keyed "is_ignored" .bool .bool "ignore commands?"
      "d.ignore_commands=",
    keyed "directory" .str .pattern "directory containing download data"
      "d.directory=",
    computed "path" .str .pattern "path to download data"
      ["d.directory=", "d.is_multi_file=", "d.name="],
    computed "metafile" .str .pattern "path to torrent file"
      ["d.tied_to_file="],
    computed "files" .list .files "list of files in this item"
      [filesCall],
    computed "fno" .int .float "number of files in this item"
      ["d.size_files="],
    computed "done" .float .float "completion in percent"
      ["d.size_bytes=", "d.completed_bytes="],
    { keyed "ratio" .float .float "normalized ratio (1:1 = 1.0)"
      "d.ratio=" with scale := 1000 },
    keyed "uploaded" .byteSize .byteSize "amount of uploaded data"
      "d.up.total=",
    computed "xfer" .byteSize .byteSize "transfer rate"
      ["d.up.rate=", "d.down.rate="],
    keyed "down" .byteSize .byteSize "download rate"
      "d.down.rate=",
    keyed "up" .byteSize .byteSize "upload rate"
      "d.up.rate=",
    keyed "throttle" .str .pattern "throttle group name (NULL=unlimited, NONE=global)"
      "d.throttle_name=",
    keyed "loaded" .timestamp .timeNotNull "time metafile was loaded"
      "d.custom=tm_loaded",
    keyed "started" .timestamp .timeNotNull "time download was FIRST started"
      "d.custom=tm_started",
    keyed "completed" .timestamp .timeNotNull "time download was finished"
      "d.custom=tm_completed",
    computed "last_xfer" .timestamp .time "last time data was transferred"
      ["d.timestamp.last_xfer="],
    computed "active" .timestamp .time "last time a peer was connected"
      ["d.timestamp.last_active="],
    computed "stopped" .timestamp .timeNotNull "time download was last stopped or paused"
      ["d.custom=activations"],
    computed "leechtime" .duration .duration "time taken from start to completion"
      ["d.custom=tm_completed", "d.custom=tm_started", "d.custom=activations"],
    computed "seedtime" .duration .duration "total seeding time after completion"
      ["d.custom=tm_completed", "d.complete=", "d.custom=activations"],
    keyed "tagged" .set .taggedAs "has certain tags? (not related to the 'tagged' view)"
      "d.custom=tags",
    keyed "views" .set .taggedAs "views this item is attached to"
      "d.views=",
    computed "kind" .set .taggedAs "ALL kinds of files in this item (the same as kind_0)"
      ["d.custom=kind"],
    computed "label" .str .pattern "ruTorrent label (alias for custom_1)"
      ["d.custom1="] ]

def core? (name : String) : Option Field := coreFields.find? (·.name = name)

def isSlot (key : String) : Bool := ["1", "2", "3", "4", "5"].contains key

def customCall (key : String) : String :=
  if isSlot key then "d.custom" ++ key ++ "=" else "d.custom=" ++ key

/-- The attribute meant by what follows `custom` in a name: `_key`, or the number of a slot. -/
def customKey? (suffix : String) : Option String :=
  match suffix.toList with
  | '_' :: c :: r => some (String.ofList (c :: r))
  | _ => if isSlot suffix then some suffix else none

def custom (name suffix : String) : Except QueryError (Option Field) :=
  .ok ((customKey? suffix).map fun key =>
    let doc := if isSlot key then "custom" ++ key else "custom attribute " ++ key
    keyed name .str .pattern doc (customCall key))

/-- The share of the size that a kind of files must make up, in percent. -/
def kindLimit? (suffix : String) : Option Nat :=
  if !suffix.isEmpty && suffix.toList.all Char.isDigit then
    some (min (ofDigits suffix.toList) maxUInt32)
  else none

def kind (name suffix : String) : Except QueryError (Option Field) :=
  match kindLimit? suffix with
  | none => .ok none
  | some limit =>
    if 100 < limit then .error (.invalidValue name suffix .kindLimit)
    else .ok (some (computed name .set .taggedAs
      ("kinds of files that make up more than " ++ toString limit ++ "% of this item's size")
      ["d.custom=kind"]))

def release (name suffix : String) : Except QueryError (Option Field) :=
  if suffix.isEmpty then .ok none
  else .ok (some (computed name .str .pattern ("release name property " ++ suffix) ["d.name="]))

def dottedCommands : List String :=
  ["d.custom_items", "d.custom_keys", "d.down_rate", "d.down_sequential", "d.down_total",
    "d.group_name", "d.skip_rate", "d.skip_total", "d.up_rate", "d.up_total", "d.views_has"]

/-- The command behind a field whose name starts with `d_`. -/
def commandName (suffix : String) : String :=
  let name := "d." ++ suffix
  if dottedCommands.contains name then
    "d." ++ String.ofList (suffix.toList.map fun c => if c == '_' then '.' else c)
  else name

def command (name suffix : String) : Except QueryError (Option Field) :=
  if suffix.isEmpty then .ok none
  else
    let call := commandName suffix
    let (type, filter) : ValueType × FilterKind :=
      match call with
      | "d.size_files" => (.int, .float)
      | "d.size_bytes" => (.int, .byteSize)
      | _ => (.str, .pattern)
    .ok (some (computed name type filter ("Dynamic rpc call for " ++ call) [call ++ "="]))

/-- Fields that list the answers to a command for each part of an item. -/
def partCommand (part : String) (name suffix : String) : Except QueryError (Option Field) :=
  if suffix.isEmpty then .ok none
  else
    let call := part ++ "." ++ suffix ++ "="
    .ok (some (computed name .list .files
      ("Dynamic rpc call for " ++ part ++ ".multicall=" ++ call)
      [part ++ ".multicall=," ++ call]))

def generators : List Generator :=
  [⟨"custom", custom⟩, ⟨"kind_", kind⟩, ⟨"guessit_", release⟩, ⟨"d_", command⟩,
    ⟨"f_", partCommand "f"⟩, ⟨"p_", partCommand "p"⟩, ⟨"t_", partCommand "t"⟩]

def registry : Registry := ⟨coreFields, generators⟩

end TorrentQuery.Catalogue
