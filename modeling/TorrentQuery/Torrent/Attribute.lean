import TorrentQuery.Field.Value
import TorrentQuery.Settings.Alias
import TorrentQuery.Text.Path
import TorrentQuery.Torrent.Activity
import TorrentQuery.Torrent.FileKinds
import TorrentQuery.Torrent.Item
import TorrentQuery.Torrent.Release

namespace TorrentQuery

open Number Text

inductive ReadError where
  | daemon (e : DaemonError)
  | query (e : QueryError)
  | limit (e : IntegerError)
  | noCall (field : String)
  deriving Repr

def ReadError.message : ReadError → String
  | .daemon e => joinWith ": " (e.message :: e.causes)
  | .query e => e.message
  | .limit e => e.message
  | .noCall field => "Field '" ++ field ++ "' has no daemon call"

namespace Item

variable {α : Type} [Scalar α]

def ofDaemon {β : Type} (r : Reading DaemonError β) : Reading ReadError β := r.adapt .daemon

def ofOption {β : Type} (f : β → Value α) (x : Option β) : Value α := x.elim .none f

def firstColumn (j : Json) : List String := j.asRows.filterMap fun row => row.head?.map Json.asText

def valueOf (f : Field) (j : Json) : Value α :=
  match f.filter, f.type with
  | .files, _ => .list (firstColumn j)
  | _, .bool => .bool (j.asInteger != 0)
  | _, .int | _, .byteSize | _, .timestamp => .int j.asInteger
  | _, .float => .float (Scalar.ofInt j.asInteger / Scalar.ofInt f.scale)
  | _, _ => .str j.asText

def answerFor (f : Field) : Reading ReadError (Value α) :=
  match f.requires.head? with
  | some call => do return valueOf f (← ofDaemon (fetch call))
  | none => throw (.noCall f.name)

/-- The name of the item's tracker, as noted down or from its first announce URL. -/
def trackerName (settings : Settings) : Reading DaemonError (Option String) := do
  let noted ← text "d.custom=memo_alias"
  let url ← if noted.isEmpty then List.head? <$> announceUrls else pure (some noted)
  return (url.map settings.trackerName).filter (!·.isEmpty)

def dataPath : Reading DaemonError String := do
  let directory ← text "d.directory="
  if ← flag "d.is_multi_file=" then return directory
  else return joinPath directory (← text "d.name=")

def completion : Reading DaemonError α := do
  let size ← integer "d.size_bytes="
  let completed ← integer "d.completed_bytes="
  if 0 < size then return Scalar.ofInt completed * Scalar.ofInt 100 / Scalar.ofInt size
  else return Scalar.zero

/-- A time that only some daemons keep; zero where it is not kept. -/
def keptTime (settings : Settings) (method : String) : Reading DaemonError Int := do
  if ← Reading.ofWork (Session.canUse settings method) then integer (method ++ "=")
  else return 0

def history (settings : Settings) : Reading DaemonError String := do
  let _ ← Reading.ofWork (Session.canUse settings "pyro._activations.append")
  text "d.custom=activations"

/-- Seconds of activity until completion, or else the time from start to completion. -/
def leechTime (settings : Settings) (now : α) : Reading DaemonError (Option Int) := do
  let completed : α := Scalar.ofInt (← integer "d.custom=tm_completed")
  match (Activity.sum (← history settings) none (some completed) now).filter (0 < ·) with
  | some total => return some total
  | none =>
    let started : α := Scalar.ofInt (← integer "d.custom=tm_started")
    return (Activity.duration started completed now).map Scalar.trunc64

def seedTime (settings : Settings) (now : α) : Reading DaemonError (Option Int) := do
  if ← flag "d.complete=" then
    let completed : α := Scalar.ofInt (← integer "d.custom=tm_completed")
    return Activity.sum (← history settings) (some completed) none now
  else return none

/-- The time of the last pause, zero if there was none. The type argument is the arithmetic. -/
def stopTime (α : Type) [Scalar α] : Reading DaemonError Int := do
  let pauses : List (Char × α) := Activity.latest (← text "d.custom=activations") (some 'P')
  return pauses.head?.elim 0 fun p => Scalar.trunc64 p.2

def fileSizes : Reading DaemonError (List (String × Int)) := do
  return (← fetch Catalogue.fileSizesCall).asRows.filterMap fun
    | path :: size :: _ => some (path.asText, size.asInteger)
    | _ => none

/-- Kinds of files that make up at least `limit` percent of the size, as noted down or from the sizes
of all files. -/
def fileKinds (α : Type) [Scalar α] (limit : Nat) : Reading DaemonError TextSet := do
  let noted ← text "d.custom=kind"
  let shares ← if (trim noted.toList).isEmpty then FileKinds.histogram (α := α) <$> fileSizes
    else pure (FileKinds.readHistogram noted)
  return .ofList (FileKinds.atLeast limit shares)

/-- The value of a field that is put together in a way of its own. -/
def composed? (settings : Settings) (now : α) :
    (name : String) → Option (Reading DaemonError (Value α))
  | "tracker" => some do return ofOption .str (← announceUrls).head?
  | "alias" => some do return ofOption .str (← trackerName settings)
  | "path" => some do return .str (← dataPath)
  | "done" => some do return .float (← completion)
  | "xfer" => some do return .int (wrap64 ((← integer "d.up.rate=") + (← integer "d.down.rate=")))
  | "last_xfer" => some do return .int (← keptTime settings "d.timestamp.last_xfer")
  | "active" => some do return .int (← keptTime settings "d.timestamp.last_active")
  | "stopped" => some do return .int (← stopTime α)
  | "leechtime" => some do return ofOption .int (← leechTime settings now)
  | "seedtime" => some do return ofOption .int (← seedTime settings now)
  | "tagged" => some do return .set (.ofList (wordsOf (lowered (← text "d.custom=tags"))))
  | "views" => some do return .set (← fetch "d.views=").asTextSet
  | "kind" => some do return .set (← fileKinds α 0)
  | _ => none

def familyValue (name : String) : Reading ReadError (Value α) := do
  match after? "kind_".toList name.toList, after? "guessit_".toList name.toList with
  | some limit, _ =>
    match readNat maxUInt32 limit with
    | .ok n => return .set (← ofDaemon (fileKinds α n))
    | .error e => throw (.limit e)
  | none, some key =>
    return .str (Release.property (← ofDaemon (text "d.name=")) (String.ofList key))
  | none, none =>
    let f ← (Reading.ofWork (Session.lookup (Registry.resolve name))).adapt .query
    answerFor f

def value (settings : Settings) (now : α) (name : String) : Reading ReadError (Value α) :=
  match composed? settings now name, Catalogue.core? name with
  | some reading, _ => ofDaemon reading
  | none, some f => answerFor f
  | none, none => familyValue name

def read (settings : Settings) (now : α) (name : String) : Reading QueryError (Value α) :=
  (value settings now name).adapt fun e => .attribute name e.message

end Item

end TorrentQuery
