import TorrentQuery.Daemon.PreFilter
import TorrentQuery.Toml.Reader

namespace TorrentQuery

open Number

structure Settings where
  /-- Where the daemon listens, or the name of a connection. -/
  url : Option String := none
  level : Level := .safe
  /-- Whether the daemon is asked what it can do before that is relied on. -/
  safetyChecks : Bool := true
  /-- Seconds to wait for the daemon. -/
  timeout : Nat := 30
  /-- The file with the daemon's own configuration. -/
  daemonFile : String := "~/.rtorrent.rc"
  /-- Names of trackers with the announce URLs or domains that they stand for. -/
  aliases : List (String × List String) := []
  connections : List (String × String) := []
  deriving Inhabited, Repr

namespace Settings

def text? : Toml → Option String
  | .str s => some s
  | _ => none

def texts? : Toml → Option (List String)
  | .array items => items.mapM text?
  | _ => none

def flag? : Toml → Option Bool
  | .bool b => some b
  | _ => none

def natural? : Toml → Option Nat
  | .int n => if 0 ≤ n then some n.toNat else none
  | _ => none

def level? (t : Toml) : Option Level := (natural? t).bind fun n => (Level.ofNumber n).toOption

def each? {α : Type} (read : Toml → Option α) (t : Toml) : Option (List (String × α)) := do
  (← t.members?).mapM fun (key, value) => return (key, ← read value)

/-- What is set under a key, or the default; nothing if it does not read. -/
def setting? {α : Type} (members : Toml.Members) (key : String) (read : Toml → Option α)
    (default : α) : Option α :=
  match Toml.member? key members with
  | some t => read t
  | none => some default

def ofToml? (t : Toml) : Option Settings := do
  let members ← t.members?
  let defaults : Settings := {}
  some {
    url := ← setting? members "scgi_url" (fun t => (text? t).map some) defaults.url
    level := ← setting? members "fast_query" level? defaults.level
    safetyChecks := ← setting? members "safety_checks_enabled" flag? defaults.safetyChecks
    timeout := ← setting? members "rpc_timeout_seconds" natural? defaults.timeout
    daemonFile := ← setting? members "rtorrent_rc" text? defaults.daemonFile
    aliases := ← setting? members "aliases" (each? texts?) defaults.aliases
    connections := ← setting? members "connections" (each? text?) defaults.connections }

def ofText? (s : String) : Option Settings := (Toml.read? s).bind ofToml?

end Settings

end TorrentQuery
