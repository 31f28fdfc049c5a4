import TorrentQuery.Settings.Basic
import TorrentQuery.Settings.DaemonFile
import TorrentQuery.Text.Path

namespace TorrentQuery

open Text

inductive FileContent where
  | missing (reason : String)
  | unreadable (reason : String)
  | text (s : String)
  deriving DecidableEq, Repr

/-- Paths with what is there, and the user's home directory. -/
structure Files where
  look : String → FileContent
  home : Option String

def Files.ofList (home : Option String) (entries : List (String × FileContent)) : Files where
  home
  look path := ((entries.find? (·.1 = path)).map (·.2)).getD (.missing "not found")

inductive SettingsError where
  | unreadable (path reason : String)
  | invalid (path : String)
  | noDaemonFile (path : String)
  | unreadableDaemonFile (path reason : String)
  | noEndpoint (path : String)
  deriving DecidableEq, Repr

def SettingsError.message : SettingsError → String
  | .unreadable path _ => "Failed to read config file: " ++ path
  | .invalid path => "Failed to parse config file: " ++ path
  | .noDaemonFile path =>
    "No daemon URL configured, and rTorrent RC file '" ++ path ++ "' doesn't exist"
  | .unreadableDaemonFile path _ => "Failed to read rTorrent RC file: " ++ path
  | .noEndpoint path =>
    "Unable to find an SCGI setting in '" ++ path ++ "', set scgi_url in the config"

def SettingsError.causes : SettingsError → List String
  | .unreadable _ reason | .unreadableDaemonFile _ reason => [reason]
  | _ => []

def Files.expandHome (files : Files) (path : String) : String :=
  match path.toList, files.home with
  | '~' :: '/' :: r, some home => joinPath home (String.ofList r)
  | _, _ => path

namespace Settings

def load (files : Files) (path : String) : Except SettingsError Settings :=
  match files.look path with
  | .text s => (ofText? s).elim (.error (.invalid path)) .ok
  | .missing reason | .unreadable reason => .error (.unreadable path reason)

/-- The endpoint that the daemon's configuration names; a path goes before a port. -/
def endpointIn? (files : Files) (content : String) : Option String :=
  let entries := DaemonFile.entries content
  let path := DaemonFile.lastOf DaemonFile.localKeys entries
  let port := DaemonFile.lastOf DaemonFile.portKeys entries
  if !path.isEmpty then
    some (if (after? "scgi+unix://".toList path.toList).isSome then path
      else "scgi+unix://" ++ files.expandHome path)
  else if !port.isEmpty then
    some (if (after? "scgi://".toList port.toList).isSome then port else "scgi://" ++ port)
  else none

def daemonUrl (files : Files) (s : Settings) : Except SettingsError String :=
  match s.url.filter (!·.isEmpty) with
  | some url => .ok (((s.connections.find? (·.1 = url)).map (·.2)).getD url)
  | none =>
    let path := files.expandHome s.daemonFile
    match files.look path with
    | .missing _ => .error (.noDaemonFile path)
    | .unreadable reason => .error (.unreadableDaemonFile path reason)
    | .text content => (endpointIn? files content).elim (.error (.noEndpoint path)) .ok

end Settings

end TorrentQuery
