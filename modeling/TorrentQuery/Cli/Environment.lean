import TorrentQuery.Cli.Error
import TorrentQuery.Cli.Options
import TorrentQuery.Settings.Files

namespace TorrentQuery.Cli

open Text

structure Environment where
  files : Files
  /-- The value of `RTQ_CONF`, a file with settings. -/
  configFile : Option String := none
  /-- The value of `XDG_CONFIG_HOME`, a directory. -/
  configHome : Option String := none

namespace Environment

/-- The directory of the user's settings. A relative path does not count. -/
def configDirectory? (env : Environment) : Option String :=
  (env.configHome.filter fun d => d.toList.head? == some '/').or
    (env.files.home.map (joinPath · ".config"))

def usualFile? (env : Environment) : Option String :=
  env.configDirectory?.map fun d => joinPath (joinPath d "rtq") "config.toml"

def usualSettings (env : Environment) : Except SettingsError Settings :=
  match env.configFile, env.usualFile? with
  | some path, _ => Settings.load env.files path
  | none, some path =>
    match env.files.look path with
    | .missing _ => .ok {}
    | _ => Settings.load env.files path
  | none, none => .ok {}

def settingsFiles (env : Environment) (o : Options) : List String :=
  [o.config, env.configFile, env.usualFile?].filterMap id

/-- The settings of a file, with those that the command line gives in place of its own. -/
def settings (env : Environment) (o : Options) : Except SetupError Settings :=
  let (path, loaded) := match o.config with
    | some path => (path, Settings.load env.files path)
    | none => (env.usualFile?.getD "", env.usualSettings)
  match loaded with
  | .error e => .error (.settings path (e.message :: e.causes))
  | .ok s => .ok { s with url := o.url.or s.url, level := o.level.getD s.level }

end Environment

end TorrentQuery.Cli
