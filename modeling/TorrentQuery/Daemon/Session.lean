import TorrentQuery.Daemon.Dialogue
import TorrentQuery.Field.Catalogue
import TorrentQuery.Settings.Basic

namespace TorrentQuery

structure Session where
  /-- The methods that the daemon has, once it has told them. -/
  methods : Option (List String) := none
  registry : Registry := Catalogue.registry

/-- Work in the course of a session. What has been learnt before a failure is kept. -/
abbrev Work (ε α : Type) := ExceptT ε (StateT Session Dialogue) α

namespace Session

def names : List Json → List String
  | [] => []
  | .str s :: r => s :: names r
  | _ :: r => names r

def ask (r : Request) : Work DaemonError Json :=
  ExceptT.mk (StateT.lift (Dialogue.ask r))

def askAll (rs : List Request) : Work DaemonError (List Json) :=
  ExceptT.mk (StateT.lift (Dialogue.askAll rs))

def lookup {α : Type} (act : Lookup α) : Work QueryError α := do
  let (answer, registry) := act.run.run (← get).registry
  modify fun s => { s with registry }
  liftExcept answer
where
  liftExcept (x : Except QueryError α) : Work QueryError α := ExceptT.mk (pure x)

/-- The daemon's methods, which it is asked for once. -/
def methodNames : Work DaemonError (List String) := do
  match (← get).methods with
  | some ms => return ms
  | none =>
    match ← ask ⟨"system.listMethods", []⟩ with
    | .arr items =>
      modify fun s => { s with methods := some (names items) }
      return names items
    | j => throw (.protocol (.noMethodList j))

def hasMethod (method : String) : Work DaemonError Bool := return (← methodNames).contains method

/-- Whether a method can be relied on. Without safety checks each is taken for granted. -/
def canUse (settings : Settings) (method : String) : Work DaemonError Bool :=
  if settings.safetyChecks then hasMethod method else pure true

def shown (settings : Settings) (url : String) : String :=
  let level := match settings.level with
    | .off => "Off"
    | .safe => "Safe"
    | .aggressive => "Aggressive"
  "Engine \x7b url: " ++ Text.quoted url ++ ", fast_query: " ++ level ++ " \x7d"

end Session

end TorrentQuery
