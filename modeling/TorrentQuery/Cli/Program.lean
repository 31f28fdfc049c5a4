import TorrentQuery.Cli.Environment
import TorrentQuery.Cli.Failure
import TorrentQuery.Cli.Output
import TorrentQuery.Query.Arguments
import TorrentQuery.Query.Reading
import TorrentQuery.Rpc.Endpoint
import TorrentQuery.Torrent.Selection

namespace TorrentQuery.Cli

open Number Text

/-- What has been printed, and how the program failed if it did. -/
structure Outcome where
  printed : String := ""
  failure : Option Failure := none
  deriving Repr

def SetupError.failure (e : SetupError) : Failure := ⟨e.message, e.causes⟩

def Outcome.failed (f : Failure) : Outcome := { failure := some f }

/-- The outcome is known at once, or it takes a talk with the daemon. -/
inductive Plan where
  | finish (o : Outcome)
  | converse (endpoint : Endpoint) (timeout : Nat) (talk : Dialogue Outcome)

variable {α : Type} [Scalar α]

def compile (now : α) (filter : String) : Lookup (Matcher α × List String) := do
  match Stmt.read filter with
  | .error e => throw e
  | .ok s => return (← Matcher.ofStmt now s, s.fields)

def lookedUp {β : Type} (act : Lookup β) (registry : Registry) : Except QueryError β × Registry :=
  act.run.run registry

def preFilterOutcome (now : α) (settings : Settings) (filter : String) : Outcome :=
  match (lookedUp (compile now filter) Catalogue.registry).1 with
  | .error e => .failed (SetupError.filter e).failure
  | .ok (m, _) => { printed := m.preFilterText settings.level ++ "\n" }

def fieldsToShow (names output : List String) : List String :=
  names ++ firstOccurrences (output.filter (!names.contains ·))

def keysText (names : List String) : Lookup String := do
  let table ← keysTable names
  return table ++ "\nPrefetch: " ++ joinWith " " (← Call.prefetch names) ++ "\n"

/-- Prints the fields that a filter and the output need, and the calls that are made for them. -/
def keysOutcome (now : α) (filter : String) (output : List String) : Outcome :=
  match lookedUp (compile now filter) Catalogue.registry with
  | (.error e, _) => .failed (SetupError.filter e).failure
  | (.ok (_, names), registry) =>
    match (lookedUp (keysText (fieldsToShow names output)) registry).1 with
    | .error e => .failed ⟨e.message, []⟩
    | .ok text => { printed := text }

/-- Lines of values for some items, up to the first whose values cannot be told. -/
def printRows (settings : Settings) (now : α) (output : List String) (printed : String) :
    List Item → StateT Session Dialogue Outcome
  | [] => return { printed }
  | item :: r => do
    match ← ((row (Item.read settings now) output).start item).run with
    | .error e => return { printed, failure := some ⟨e.message, []⟩ }
    | .ok (line, _) => printRows settings now output (printed ++ line ++ "\n") r

/-- Prints the items of a view that a matcher selects. -/
def selectionTalk (settings : Settings) (now : α) (url view : String) (m : Matcher α)
    (prefetch output : List String) : StateT Session Dialogue Outcome := do
  match ← (Selection.items settings now view (some m) prefetch).run with
  | .error e => return .failed (.ofTexts (e.messages url))
  | .ok items => printRows settings now output "" items

def endpoint (files : Files) (settings : Settings) : Except SetupError Endpoint :=
  match settings.daemonUrl files with
  | .error e => .error (.connection (e.message :: e.causes))
  | .ok url =>
    match Endpoint.ofUrl files.home url with
    | .ok e => .ok e
    | .error f =>
      .error (.connection ["Failed to set up a connection to " ++ url,
        (DaemonError.protocol f).message])

def selectionPlan (files : Files) (settings : Settings) (now : α) (filter view : String)
    (output : List String) : Plan :=
  match endpoint files settings with
  | .error e => .finish (.failed e.failure)
  | .ok endpoint =>
    match lookedUp (compile now filter) Catalogue.registry with
    | (.error e, _) => .finish (.failed (SetupError.filter e).failure)
    | (.ok (m, names), registry) =>
      match lookedUp (Call.prefetch (names ++ output)) registry with
      | (.error e, _) => .finish (.failed ⟨"Invalid output field", [e.message]⟩)
      | (.ok prefetch, registry) =>
        .converse endpoint settings.timeout
          ((selectionTalk settings now endpoint.url view m prefetch output).run' { registry })

/-- What to do for the options. -/
def plan (env : Environment) (now : α) (o : Options) : Plan :=
  match env.settings o with
  | .error e => .finish (.failed e.failure)
  | .ok settings =>
    let filter := Arguments.join o.filter
    if o.showPreFilter then .finish (preFilterOutcome now settings filter)
    else if o.showKeys then .finish (keysOutcome now filter o.output)
    else selectionPlan env.files settings now filter o.view o.output

end TorrentQuery.Cli
