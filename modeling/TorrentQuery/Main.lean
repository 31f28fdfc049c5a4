import Std.Async.DNS
import Std.Async.TCP
import Std.Async.Timer
import TorrentQuery.Cli.Program
import TorrentQuery.Rpc.Client
import TorrentQuery.Rpc.Frame

namespace TorrentQuery

open Std.Async Std.Net

def lookAt (path : String) : IO (String × FileContent) := do
  try return (path, .text (← IO.FS.readFile path))
  catch
    | .noFileOrDirectory _ code details =>
      return (path, .missing (details ++ " (os error " ++ toString code ++ ")"))
    | e => return (path, .unreadable (toString e))

def lookAround (home : Option String) (env : Cli.Environment) (o : Cli.Options) : IO Files := do
  let settingsFiles ← (env.settingsFiles o).mapM lookAt
  let files := Files.ofList home settingsFiles
  match { env with files }.settings o with
  | .error _ => return files
  | .ok s => return Files.ofList home (settingsFiles ++ [← lookAt (files.expandHome s.daemonFile)])

def socketAddress (ip : IPAddr) (port : Nat) : SocketAddress :=
  match ip with
  | .v4 addr => .v4 ⟨addr, port.toUInt16⟩
  | .v6 addr => .v6 ⟨addr, port.toUInt16⟩

/-- Connects to the first of some addresses that answers. -/
def connectTo (port : Nat) : List IPAddr → Async TCP.Socket.Client
  | [] => throw (.userError "failed to lookup address information")
  | ip :: r => do
    try
      let client ← TCP.Socket.Client.mk
      client.connect (socketAddress ip port)
      return client
    catch e =>
      match r with
      | [] => throw e
      | r => connectTo port r

/-- All that comes from the other side until it closes. -/
partial def receiveAll (client : TCP.Socket.Client) (timeout : Nat) (received : ByteArray) :
    Async ByteArray := do
  let sleep ← Selector.sleep (.ofNat (1000 * timeout))
  let part ← Selectable.one #[
    .case (client.recvSelector 65536) fun part => pure (some part),
    .case sleep fun _ => pure none]
  match part with
  | some (some part) => receiveAll client timeout (received ++ part)
  | some none => return received
  | none => throw (.userError "Resource temporarily unavailable (os error 11)")

def exchangeBytes (host : String) (port timeout : Nat) (payload : Frame.Bytes) :
    Async Frame.Bytes := do
  let addresses ← DNS.getAddrInfo host (toString port)
  let client ← connectTo port addresses.toList
  client.send ⟨payload.toArray⟩
  return (← receiveAll client timeout .empty).toList

def bodyOf (response : Frame.Bytes) : Except DaemonError Frame.Bytes :=
  match Frame.readResponse response with
  | .error f => .error (.protocol f)
  | .ok (body, _) => .ok body

/-- Sends a message to an endpoint, and gets the answer. -/
def exchangeWith (endpoint : Endpoint) (timeout : Nat) (message : Json) :
    IO (Except DaemonError Frame.Bytes) := do
  match endpoint.transport with
  | .unix path =>
    match Endpoint.pathFault? path with
    | some f => return .error (.transport f)
    | none => return .error (.protocol (.noLocalSockets path))
  | .tcp address =>
    match Endpoint.hostAndPort address, timeout with
    | .error f, _ => return .error (.transport f)
    | .ok _, 0 => return .error (.transport .noTime)
    | .ok (host, port), timeout =>
      let payload :=
        Frame.request (Frame.bytesOf message.text) [("CONTENT_TYPE", "application/json")]
      try return bodyOf (← (exchangeBytes host port timeout payload).block)
      catch e => return .error (.transport (.system (toString e)))

def runPlan : Cli.Plan → IO Cli.Outcome
  | .finish outcome => return outcome
  | .converse endpoint timeout talk => do
    let (outcome, _) ← (Rpc.Client.converse (exchangeWith endpoint timeout) talk).run {}
    return outcome

def runWith (o : Cli.Options) : IO UInt32 := do
  let home ← IO.getEnv "HOME"
  let env : Cli.Environment :=
    { files := Files.ofList home []
      configFile := ← IO.getEnv "RTQ_CONF"
      configHome := ← IO.getEnv "XDG_CONFIG_HOME" }
  let files ← lookAround home env o
  let now := (← Std.Time.Timestamp.now).toMillisecondsSinceUnixEpoch.val
  let seconds : Float := Number.Scalar.ofInt now / 1000.0
  let outcome ← runPlan (Cli.plan { env with files } seconds o)
  IO.print outcome.printed
  match outcome.failure with
  | none => return 0
  | some f =>
    IO.eprint f.report
    return 1

end TorrentQuery

def main (args : List String) : IO UInt32 := do
  match TorrentQuery.Cli.Options.read args with
  | .ok o => TorrentQuery.runWith o
  | .error stop =>
    let (text, code) := stop.answer
    IO.print text
    if code != 0 then IO.eprintln "For more information, try '--help'."
    return code.toUInt32
