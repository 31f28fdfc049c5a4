import TorrentQuery.Daemon.Error
import TorrentQuery.Number.Bounded
import TorrentQuery.Text.Case

namespace TorrentQuery

open Number Text

inductive Transport where
  | tcp (address : String)
  | unix (path : String)
  deriving DecidableEq, Repr

structure Endpoint where
  url : String
  transport : Transport
  deriving DecidableEq, Repr

namespace Endpoint

def expandHome (home : Option String) (path : List Char) : List Char :=
  match path, home with
  | '~' :: r, some home => home.toList ++ r
  | _, _ => path

def endsWithPort (url : List Char) : Bool :=
  match splitLast ':' url with
  | some (_, port) => !port.isEmpty && port.all Char.isDigit
  | none => false

def normalize (home : Option String) (url : String) : String :=
  let cs := url.toList
  if !cs.contains '/' && endsWithPort cs then "scgi://" ++ url
  else if cs.head? == some '/' || cs.head? == some '~' then
    "scgi+unix://" ++ String.ofList (expandHome home cs)
  else url

/-- The endpoint of a URL; what follows a question mark is no part of the address. -/
def ofUrl (home : Option String) (url : String) : Except ProtocolFault Endpoint :=
  let url := normalize home url
  match splitOnce [':', '/', '/'] url.toList with
  | none => .error (.notAnEndpoint url)
  | some (scheme, rest) =>
    let target := rest.takeWhile (· != '?')
    match String.ofList (lower scheme), target.isEmpty with
    | "scgi", false =>
      .ok ⟨url, .tcp (String.ofList (target.reverse.dropWhile (· == '/')).reverse)⟩
    | "scgi+unix", false => .ok ⟨url, .unix (String.ofList (expandHome home target))⟩
    | _, _ => .error (.unknownScheme url)

def hostAndPort (address : String) : Except TransportFault (String × Nat) :=
  match splitLast ':' address.toList with
  | none => .error .noPort
  | some (host, port) =>
    match readNat maxUInt16 port with
    | .error _ => .error .badPort
    | .ok n => if host.contains '\x00' then .error .zeroByteInHost else .ok (String.ofList host, n)

/-- What is wrong with a path of a socket, which has room for 107 bytes. -/
def pathFault? (path : String) : Option TransportFault :=
  if path.toList.contains '\x00' then some .zeroByteInPath
  else if 107 < path.utf8ByteSize then some .longPath
  else none

end Endpoint

end TorrentQuery
