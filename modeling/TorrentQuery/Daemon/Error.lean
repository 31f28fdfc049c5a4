import TorrentQuery.Json.Printer

namespace TorrentQuery

open Text

/-- How an answer, or the address of the daemon, fails to keep to the rules. -/
inductive ProtocolFault where
  | noDelimiter (length : Nat)
  | headNotText
  | badHead (head : String)
  | badLength (value : String)
  | wrongLength (expected actual : Nat)
  | notAnEndpoint (url : String)
  | unknownScheme (url : String)
  | noLocalSockets (path : String)
  | invalidJson
  | wrongId (sent : Nat) (received : Option Json)
  | noResult (method : String)
  | wrongCount (sent received : Nat)
  | missingResult (place : Nat)
  | noResultAt (place : Nat)
  | noMethodList (received : Json)
  | noItemList (method : String) (received : Json)
  | noHash
  /-- A fault that the other side has put into words. -/
  | other (message : String)
  deriving Repr

def ProtocolFault.message : ProtocolFault → String
  | .noDelimiter length => "No header delimiter in SCGI response of length " ++ toString length
  | .headNotText => "SCGI response headers are not valid UTF-8"
  | .badHead head => "Error in SCGI headers " ++ quoted head
  | .badLength value => "Bad Content-Length '" ++ value ++ "'"
  | .wrongLength expected actual =>
    "Content-Length is " ++ toString expected ++ " but the body has " ++ toString actual ++ " bytes"
  | .notAnEndpoint url => "Unsupported URL '" ++ url ++ "'"
  | .unknownScheme url => "Unsupported scheme in URL '" ++ url ++ "'"
  | .noLocalSockets path =>
    "Unix domain sockets are not supported on this platform (" ++ path ++ ")"
  | .invalidJson => "invalid JSON"
  | .wrongId sent received =>
    "RPC IDs do not match: sent=" ++ toString sent ++ " received=" ++
      received.elim "None" fun j => "Some(" ++ j.shown ++ ")"
  | .noResult method => "Result not found in response to '" ++ method ++ "'"
  | .wrongCount sent received =>
    "Sent " ++ toString sent ++ " calls but got " ++ toString received ++ " results"
  | .missingResult place => "Missing result for call #" ++ toString place ++ " in batch"
  | .noResultAt place => "Result not found for call #" ++ toString place ++ " in batch"
  | .noMethodList received => "Expected a method list, got " ++ received.text
  | .noItemList method received =>
    "Expected a list of items from " ++ method ++ ", got " ++ received.text
  | .noHash => "Item data without an info hash"
  | .other message => message

inductive TransportFault where
  | noPort
  | badPort
  | zeroByteInHost
  | zeroByteInPath
  | longPath
  | noTime
  /-- For a reason of the system's own. -/
  | system (reason : String)
  deriving DecidableEq, Repr

def TransportFault.message : TransportFault → String
  | .noPort => "invalid socket address"
  | .badPort => "invalid port value"
  | .zeroByteInHost => "file name contained an unexpected NUL byte"
  | .zeroByteInPath => "paths must not contain interior null bytes"
  | .longPath => "path must be shorter than SUN_LEN"
  | .noTime => "cannot set a 0 duration timeout"
  | .system reason => reason

inductive DaemonError where
  | transport (fault : TransportFault)
  | protocol (fault : ProtocolFault)
  /-- The daemon rejected a call. -/
  | fault (code : Int) (message : String)
  | hashNotFound (message : String)
  deriving Repr

def DaemonError.message : DaemonError → String
  | .transport f => "Transport error: " ++ f.message
  | .protocol f => "Protocol error: " ++ f.message
  | .fault code message => "RPC fault " ++ toString code ++ ": " ++ message
  | .hashNotFound message => "Info-hash not found: " ++ message

def DaemonError.causes : DaemonError → List String
  | .transport f => [f.message]
  | _ => []

end TorrentQuery
