import TorrentQuery.Daemon.Error
import TorrentQuery.Number.Bounded

namespace TorrentQuery.Frame

open Number Text

abbrev Bytes := List UInt8

def bytesOf (s : String) : Bytes := s.toUTF8.toList

def textOf? (bs : Bytes) : Option String := String.fromUTF8? ⟨bs.toArray⟩

/-- Data behind its length and a colon, with a comma at the end. -/
def netstring (data : Bytes) : Bytes :=
  bytesOf (toString data.length) ++ bytesOf ":" ++ data ++ bytesOf ","

def headerBytes (h : String × String) : Bytes := bytesOf h.1 ++ 0 :: (bytesOf h.2 ++ [0])

def headerBlock (headers : List (String × String)) : Bytes := headers.flatMap headerBytes

def requestHeaders (length : Nat) (headers : List (String × String)) : List (String × String) :=
  ("CONTENT_LENGTH", toString length) :: ("SCGI", "1") :: headers

def request (body : Bytes) (headers : List (String × String)) : Bytes :=
  netstring (headerBlock (requestHeaders body.length headers)) ++ body

def delimiter : Bytes := [13, 10, 13, 10]

/-- The headers of a response. A key that is repeated keeps its first place and gets its last value. -/
def readHead (head : String) : Except ProtocolFault (List (String × String)) :=
  (((lines head.toList).map trimEnd).filter (!·.isEmpty)).foldlM (fun acc line =>
    match splitOnce [':', ' '] line with
    | some (key, value) => .ok (Json.setMember (String.ofList key) (String.ofList value) acc)
    | none => .error (.badHead head)) []

/-- The length that the headers give for the body. -/
def contentLength (headers : List (String × String)) : Except ProtocolFault (Option Nat) :=
  match headers.find? (·.1 = "Content-Length") with
  | none => .ok none
  | some (_, value) =>
    match readNat maxUInt64 (trim value.toList) with
    | .ok n => .ok (some n)
    | .error _ => .error (.badLength value)

/-- Body and headers of a response. The body must be as long as the headers say. -/
def readResponse (response : Bytes) : Except ProtocolFault (Bytes × List (String × String)) := do
  match splitOnce delimiter response with
  | none => throw (.noDelimiter response.length)
  | some (head, body) =>
    match textOf? head with
    | none => throw .headNotText
    | some head =>
      let headers ← readHead head
      match ← contentLength headers with
      | some n => if n = body.length then return (body, headers) else throw (.wrongLength n body.length)
      | none => return (body, headers)

end TorrentQuery.Frame
