import TorrentQuery.Daemon.Dialogue
import TorrentQuery.Json.Reader
import TorrentQuery.Number.Bounded

namespace TorrentQuery.Rpc

open Number Text

/-- The parameters as they are sent. The daemon wants at least one. -/
def sentParams (r : Request) : List Json := if r.params.isEmpty then [.str ""] else r.params

def requestToJson (id : Nat) (r : Request) : Json :=
  .obj [("jsonrpc", .str "2.0"), ("method", .str r.method), ("params", .arr (sentParams r)),
    ("id", .int id)]

def batchItems (id : Nat) : List Request → List Json
  | [] => []
  | r :: rs => requestToJson id r :: batchItems (id + 1) rs

def batchToJson (rs : List Request) : Json := .arr (batchItems 0 rs)

class Reply (β : Type) where
  bytes : β → List UInt8

instance : Reply (List UInt8) := ⟨id⟩

instance : Reply String := ⟨fun s => s.toUTF8.toList⟩

structure ErrorObject where
  code : Option Int
  message : Option String
  deriving Repr

structure Response where
  id : Option Json
  result : Option Json
  error : Option ErrorObject
  deriving Repr

/-- The value of a member that may be missing or null, but not be there twice. -/
def member? (key : String) (members : List (String × Json)) : Option (Option Json) :=
  match members.filter (·.1 = key) with
  | [] => some none
  | [(_, .null)] => some none
  | [(_, j)] => some (some j)
  | _ => none

def optional : Json → Option Json
  | .null => none
  | j => some j

namespace ErrorObject

/-- Members of other names are passed over. -/
def shape : Json.Shape := .record [("code", .whole), ("message", .whole)]

def code? : Option Json → Option (Option Int)
  | none => some none
  | some (.int n) => if n ≤ maxInt64 then some (some n) else none
  | some _ => none

def message? : Option Json → Option (Option String)
  | none => some none
  | some (.str s) => some (some s)
  | some _ => none

def ofParts? (code message : Option Json) : Option ErrorObject := do
  some ⟨← code? code, ← message? message⟩

def ofJson? : Json → Option ErrorObject
  | .obj members => do ofParts? (← member? "code" members) (← member? "message" members)
  | .arr [code, message] => ofParts? (optional code) (optional message)
  | _ => none

def hashNotFoundMessage : String := "invalid parameters: info-hash not found"

def toError (e : ErrorObject) : DaemonError :=
  if e.message = some hashNotFoundMessage then .hashNotFound hashNotFoundMessage
  else .fault (e.code.getD (-500)) (e.message.getD "Received error without message")

end ErrorObject

namespace Response

def shape : Json.Shape :=
  .record [("id", .whole), ("result", .whole), ("error", ErrorObject.shape)]

def ofParts? (id result error : Option Json) : Option Response := do
  let error ← match error with
    | none => some none
    | some e => (ErrorObject.ofJson? e).map some
  some ⟨id.map Json.collapse, result.map Json.collapse, error⟩

/-- A response given by members, or by id, result and error in this order. -/
def ofJson? : Json → Option Response
  | .obj members => do
    ofParts? (← member? "id" members) (← member? "result" members) (← member? "error" members)
  | .arr [id, result, error] => ofParts? (optional id) (optional result) (optional error)
  | _ => none

def read? (reply : List UInt8) : Option Response := (Json.readAs? shape reply).bind ofJson?

def readAll? (reply : List UInt8) : Option (List Response) :=
  match Json.readAs? (.items shape) reply with
  | some (.arr items) => items.mapM ofJson?
  | _ => none

def number? (r : Response) : Option Nat :=
  match r.id with
  | some (.int n) => if 0 ≤ n then some n.toNat else none
  | some (.str s) => (readNat maxUInt64 s.toList).toOption
  | _ => none

end Response

def answer (id : Nat) (method : String) (r : Response) : Except DaemonError Json :=
  if r.number? != some id then .error (.protocol (.wrongId id r.id))
  else match r.error, r.result with
    | some e, _ => .error e.toError
    | none, some j => .ok j
    | none, none => .error (.protocol (.noResult method))

def readAnswer (id : Nat) (method : String) (reply : List UInt8) : Except DaemonError Json :=
  match Response.read? reply with
  | some r => answer id method r
  | none => .error (.protocol .invalidJson)

/-- Whether a response comes before another; those without a number come last. -/
def comesBefore (a b : Response) : Bool :=
  a.number?.getD maxUInt64 ≤ b.number?.getD maxUInt64

/-- Results and rejected calls among the responses from a place on, which must all be there. -/
def collect (place : Nat) : List Response → Except DaemonError (List Json × List DaemonError)
  | [] => .ok ([], [])
  | r :: rs =>
    if r.number? != some place then .error (.protocol (.missingResult place))
    else match r.error, r.result with
      | some e, _ => do
        let (results, faults) ← collect (place + 1) rs
        .ok (results, e.toError :: faults)
      | none, some j => do
        let (results, faults) ← collect (place + 1) rs
        .ok (j :: results, faults)
      | none, none => .error (.protocol (.noResultAt place))

/-- The texts in order, a text that follows itself only once. -/
def withoutRepeats : List String → List String
  | [] => []
  | s :: r =>
    match withoutRepeats r with
    | t :: ts => if s = t then t :: ts else s :: t :: ts
    | [] => [s]

/-- The answers to a batch from its responses in any order. Several rejected calls make one fault. -/
def answers (count : Nat) (rs : List Response) : Except DaemonError (List Json) :=
  if rs.length != count then .error (.protocol (.wrongCount count rs.length))
  else do
    let (results, faults) ← collect 0 (rs.mergeSort comesBefore)
    match faults with
    | [] => .ok results
    | [e] => .error e
    | es =>
      .error (.fault (-500) ("Errors in JSON-RPC batch call: " ++
        joinWith "; " (withoutRepeats (es.map DaemonError.message))))

def readAnswers (count : Nat) (reply : List UInt8) : Except DaemonError (List Json) :=
  match Response.readAll? reply with
  | some rs => answers count rs
  | none => .error (.protocol .invalidJson)

end TorrentQuery.Rpc
