import TorrentQuery.Rpc.Message

namespace TorrentQuery.Rpc

/-- A client numbers its calls, whatever comes of them. How a message gets to the daemon and its
answer back is up to the `exchange` that it is given. -/
structure Client where
  nextId : Nat := 1
  deriving Repr

namespace Client

variable {m : Type → Type} [Monad m] {β : Type} [Reply β]

def call (exchange : Json → m (Except DaemonError β)) (r : Request) :
    StateT Client m Answer := do
  let id := (← get).nextId
  set (⟨id + 1⟩ : Client)
  let reply ← exchange (requestToJson id r)
  return reply.bind fun b => readAnswer id r.method (Reply.bytes b)

/-- Makes several calls at once. Nothing is sent if there are none. -/
def batch (exchange : Json → m (Except DaemonError β)) (rs : List Request) :
    StateT Client m Answers := do
  if rs.isEmpty then return .ok []
  else
    let reply ← exchange (batchToJson rs)
    return reply.bind fun b => readAnswers rs.length (Reply.bytes b)

def converse {α : Type} (exchange : Json → m (Except DaemonError β)) (d : Dialogue α) :
    StateT Client m α :=
  d.run (call exchange) (batch exchange)

end Client

end TorrentQuery.Rpc
