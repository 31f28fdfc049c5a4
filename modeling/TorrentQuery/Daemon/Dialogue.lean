import TorrentQuery.Daemon.Error

namespace TorrentQuery

structure Request where
  method : String
  params : List Json
  deriving Inhabited, Repr

abbrev Answer := Except DaemonError Json

abbrev Answers := Except DaemonError (List Json)

inductive Dialogue (α : Type) where
  | done (a : α)
  | call (request : Request) (next : Answer → Dialogue α)
  /-- Several calls at once, which fail together. -/
  | batch (requests : List Request) (next : Answers → Dialogue α)

namespace Dialogue

variable {α β γ : Type}

protected def bind (f : α → Dialogue β) : Dialogue α → Dialogue β
  | .done a => f a
  | .call r next => .call r fun x => (next x).bind f
  | .batch rs next => .batch rs fun x => (next x).bind f

instance : Monad Dialogue where
  pure := .done
  bind d f := d.bind f

theorem bind_done (d : Dialogue α) : d.bind .done = d := by
  induction d with
  | done a => rfl
  | call r next ih => simp [Dialogue.bind, ih]
  | batch rs next ih => simp [Dialogue.bind, ih]

theorem bind_bind (d : Dialogue α) (f : α → Dialogue β) (g : β → Dialogue γ) :
    (d.bind f).bind g = d.bind fun a => (f a).bind g := by
  induction d with
  | done a => rfl
  | call r next ih => simp [Dialogue.bind, ih]
  | batch rs next ih => simp [Dialogue.bind, ih]

instance : LawfulMonad Dialogue :=
  .mk' Dialogue bind_done (fun _ _ => rfl) bind_bind

def ask (r : Request) : Dialogue Answer := .call r .done

def askAll (rs : List Request) : Dialogue Answers := .batch rs .done

def run {m : Type → Type} [Monad m] (call : Request → m Answer) (batch : List Request → m Answers) :
    Dialogue α → m α
  | .done a => pure a
  | .call r next => do (next (← call r)).run call batch
  | .batch rs next => do (next (← batch rs)).run call batch

end Dialogue

end TorrentQuery
