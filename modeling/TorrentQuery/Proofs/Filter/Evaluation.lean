import TorrentQuery.Filter.Matcher
import TorrentQuery.Proofs.Settled

namespace TorrentQuery

open Number

/-- Work that comes to the same as a computation without a state. -/
def Follows {m : Type → Type} [Monad m] {σ ε ε' α : Type} (R : Runner m σ) (w : ExceptT ε m α)
    (x : Except ε' α) : Prop := Settled R w x.toOption

namespace Follows

variable {m : Type → Type} [Monad m] {σ ε ε' α β : Type} {R : Runner m σ}

protected theorem pure (a : α) : Follows R (pure a : ExceptT ε m α) (pure a : Except ε' α) :=
  Settled.pure a

protected theorem throw (e : ε) (e' : ε') :
    Follows R (throw e : ExceptT ε m α) (throw e' : Except ε' α) := Settled.throw e

protected theorem bind {w : ExceptT ε m α} {f : α → ExceptT ε m β} {x : Except ε' α}
    {g : α → Except ε' β} (hw : Follows R w x) (hf : ∀ a, Follows R (f a) (g a)) :
    Follows R (w >>= f) (x >>= g) := by
  have hbind : (x >>= g).toOption = x.toOption.bind fun a => (g a).toOption := by
    cases x <;> rfl
  rw [Follows, hbind]
  exact Settled.bind hw fun a _ => hf a

end Follows

variable {m : Type → Type} [Monad m] {σ α : Type} [Scalar α] {R : Runner m σ}
  {read : String → ExceptT QueryError m (Value α)} {told : String → Except QueryError (Value α)}

theorem Operator.follows_apply (op : Operator) {eq gt : ExceptT QueryError m Bool}
    {eq' gt' : Except QueryError Bool} (heq : Follows R eq eq') (hgt : Follows R gt gt') :
    Follows R (op.apply eq gt) (op.apply eq' gt') := by
  cases op with
  | eq => exact heq
  | ne => exact heq.bind fun _ => Follows.pure _
  | gt => exact hgt
  | ge =>
    apply heq.bind
    intro b
    split
    · exact Follows.pure _
    · exact hgt
  | le | lt =>
    apply heq.bind
    intro b
    split
    · exact Follows.pure _
    · exact hgt.bind fun _ => Follows.pure _

namespace Test

variable (hread : ∀ name, Follows R (read name) (told name))

include hread

theorem follows_fillIn (pieces : List Template.Piece) :
    Follows R (fillIn read pieces) (fillIn told pieces) := by
  induction pieces with
  | nil => exact Follows.pure _
  | cons piece pieces ih =>
    cases piece with
    | text s => exact ih.bind fun _ => Follows.pure _
    | field name => exact (hread name).bind fun v => ih.bind fun _ => Follows.pure _

theorem follows_matchesPattern (p : Pattern) (text : String) :
    Follows R (matchesPattern read p text) (matchesPattern told p text) := by
  cases p with
  | template pieces => exact (follows_fillIn hread pieces).bind fun _ => Follows.pure _
  | _ => exact Follows.pure _

theorem follows_equal (test : Test α) (v : Value α) :
    Follows R (test.equal read v) (test.equal told v) := by
  cases test with
  | pattern p => exact follows_matchesPattern hread p _
  | _ => exact Follows.pure _

end Test

theorem Filter.follows_eval (hread : ∀ name, Follows R (read name) (told name)) (f : Filter α) :
    Follows R (f.eval read) (f.eval told) := by
  obtain ⟨field, operator, effective, value, test⟩ := f
  have hequal := (hread field.name).bind fun v => test.follows_equal hread v
  cases test with
  | time | duration =>
    apply (hread field.name).bind
    intro v
    dsimp only
    split <;> exact Follows.pure _
  | number | size =>
    exact Operator.follows_apply _ hequal ((hread field.name).bind fun v => Follows.pure _)
  | flag | tags | pattern | files =>
    exact Operator.follows_apply _ hequal (Follows.throw _ _)

namespace Matcher

mutual

theorem follows_eval (hread : ∀ name, Follows R (read name) (told name)) :
    (n : Matcher α) → Follows R (n.eval read) (n.eval told)
  | .leaf f => by
    simp only [eval]
    exact f.follows_eval hread
  | .all ms => by
    simp only [eval]
    exact follows_evalAll hread ms
  | .any ms => by
    simp only [eval]
    exact follows_evalAny hread ms
  | .group invert n => by
    simp only [eval]
    exact (follows_eval hread n).bind fun _ => Follows.pure _

theorem follows_evalAll (hread : ∀ name, Follows R (read name) (told name)) :
    (ms : List (Matcher α)) → Follows R (evalAll read ms) (evalAll told ms)
  | [] => by
    simp only [evalAll]
    exact Follows.pure _
  | n :: ms => by
    simp only [evalAll]
    apply (follows_eval hread n).bind
    intro b
    split
    · exact follows_evalAll hread ms
    · exact Follows.pure _

theorem follows_evalAny (hread : ∀ name, Follows R (read name) (told name)) :
    (ms : List (Matcher α)) → Follows R (evalAny read ms) (evalAny told ms)
  | [] => by
    simp only [evalAny]
    exact Follows.pure _
  | n :: ms => by
    simp only [evalAny]
    apply (follows_eval hread n).bind
    intro b
    split
    · exact Follows.pure _
    · exact follows_evalAny hread ms

end

end Matcher

end TorrentQuery
