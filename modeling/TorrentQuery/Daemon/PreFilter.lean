import TorrentQuery.Daemon.Command
import TorrentQuery.Number.Bounded
import TorrentQuery.Text.Blank

namespace TorrentQuery

open Number Text

/-- How much is left to the daemon. -/
inductive Level where
  | off
  /-- At most one elementary condition. -/
  | safe
  /-- All that can be expressed. -/
  | aggressive
  deriving DecidableEq, Inhabited, Repr

inductive LevelError where
  | unreadable (text : String)
  | unknown (level : Nat)
  deriving DecidableEq, Repr

def LevelError.message : LevelError → String
  | .unreadable text => "Invalid fast-query level '" ++ text ++ "' (expected 0, 1 or 2)"
  | .unknown level => "Invalid fast-query level " ++ toString level ++ " (expected 0, 1 or 2)"

namespace Level

def render : Level → String
  | .off => "0"
  | .safe => "1"
  | .aggressive => "2"

def ofNumber : Nat → Except LevelError Level
  | 0 => .ok .off
  | 1 => .ok .safe
  | 2 => .ok .aggressive
  | n => .error (.unknown n)

def read (s : String) : Except LevelError Level :=
  match readNat 255 (trim s.toList) with
  | .ok n => ofNumber n
  | .error _ => .error (.unreadable s)

end Level

structure PreFilter where
  command : Command
  exact : Bool
  deriving Inhabited, Repr

namespace PreFilter

def render (p : PreFilter) : String := p.command.render

def ofExact (c : Command) : PreFilter := ⟨c, true⟩

def ofSuperset (c : Command) : PreFilter := ⟨c, false⟩

def negate (p : PreFilter) : Option PreFilter :=
  if p.exact then some ⟨p.command.negate, true⟩ else none

/-- Several conditions as one; a single condition stays as it is. -/
def combine (join : List Command → Command) : List PreFilter → Option PreFilter
  | [] => none
  | [p] => some p
  | ps => some ⟨join (ps.map (·.command)), ps.all (·.exact)⟩

def allOf (ps : List PreFilter) : Option PreFilter := combine .and ps

def anyOf (ps : List PreFilter) : Option PreFilter := combine .or ps

/-- The condition that a text contains a needle. Only ASCII needles can be sent. -/
def containsNeedle (key needle : String) : Option PreFilter :=
  if !needle.isEmpty && needle.toList.all (·.val < 128) then
    some (.ofSuperset (.contains key needle))
  else none

end PreFilter

end TorrentQuery
