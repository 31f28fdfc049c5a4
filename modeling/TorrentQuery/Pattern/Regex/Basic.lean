import TorrentQuery.Pattern.Regex.CharSet

namespace TorrentQuery

open Text

namespace Regex

inductive Place where
  | start
  | stop
  | lineStart (crlf : Bool)
  | lineStop (crlf : Bool)
  | wordBoundary (ascii : Bool)
  | noWordBoundary (ascii : Bool)
  | wordStart (ascii : Bool)
  | wordStop (ascii : Bool)
  | wordStartHalf (ascii : Bool)
  | wordStopHalf (ascii : Bool)
  deriving DecidableEq, Inhabited, Repr

def inWord (ascii : Bool) (c : Option Char) : Bool :=
  c.any (if ascii then CharSet.asciiWord else CharSet.word).mem

/-- Whether the place between two characters, one of which lacks at an end of the text, is so. -/
def Place.holds (before after : Option Char) : Place → Bool
  | start => before.isNone
  | stop => after.isNone
  | lineStart false => before.all (· == '\n')
  | lineStart true => before.all (· == '\n') || (before == some '\r' && after != some '\n')
  | lineStop false => after.all (· == '\n')
  | lineStop true => after.all (· == '\r') || (after == some '\n' && before != some '\r')
  | wordBoundary ascii => inWord ascii before != inWord ascii after
  | noWordBoundary ascii => inWord ascii before == inWord ascii after
  | wordStart ascii => !inWord ascii before && inWord ascii after
  | wordStop ascii => inWord ascii before && !inWord ascii after
  | wordStartHalf ascii => !inWord ascii before
  | wordStopHalf ascii => !inWord ascii after

end Regex

open Regex in
inductive Regex where
  | set (s : CharSet)
  | place (p : Place)
  | seq (parts : List Regex)
  | alt (branches : List Regex)
  /-- At least `least` times, and at most `most` times where that is given. -/
  | times (r : Regex) (least : Nat) (most : Option Nat)
  | group (r : Regex)
  deriving Inhabited, Repr

namespace Regex

/-- Members of both lists, those of the second that are new behind the first. -/
def merge (ps qs : List Nat) : List Nat := ps ++ qs.filter (!ps.contains ·)

/-- The places reached by up to `n` steps. -/
def reach (step : List Nat → List Nat) : (n : Nat) → (seen fresh : List Nat) → List Nat
  | 0, seen, _ => seen
  | n + 1, seen, fresh =>
    let next := (step fresh).filter (!seen.contains ·)
    if next.isEmpty then seen else reach step n (seen ++ next) next

def advance (step : List Nat → List Nat) : Nat → List Nat → List Nat
  | 0, ps => ps
  | n + 1, ps => advance step n (step ps)

mutual

/-- Where matches that start at one of the places can end. Repetitions beyond the length of the text
change nothing more. -/
def ends (text : Array Char) : Regex → List Nat → List Nat
  | .set s, ps => ps.filterMap fun p => if text[p]?.any s.mem then some (p + 1) else none
  | .place l, ps => ps.filter fun p => l.holds (if p = 0 then none else text[p - 1]?) text[p]?
  | .seq rs, ps => endsSeq text rs ps
  | .alt rs, ps => endsAlt text rs ps
  | .times r least most, ps =>
    let limit := text.size + 1
    let first := advance (ends text r) (min least limit) ps
    let more := match most with
      | some m => min (m - least) limit
      | none => limit
    reach (ends text r) more first first
  | .group r, ps => ends text r ps

def endsSeq (text : Array Char) : List Regex → List Nat → List Nat
  | [], ps => ps
  | r :: rs, ps => endsSeq text rs (ends text r ps)

def endsAlt (text : Array Char) : List Regex → List Nat → List Nat
  | [], _ => []
  | r :: rs, ps => merge (ends text r ps) (endsAlt text rs ps)

end

def isMatch (r : Regex) (text : String) : Bool :=
  let cs := text.toList.toArray
  !(ends cs r (List.range (cs.size + 1))).isEmpty

mutual

def depth : Regex → Nat
  | .set _ | .place _ => 0
  | .seq rs => if rs.length ≤ 1 then depthOfAll rs else depthOfAll rs + 1
  | .alt rs => depthOfAll rs + 1
  | .times r _ _ => r.depth + 1
  | .group r => r.depth + 1

def depthOfAll : List Regex → Nat
  | [] => 0
  | r :: rs => max r.depth (depthOfAll rs)

end

mutual

/-- Bytes that the expression takes with its repetitions written out, by estimate. -/
def weight : Regex → Nat
  | .set s => s.weight + 32
  | .place _ => 32
  | .seq rs => weightOfAll rs
  | .alt rs => weightOfAll rs + 64
  | .times r least most => r.weight * max 1 (max least (most.getD 0)) + 64
  | .group r => r.weight + 64

def weightOfAll : List Regex → Nat
  | [] => 0
  | r :: rs => r.weight + weightOfAll rs

end

def depthLimit : Nat := 250

def weightLimit : Nat := 10 * 1048576

def fits (r : Regex) : Bool := r.depth ≤ depthLimit && r.weight ≤ weightLimit

end Regex

end TorrentQuery
