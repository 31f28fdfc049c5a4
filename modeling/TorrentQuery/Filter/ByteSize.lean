import TorrentQuery.Number.Bounded
import TorrentQuery.Number.Power
import TorrentQuery.Query.Error

namespace TorrentQuery.ByteSize

open Number

/-- How far the reading of a number has got. Once the digits fill 64 bits, the number is cut. -/
inductive Stage where
  | empty
  | whole
  | cutWhole
  | fraction
  | cutFraction
  | power
  | negativePower
  deriving DecidableEq, Repr

/-- The digits read so far, the power of ten that goes with them, and the written exponent. -/
structure Draft where
  stage : Stage := .empty
  mantissa : Nat := 0
  scale : Int := 0
  exponent : Nat := 0
  deriving Repr

namespace Draft

/-- One more digit. A digit that does not fit any more rounds those before it. -/
def addDigit (d : Draft) (n : Nat) : Except SizeFault Draft :=
  let grown := 10 * d.mantissa + n
  let rounded := if 5 ≤ n then d.mantissa + 1 else d.mantissa
  let exponent := 10 * d.exponent + n
  match d.stage with
  | .empty | .whole =>
    if grown ≤ maxUInt64 then .ok { d with stage := .whole, mantissa := grown }
    else .ok { d with stage := .cutWhole, mantissa := rounded, scale := d.scale + 1 }
  | .cutWhole => .ok { d with scale := d.scale + 1 }
  | .fraction =>
    if grown ≤ maxUInt64 then .ok { d with mantissa := grown, scale := d.scale - 1 }
    else .ok { d with stage := .cutFraction, mantissa := rounded }
  | .cutFraction => .ok d
  | .power => if exponent ≤ maxUInt64 then .ok { d with exponent := exponent } else .error .tooLarge
  | .negativePower => if exponent ≤ maxUInt64 then .ok { d with exponent := exponent } else .ok d

def add (d : Draft) (c : Char) : Except SizeFault Draft :=
  match digitValue? c with
  | some n => d.addDigit n
  | none =>
    if c == '_' || c == ' ' then .ok d
    else match d.stage, c with
      | .whole, 'e' | .cutWhole, 'e' | .fraction, 'e' | .cutFraction, 'e'
      | .whole, 'E' | .cutWhole, 'E' | .fraction, 'E' | .cutFraction, 'E' =>
        .ok { d with stage := .power }
      | .power, '+' => .ok d
      | .power, '-' => .ok { d with stage := .negativePower }
      | .whole, '.' => .ok { d with stage := .fraction }
      | .cutWhole, '.' => .ok { d with stage := .cutFraction }
      | _, _ => .error .invalidDigit

/-- The number times the unit. Halves are rounded up. -/
def value (d : Draft) (unit : Nat) : Except SizeFault Nat :=
  let power := d.scale + (if d.stage = .negativePower then -(d.exponent : Int) else d.exponent)
  if d.stage = .empty then .error .empty
  else if 0 ≤ power then
    if 19 < power then .error .tooLarge
    else
      let factor := unit * tenTo power.toNat
      if maxUInt64 < factor || maxUInt64 < d.mantissa * factor then .error .tooLarge
      else .ok (d.mantissa * factor)
  else if -38 ≤ power then
    let divisor := tenTo power.natAbs
    let n := (d.mantissa * unit + divisor / 2) / divisor
    if maxUInt64 < n then .error .tooLarge else .ok n
  else .ok 0

end Draft

def unitOf? (c : Char) : Option Nat :=
  match c.toLower with
  | 'k' => some (twoTo 10)
  | 'm' => some (twoTo 20)
  | 'g' => some (twoTo 30)
  | 't' => some (twoTo 40)
  | 'p' => some (twoTo 50)
  | 'e' => some (twoTo 60)
  | _ => none

def dropLastIf (p : Char → Bool) (s : List Char) : List Char :=
  if s.getLast?.any p then s.dropLast else s

/-- The number and the unit of a written amount. The letters `iB` behind a unit may be left out. -/
def splitUnit (s : List Char) : List Char × Nat :=
  let s := dropLastIf (·.toLower == 'i') (dropLastIf (·.toLower == 'b') s)
  match s.getLast?.bind unitOf? with
  | some unit => (s.dropLast, unit)
  | none => (s, 1)

def read (s : List Char) : Except SizeFault Nat := do
  let (digits, unit) := splitUnit s
  let d ← digits.foldlM Draft.add {}
  d.value unit

end TorrentQuery.ByteSize
