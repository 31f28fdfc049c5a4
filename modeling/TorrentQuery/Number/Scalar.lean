import TorrentQuery.Number.Binary

namespace TorrentQuery.Number

class Scalar (α : Type) extends Add α, Sub α, Mul α, Div α, BEq α, LT α, LE α where
  decLt : DecidableLT α
  decLe : DecidableLE α
  ofInt : Int → α
  /-- Neither infinite nor undefined. -/
  finite : α → Bool
  /-- Finite, with nothing behind the point. -/
  whole : α → Bool
  /-- Greatest integer that is not larger, clamped to 64 bits. -/
  floor64 : α → Int
  /-- Least integer that is not smaller, clamped to 64 bits. -/
  ceil64 : α → Int
  /-- The integer part, clamped to 64 bits; zero for what is no number. -/
  trunc64 : α → Int
  read? : String → Option α
  render : α → String

attribute [reducible, instance] Scalar.decLt Scalar.decLe

namespace Scalar

variable {α : Type} [Scalar α]

def zero : α := ofInt 0

def min (x y : α) : α := if y < x then y else x

def max (x y : α) : α := if x < y then y else x

end Scalar

@[default_instance]
instance : Scalar Float where
  decLt := inferInstance
  decLe := inferInstance
  ofInt n := Binary.nearest (n < 0) n.natAbs 1
  finite x := x.isFinite
  whole x := x.isFinite && x.floor == x
  floor64 x := x.floor.toInt64.toInt
  ceil64 x := x.ceil.toInt64.toInt
  trunc64 x := x.toInt64.toInt
  read? := readFloat?
  render := renderFloat

end TorrentQuery.Number
