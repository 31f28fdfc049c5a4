import TorrentQuery.Number.Decimal
import TorrentQuery.Number.Power

namespace TorrentQuery.Number

/-- A finite floating point number: `mantissa * 2 ^ exponent`, or its negative. -/
structure Binary where
  negative : Bool
  mantissa : Nat
  exponent : Int
  deriving DecidableEq, Repr

/-- Where a decimal lies halfway between two others: the upper one, or the one with an even digit. -/
inductive Tie where
  | up
  | even
  deriving DecidableEq, Repr

namespace Binary

def ofFloat? (x : Float) : Option Binary :=
  let bits := x.toBits.toNat
  let negative : Bool := bits / twoTo 63 == 1
  let field : Nat := bits / twoTo 52 % twoTo 11
  let low : Nat := bits % twoTo 52
  if field == 2047 then none
  else if field == 0 then some ⟨negative, low, -1074⟩
  else some ⟨negative, low + twoTo 52, (field : Int) - 1075⟩

/-- `num / den`, rounded to the nearest integer, halves to the even one. -/
def roundEven (num den : Nat) : Nat :=
  let q := num / den
  let r := num % den
  if den < 2 * r ∨ (2 * r = den ∧ q % 2 = 1) then q + 1 else q

/-- The largest `e` with `2 ^ e ≤ num / den`. -/
def log2Quotient (num den : Nat) : Int :=
  let e : Int := (num.log2 : Int) - den.log2
  if num * twoTo (-e).toNat < den * twoTo e.toNat then e - 1 else e

/-- Bits of the nearest number to `num / den`, halves to the even one; infinity past the largest. -/
def nearestBits (num den : Nat) : Nat :=
  if num = 0 then 0
  else
    let q := max (log2Quotient num den - 52) (-1074)
    let m := roundEven (num * twoTo (-q).toNat) (den * twoTo q.toNat)
    let (m, q) := if m = twoTo 53 then (twoTo 52, q + 1) else (m, q)
    if 971 < q then 2047 * twoTo 52
    else if m < twoTo 52 then m
    else (q + 1075).toNat * twoTo 52 + (m - twoTo 52)

def nearest (negative : Bool) (num den : Nat) : Float :=
  Float.ofBits (UInt64.ofNat (nearestBits num den + if negative then twoTo 63 else 0))

/-- The nearest floating point number to a decimal. Powers of ten that are out of reach are not
computed. -/
def nearestDecimal (d : Decimal) : Float :=
  let order := d.exponent + (Nat.toDigits 10 d.digits).length
  if d.digits = 0 || order < -330 then nearest d.negative 0 1
  else if 310 < order then nearest d.negative (twoTo 1024) 1
  else nearest d.negative (d.digits * tenTo d.exponent.toNat) (tenTo (-d.exponent).toNat)

/-- Number of decimal digits before the point; not positive for numbers below a tenth. -/
def decimalOrder (b : Binary) : Int :=
  let scaled := b.mantissa * twoTo b.exponent.toNat * tenTo 400 / twoTo (-b.exponent).toNat
  ((Nat.toDigits 10 scaled).length : Int) - 400

/-- The neighbour of `b` on the grid of multiples of `10 ^ k` that rounds to `b`; the nearer one, if
both do. Distances are measured in quarters of the last place of `b`. -/
def onGrid? (b : Binary) (tie : Tie) (k : Int) : Option Nat :=
  let unit := b.exponent - 2
  let grid := tenTo k.toNat * twoTo (-unit).toNat
  let scale := tenTo (-k).toNat * twoTo unit.toNat
  let value := 4 * b.mantissa * scale
  let below := if b.mantissa = twoTo 52 && -1074 < b.exponent then 1 else 2
  let low := (4 * b.mantissa - below) * scale
  let high := (4 * b.mantissa + 2) * scale
  let closed := b.mantissa % 2 = 0
  let a := value / grid
  let fits (n : Nat) : Bool := if closed then low ≤ n * grid && n * grid ≤ high
    else low < n * grid && n * grid < high
  let down := value - a * grid
  let up := (a + 1) * grid - value
  match 0 < a && fits a, fits (a + 1) with
  | true, true =>
    if down < up then some a
    else if up < down then some (a + 1)
    else match tie with
      | .up => some (a + 1)
      | .even => some (if a % 2 = 0 then a else a + 1)
  | true, false => some a
  | false, true => some (a + 1)
  | false, false => none

/-- The decimal with the fewest digits that reads back as `b`, and of those the nearest. -/
def shortest (b : Binary) (tie : Tie) : Decimal :=
  if b.mantissa = 0 then ⟨b.negative, 0, 0⟩
  else
    let order := b.decimalOrder
    let found := (List.range 17).findSome? fun n =>
      let k := order - (n + 1 : Nat)
      (b.onGrid? tie k).map fun a => Decimal.normalize ⟨b.negative, a, k⟩
    found.getD ⟨b.negative, 0, 0⟩

end Binary

def readFloat? (s : String) : Option Float :=
  let (negative, rest) := Decimal.sign s.toList
  match String.ofList (rest.map Char.toLower) with
  | "inf" | "infinity" => some (Binary.nearest negative (twoTo 1024) 1)
  | "nan" => some (0.0 / 0.0)
  | _ => (Decimal.readUnsigned negative rest).map Binary.nearestDecimal

def renderFloat (x : Float) : String :=
  match Binary.ofFloat? x with
  | some b => (b.shortest .up).plain
  | none => if x.isNaN then "NaN" else if x < 0 then "-inf" else "inf"

end TorrentQuery.Number
