import TorrentQuery.Number.Bounded

namespace TorrentQuery.Number

/-- The number `digits * 10 ^ exponent`, or its negative. -/
structure Decimal where
  negative : Bool
  digits : Nat
  exponent : Int
  deriving DecidableEq, Repr

namespace Decimal

def sign : List Char → Bool × List Char
  | '-' :: r => (true, r)
  | '+' :: r => (false, r)
  | s => (false, s)

/-- The exponent that a text behind `e` denotes; digits are required, a sign is optional. -/
def readExponent (s : List Char) : Option Int :=
  let (negative, ds) := sign s
  if ds.isEmpty || !ds.all Char.isDigit then none
  else some (if negative then -(ofDigits ds) else ofDigits ds)

def readUnsigned (negative : Bool) (s : List Char) : Option Decimal :=
  let whole := s.takeWhile Char.isDigit
  let (part, rest) := match s.dropWhile Char.isDigit with
    | '.' :: r => (r.takeWhile Char.isDigit, r.dropWhile Char.isDigit)
    | r => ([], r)
  if whole.isEmpty && part.isEmpty then none
  else
    let digits := ofDigits (whole ++ part)
    match rest with
    | [] => some ⟨negative, digits, -part.length⟩
    | e :: r =>
      if e == 'e' || e == 'E' then
        (readExponent r).map fun x => ⟨negative, digits, x - part.length⟩
      else none

def read? (s : List Char) : Option Decimal :=
  let (negative, rest) := sign s
  readUnsigned negative rest

/-- Digits of `n` without its trailing zeros, and how many those were. -/
def stripZeros (n : Nat) : Nat × Nat :=
  if _h : n ≠ 0 ∧ n % 10 = 0 then
    let (m, k) := stripZeros (n / 10)
    (m, k + 1)
  else (n, 0)
termination_by n
decreasing_by omega

/-- The decimal with no trailing zero among its digits. -/
def normalize (d : Decimal) : Decimal :=
  let (m, k) := stripZeros d.digits
  { d with digits := m, exponent := if m = 0 then 0 else d.exponent + k }

/-- Digits without an exponent: zeros are filled in on either side, and there is a point only where
digits follow it. -/
def plain (d : Decimal) : String :=
  let ds := Nat.toDigits 10 d.digits
  let body :=
    if 0 ≤ d.exponent then ds ++ List.replicate (if d.digits = 0 then 0 else d.exponent.toNat) '0'
    else
      let places := d.exponent.natAbs
      let ds := List.replicate (places + 1 - ds.length) '0' ++ ds
      ds.take (ds.length - places) ++ '.' :: ds.drop (ds.length - places)
  String.ofList (if d.negative then '-' :: body else body)

end Decimal

end TorrentQuery.Number
