import TorrentQuery.Number.Bounded

namespace TorrentQuery.TimeSpan

open Number

/-- Letters of the units with their lengths in seconds; years have 365 days and months 30. -/
def units : List (Char × Nat) :=
  [('y', 365 * 86400), ('M', 30 * 86400), ('w', 7 * 86400), ('d', 86400), ('h', 3600), ('m', 60),
    ('s', 1)]

/-- Reads amounts of the units and adds them up; no number on the way may leave 64 bits. -/
def readFrom (total : Nat) : List (Char × Nat) → List Char → Option Nat
  | [], s => if s.isEmpty then some total else none
  | (unit, seconds) :: us, s =>
    match s.takeWhile Char.isDigit, s.dropWhile Char.isDigit with
    | d :: ds, c :: r =>
      if c = unit then
        let n := ofDigits (d :: ds)
        if n ≤ maxInt64 ∧ n * seconds ≤ maxInt64 ∧ total + n * seconds ≤ maxInt64 then
          readFrom (total + n * seconds) us r
        else none
      else readFrom total us s
    | _, _ => readFrom total us s

def read? (s : List Char) : Option Nat := if s.isEmpty then none else readFrom 0 units s

end TorrentQuery.TimeSpan
