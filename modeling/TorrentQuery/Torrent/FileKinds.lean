import TorrentQuery.Number.Bounded
import TorrentQuery.Number.Scalar
import TorrentQuery.Text.Case

namespace TorrentQuery.FileKinds

open Number Text

def fileName? (path : String) : Option (List Char) :=
  match ((splitWhere (· == '/') path.toList).filter fun p => !p.isEmpty && p != ['.']).getLast? with
  | some name => if name = ['.', '.'] then none else some name
  | none => none

/-- What follows the last point of a file name, which must not start with that point. -/
def extension? (path : String) : Option (List Char) :=
  match (fileName? path).bind (splitLast '.') with
  | some (_ :: _, extension) => some extension
  | _ => none

/-- Extensions that stand for the same kind under one of them. -/
def normalize (extension : List Char) : String :=
  match lower extension with
  | 'r' :: d :: ds =>
    if (d :: ds).all Char.isDigit then "rar" else String.ofList ('r' :: d :: ds)
  | ['j', 'p', 'e', 'g'] => "jpg"
  | ['m', 'p', 'e', 'g'] => "mpg"
  | e => String.ofList e

def kindOf (path : String) : String := ((extension? path).map normalize).getD ""

/-- Adds a size to that of a kind. Sums wrap around, as integers of 64 bits do. -/
def addSize (kind : String) (size : Int) : List (String × Int) → List (String × Int)
  | [] => [(kind, wrap64 size)]
  | (k, n) :: r => if k = kind then (k, wrap64 (n + size)) :: r else (k, n) :: addSize kind size r

def sizes (files : List (String × Int)) : List (String × Int) :=
  files.foldl (fun acc f => addSize (kindOf f.1) f.2 acc) []

/-- A share in percent, rounded, but half a percent down. -/
def percent (α : Type) [Scalar α] (size total : Int) : Nat :=
  let amount (n : Int) : α := Scalar.ofInt n
  if total ≤ 0 then 0
  else
    let share := amount size * amount 100 / amount total + amount 499 / amount 1000
    min (Scalar.trunc64 share).toNat maxUInt32

/-- Whether an entry goes before another: larger shares first, later letters first. -/
def goesBefore (a b : Nat × String) : Bool := b.1 < a.1 || (a.1 == b.1 && b.2 ≤ a.2)

def histogram {α : Type} [Scalar α] (files : List (String × Int)) : List (Nat × String) :=
  let all := sizes files
  let total := (all.map (·.2)).foldl (fun m n => wrap64 (m + n)) 0
  (all.map fun (kind, size) => (percent α size total, kind)).mergeSort goesBefore

/-- Reads shares from a text such as `80%_flac 20%_jpg`; other words are skipped. -/
def readHistogram (s : String) : List (Nat × String) :=
  (words s.toList).filterMap fun w =>
    match splitOnce ['%', '_'] w with
    | some (n, kind) =>
      match readNat maxUInt32 n with
      | .ok n => some (n, String.ofList kind)
      | .error _ => none
    | none => none

def atLeast (limit : Nat) (shares : List (Nat × String)) : List String :=
  (shares.filter fun (n, kind) => !kind.isEmpty && limit ≤ n).map (·.2)

end TorrentQuery.FileKinds
