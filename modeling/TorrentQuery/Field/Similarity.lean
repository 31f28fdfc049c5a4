import TorrentQuery.Number.Scalar

namespace TorrentQuery.Similarity

/-- Marks the first unmarked `c` among the places from `lo` up to `hi`. -/
def claim? (c : Char) : (lo hi : Nat) → List (Char × Bool) → Option (List (Char × Bool))
  | _, 0, _ => none
  | _, _, [] => none
  | lo + 1, hi + 1, p :: r => (claim? c lo hi r).map (p :: ·)
  | 0, hi + 1, (d, marked) :: r =>
    if c = d && !marked then some ((d, true) :: r)
    else (claim? c 0 hi r).map ((d, marked) :: ·)

/-- Pairs off the characters that stand no more than `range` places apart, those of the first text in
order: the characters of the first text that found a partner, and the second text with marks. -/
def pairs (range : Nat) : (place : Nat) → List Char → List (Char × Bool) →
    List Char × List (Char × Bool)
  | _, [], b => ([], b)
  | i, c :: r, b =>
    match claim? c (i - range) (i + range + 1) b with
    | some b =>
      let (found, b) := pairs range (i + 1) r b
      (c :: found, b)
    | none => pairs range (i + 1) r b

def jaro (a b : List Char) : Float :=
  if a.isEmpty && b.isEmpty then 1.0
  else
    let (found, marked) := pairs (max a.length b.length / 2 - 1) 0 a (b.map (·, false))
    let partners := (marked.filter (·.2)).map (·.1)
    let moved := ((found.zip partners).filter fun (x, y) => x != y).length / 2
    let float (n : Nat) : Float := Number.Scalar.ofInt n
    let m := float found.length
    if found.isEmpty then 0.0
    else (m / float a.length + m / float b.length + float (found.length - moved) / m) / 3.0

def jaroWinkler (a b : List Char) : Float :=
  let similarity := jaro a b
  if 0.7 < similarity then
    let common := (((a.take 4).zip b).takeWhile fun (x, y) => x == y).length
    similarity + 0.1 * Number.Scalar.ofInt common * (1.0 - similarity)
  else similarity

/-- The candidate most like a text, the last of several, if it is more than four fifths like it. -/
def closest? (text : String) (candidates : List String) : Option String :=
  let best := candidates.foldl (fun (best : Option (Float × String)) candidate =>
    let score := jaroWinkler text.toList candidate.toList
    if 0.8 < score && best.all (·.1 ≤ score) then some (score, candidate) else best) none
  best.map (·.2)

end TorrentQuery.Similarity
