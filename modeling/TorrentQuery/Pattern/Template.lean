import TorrentQuery.Text.Category

namespace TorrentQuery.Template

open Text

inductive Piece where
  | text (s : String)
  | field (name : String)
  deriving DecidableEq, Repr

def name? (s : List Char) : Option (String × List Char) :=
  let name := s.takeWhile isWordChar
  match name, trimStart (s.dropWhile isWordChar) with
  | _ :: _, '\x7d' :: '\x7d' :: r => some (String.ofList name, r)
  | _, _ => none

def placeholder? (s : List Char) : Option (String × List Char) :=
  match trimStart s with
  | 'd' :: '.' :: r => (name? r).or (name? ('d' :: '.' :: r))
  | r => name? r

/-- Pieces of a value after the characters `run`, which belong to no placeholder. The fuel bounds the
characters read. -/
def piecesFrom : Nat → List Char → List Char → List Piece
  | 0, run, s => [.text (String.ofList (run ++ s))]
  | _, run, [] => [.text (String.ofList run)]
  | fuel + 1, run, c :: r =>
    match c, r with
    | '\x7b', '\x7b' :: t =>
      match placeholder? t with
      | some (name, rest) => .text (String.ofList run) :: .field name :: piecesFrom fuel [] rest
      | none => piecesFrom fuel (run ++ [c]) r
    | _, _ => piecesFrom fuel (run ++ [c]) r

def pieces (s : String) : List Piece := piecesFrom s.length [] s.toList

end TorrentQuery.Template
