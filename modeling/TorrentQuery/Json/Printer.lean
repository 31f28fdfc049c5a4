import TorrentQuery.Json.Value

namespace TorrentQuery.Json

open Number Text

/-- A number with at least one digit on each side of its point. Powers of ten from `10 ^ -5` up to
`10 ^ 16` are written out, others have an exponent with its sign. -/
def numberText (d : Decimal) : String :=
  let ds := Nat.toDigits 10 d.digits
  let order : Int := ds.length + d.exponent
  let body :=
    if d.digits = 0 then "0.0".toList
    else if 0 ≤ d.exponent && order ≤ 16 then
      ds ++ List.replicate d.exponent.toNat '0' ++ ['.', '0']
    else if 0 < order && order ≤ 16 then ds.take order.toNat ++ '.' :: ds.drop order.toNat
    else if -5 < order && order ≤ 0 then '0' :: '.' :: (List.replicate order.natAbs '0' ++ ds)
    else
      let point := if ds.length = 1 then [] else ['.']
      let sign := if 0 < order then ['+'] else []
      ds.take 1 ++ point ++ ds.drop 1 ++ 'e' :: (sign ++ (toString (order - 1)).toList)
  String.ofList (if d.negative then '-' :: body else body)

def floatText (x : Float) : String :=
  match Binary.ofFloat? x with
  | some b => numberText (b.shortest .even)
  | none => "null"

def hex4 (n : Nat) : List Char :=
  let ds := Nat.toDigits 16 n
  List.replicate (4 - ds.length) '0' ++ ds

def escapedChar (c : Char) : List Char :=
  match c with
  | '"' => ['\\', '"']
  | '\\' => ['\\', '\\']
  | '\n' => ['\\', 'n']
  | '\r' => ['\\', 'r']
  | '\t' => ['\\', 't']
  | '\x08' => ['\\', 'b']
  | '\x0c' => ['\\', 'f']
  | c => if c.val < 32 then ['\\', 'u'] ++ hex4 c.toNat else [c]

def stringText (s : String) : String :=
  String.ofList ('"' :: s.toList.flatMap escapedChar ++ ['"'])

def text : Json → String
  | .null => "null"
  | .bool b => if b then "true" else "false"
  | .int n => toString n
  | .float x => floatText x
  | .str s => stringText s
  | .arr items => "[" ++ joinWith "," (itemTexts items) ++ "]"
  | .obj members => "\x7b" ++ joinWith "," (memberTexts members) ++ "\x7d"
where
  itemTexts : List Json → List String
    | [] => []
    | j :: r => j.text :: itemTexts r
  memberTexts : List (String × Json) → List String
    | [] => []
    | (k, j) :: r => (stringText k ++ ":" ++ j.text) :: memberTexts r

def shown : Json → String
  | .null => "Null"
  | .bool b => "Bool(" ++ (if b then "true" else "false") ++ ")"
  | .int n => "Number(" ++ toString n ++ ")"
  | .float x => "Number(" ++ floatText x ++ ")"
  | .str s => "String(" ++ quoted s ++ ")"
  | .arr items => "Array [" ++ joinWith ", " (shownItems items) ++ "]"
  | .obj members => "Object \x7b" ++ joinWith ", " (shownMembers members) ++ "\x7d"
where
  shownItems : List Json → List String
    | [] => []
    | j :: r => j.shown :: shownItems r
  shownMembers : List (String × Json) → List String
    | [] => []
    | (k, j) :: r => (quoted k ++ ": " ++ j.shown) :: shownMembers r

end TorrentQuery.Json
