import TorrentQuery.Text.Split

namespace TorrentQuery

open Text

inductive Arg where
  /-- Written as it is. -/
  | raw (s : String)
  /-- Written between double quotes. -/
  | str (s : String)
  deriving DecidableEq, Inhabited, Repr

inductive Command where
  | call (name : String) (args : List Arg)
  | not (c : Command)
  | and (cs : List Command)
  | or (cs : List Command)
  deriving Inhabited, Repr

def escapeChars : List Char → List Char
  | [] => []
  | c :: r => if c == '\\' || c == '"' then '\\' :: c :: escapeChars r else c :: escapeChars r

def escape (s : String) : String := String.ofList (escapeChars s.toList)

def Arg.render : Arg → String
  | .raw s => s
  | .str s => "\"" ++ escape s ++ "\""

namespace Command

def nest (text : String) : String := "\"$" ++ escape text ++ "\""

def render : Command → String
  | .call name args => name ++ "=" ++ joinWith "," (args.map Arg.render)
  | .not c => "not=" ++ nest c.render
  | .and cs => "and=\x7b" ++ joinWith "," (renderAll cs) ++ "\x7d"
  | .or cs => "or=\x7b" ++ joinWith "," (renderAll cs) ++ "\x7d"
where
  renderAll : List Command → List String
    | [] => []
    | c :: r => nest c.render :: renderAll r

/-- The negated command; two negations cancel. -/
def negate : Command → Command
  | .not c => c
  | c => .not c

def contains (key needle : String) : Command :=
  .call "string.contains_i" [.raw ("$" ++ key), .str needle]

def empty (key : String) : Command := .call "equal" [.raw key, .raw "cat="]

/-- Whether the answer to `key`, an integer, stands in a relation to `n`. -/
def compare (relation key : String) (n : Int) : Command :=
  .call relation [.raw key, .raw ("value=" ++ toString n)]

/-- Whether the answer to `key`, read as an integer, stands in a relation to `n`. -/
def compareValue (relation key : String) (n : Int) : Command :=
  .call relation [.raw ("value=$" ++ key), .raw ("value=" ++ toString n)]

mutual

def calls : Command → List String
  | .call name _ => [name]
  | .not c => c.calls
  | .and cs => callsOfAll cs
  | .or cs => callsOfAll cs

def callsOfAll : List Command → List String
  | [] => []
  | c :: r => c.calls ++ callsOfAll r

end

end Command

end TorrentQuery
