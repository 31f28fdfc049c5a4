import TorrentQuery.Text.Category

namespace TorrentQuery.Arguments

open Text

/-- The pattern value of an argument `field=/body/` or `field!=/body/`, with or without an `i` behind
it: what stands in front of the value, and the value. It is no pattern if it has line breaks. -/
def patternValue? (s : List Char) : Option (List Char × List Char) :=
  let word := s.takeWhile isWordChar
  let rest := s.dropWhile isWordChar
  let value? (front value : List Char) : Option (List Char × List Char) :=
    let body := (after? ['/'] value).bind fun v => (before? ['/', 'i'] v).or (before? ['/'] v)
    match body with
    | some b => if b.contains '\n' then none else some (front, value)
    | none => none
  match rest with
  | '=' :: v => value? (word ++ ['=']) v
  | '!' :: '=' :: v => value? (word ++ ['!', '=']) v
  | _ => none

def quote (arg : String) : String :=
  let s := arg.toList
  if !s.contains ' ' then arg
  else if !s.any (fun c => c == '=' || c == '>' || c == '<') && s.head? != some '"' then
    "\"" ++ arg ++ "\""
  else match patternValue? s with
    | some (front, value) => String.ofList (front ++ '"' :: value ++ ['"'])
    | none => arg

def join (args : List String) : String := joinWith " " (args.map quote)

end TorrentQuery.Arguments
