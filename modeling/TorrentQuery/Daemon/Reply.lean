import TorrentQuery.Field.TextSet
import TorrentQuery.Json.Printer
import TorrentQuery.Number.Bounded

namespace TorrentQuery.Json

open Number Text

def asText : Json → String
  | .null => ""
  | .str s => s
  | .bool b => if b then "1" else "0"
  | j => j.text

/-- The integer that a text denotes, fractions cut off; zero if it denotes none. -/
def integerOfText (s : String) : Int :=
  let s := trimmed s
  match readInt64 s with
  | .ok n => n
  | .error _ => ((readFloat? s).map Scalar.trunc64).getD 0

/-- The answer as an integer of 64 bits, zero if it is none. -/
def asInteger : Json → Int
  | .int n => clamp64 n
  | .float x => Scalar.trunc64 x
  | .str s => integerOfText s
  | .bool b => if b then 1 else 0
  | _ => 0

/-- The rows of a list; what is no row is a row of its own. -/
def asRows : Json → List (List Json)
  | .arr rows => rows.map fun
    | .arr columns => columns
    | j => [j]
  | _ => []

/-- The texts of a list, or the words of a text. -/
def asTextSet : Json → TextSet
  | .arr items => .ofList ((items.map asText).filter (!·.isEmpty))
  | j => .ofList (wordsOf j.asText)

end TorrentQuery.Json
