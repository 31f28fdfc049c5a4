import TorrentQuery.Text.Split

namespace TorrentQuery.Cli

open Text

/-- A failure with what lies behind it, the nearest cause first. -/
structure Failure where
  message : String
  causes : List String := []
  deriving Repr

namespace Failure

def ofTexts (texts : List String) : Failure := ⟨texts.headD "", texts.drop 1⟩

/-- The text with some blanks in front, and others in front of its lines behind the first. -/
def indented (first others text : String) : String :=
  first ++ joinWith ("\n" ++ others) ((splitWhere (· == '\n') text.toList).map String.ofList)

def numbered (n : Nat) : List String → List String
  | [] => []
  | c :: r =>
    let number := toString n
    let first := String.ofList (List.replicate (5 - number.length) ' ') ++ number ++ ": "
    indented first "       " c :: numbered (n + 1) r

/-- The report. A single cause has no number. -/
def report (f : Failure) : String :=
  let causes := match f.causes with
    | [c] => [indented "    " "    " c]
    | cs => numbered 0 cs
  let heading := if causes.isEmpty then [] else ["", "Caused by:"]
  joinWith "\n" (("Error: " ++ f.message) :: heading ++ causes) ++ "\n"

end Failure

end TorrentQuery.Cli
