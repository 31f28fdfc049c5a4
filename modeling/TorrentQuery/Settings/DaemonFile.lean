import TorrentQuery.Json.Value
import TorrentQuery.Text.Blank
import TorrentQuery.Text.Category

namespace TorrentQuery.DaemonFile

open Text

/-- Texts by name, each with its last definition. -/
abbrev Definitions := List (String × String)

def Definitions.text (ds : Definitions) (name : List Char) : String :=
  ((ds.find? (·.1.toList = trim name)).map (·.2)).getD ""

def upTo? (stop : Char → Bool) (s : List Char) : Option (List Char × Char × List Char) :=
  match s.dropWhile (!stop ·) with
  | c :: r => some (s.takeWhile (!stop ·), c, r)
  | [] => none

/-- A literal in double quotes or a reference in parentheses at the start of a text. -/
def readPart? (ds : Definitions) : List Char → Option (String × List Char)
  | '"' :: r => (upTo? (· == '"') r).map fun (literal, _, r) => (String.ofList literal, r)
  | '(' :: r =>
    match upTo? (fun c => c == '(' || c == ')') r with
    | some (name, ')', r) => some (ds.text name, r)
    | _ => none
  | _ => none

/-- The literals and the referred texts in a list of arguments, one after the other; all else is left
out. The fuel bounds the characters. -/
def expandFrom (ds : Definitions) : Nat → List Char → String
  | 0, _ => ""
  | _, [] => ""
  | fuel + 1, c :: r =>
    match readPart? ds (c :: r) with
    | some (part, r) => part ++ expandFrom ds fuel r
    | none => expandFrom ds fuel r

def expand (ds : Definitions) (arguments : List Char) : String :=
  expandFrom ds arguments.length arguments

def concatenation? (s : List Char) : Option (List Char) :=
  (after? ['(', 'c', 'a', 't', ','] s).bind (before? [')'])

def isNameChar (c : Char) : Bool := c == '.' || isWordChar c

def definition? (s : List Char) : Option (String × List Char) := do
  let name := s.takeWhile isNameChar
  if name.isEmpty then none
  let r ← after? [','] (s.dropWhile isNameChar)
  let r ← after? "private|const|string,".toList (trimStart r)
  some (String.ofList name, ← concatenation? (trimStart r))

def portKeys : List String := ["network.scgi.open_port", "scgi_port"]

def localKeys : List String := ["network.scgi.open_local", "scgi_local"]

def evaluate (ds : Definitions) (key : String) (value : List Char) : String × Definitions :=
  match definition? value with
  | some (name, arguments) =>
    let text := expand ds arguments
    (text, Json.setMember name text ds)
  | none =>
    match if (portKeys ++ localKeys).contains key then concatenation? value else none with
    | some arguments => (expand ds arguments, ds)
    | none => (String.ofList value, ds)

/-- The keys and values of some lines. A line that ends with a backslash takes the next one along,
which is left out. -/
def entriesFrom (ds : Definitions) (continued : Bool) : List (List Char) → List (String × String)
  | [] => []
  | line :: r =>
    let goesOn := line.getLast? == some '\\'
    if continued || line.isEmpty || line.head? == some '#' then entriesFrom ds goesOn r
    else match splitOnce ['='] line with
      | none => entriesFrom ds goesOn r
      | some (key, value) =>
        let key := String.ofList (trim key)
        let (value, ds) := evaluate ds key (trim value)
        (key, value) :: entriesFrom ds goesOn r

def entries (content : String) : List (String × String) :=
  entriesFrom [] false ((lines content.toList).map trim)

/-- The last value under one of some keys, empty if there is none. -/
def lastOf (keys : List String) (entries : List (String × String)) : String :=
  ((entries.filter fun e => keys.contains e.1).getLast?.map (·.2)).getD ""

end TorrentQuery.DaemonFile
