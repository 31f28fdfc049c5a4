import TorrentQuery.Number.Bounded
import TorrentQuery.Text.Case

namespace TorrentQuery.Release

open Number Text

def videoExtensions : List String :=
  ["avi", "mkv", "m4v", "vob", "mp4", "mpg", "mpeg", "m2ts", "ts", "ogv", "wmv"]

def screenSizes : List String := ["480p", "576p", "720p", "1080p", "1080i", "2160p"]

def sources : List String :=
  ["HDTV", "PDTV", "DSR", "WEB-DL", "WEB.DL", "WEBRip", "Blu-ray", "Bluray", "BDRip", "BRRip",
    "HDRip", "DVDRip"]

def isSeparator (c : Char) : Bool := c == '.' || c == '_' || c == ' '

/-- Whether a name can end here, or go on with a separator and a rest on the same line. -/
def endsOrGoesOn : List Char → Bool
  | [] => true
  | c :: r => (isSeparator c || c == '-') && !r.contains '\n'

def digits? (least most : Nat) (s : List Char) : Option (List Char × List Char) :=
  let ds := s.takeWhile isDecimalDigit
  if least ≤ ds.length && ds.length ≤ most then some (ds, s.dropWhile isDecimalDigit) else none

def sameLetter (c d : Char) : Bool := foldChar c == foldChar d

def episode? (letter : Char) (season : List Char) : List Char → Option (List Char × List Char)
  | c :: r =>
    if sameLetter c letter then
      match digits? 2 3 r with
      | some (episode, rest) => if endsOrGoesOn rest then some (season, episode) else none
      | none => none
    else none
  | [] => none

/-- Season and episode of a mark such as `S01E02` or `1x02`, if the text starts with one. -/
def episodeMark? (s : List Char) : Option (List Char × List Char) :=
  let long := match s with
    | c :: r =>
      if sameLetter c 'S' then (digits? 1 2 r).bind fun (season, r) => episode? 'E' season r
      else none
    | [] => none
  long.or ((digits? 1 2 s).bind fun (season, r) => episode? 'x' season r)

def yearMark? (s : List Char) : Option (List Char) :=
  let s := if s.head?.any fun c => c == '[' || c == '(' then s.drop 1 else s
  match s with
  | a :: b :: c :: d :: r =>
    let r := if r.head?.any fun c => c == ']' || c == ')' then r.drop 1 else r
    if ((a == '1' && b == '9') || (a == '2' && b == '0')) && isDecimalDigit c &&
        isDecimalDigit d && endsOrGoesOn r then some [a, b, c, d]
    else none
  | _ => none

/-- The first mark behind a separator, and the title before it. Characters of the title so far are in
`title`, of which there must be one; a title does not go over a line break. -/
def findMark {α : Type} (mark? : List Char → Option α) (title : List Char) :
    List Char → Option (List Char × α)
  | [] => none
  | c :: r =>
    match if !title.isEmpty && isSeparator c then mark? r else none with
    | some m => some (title, m)
    | none => if c == '\n' then none else findMark mark? (title ++ [c]) r

/-- Whether a place between two characters, which may lack, is at the edge of a word. -/
def isEdge (before after : Option Char) : Bool := before.any isWordChar != after.any isWordChar

def spelled? : (word s : List Char) → Option (List Char × List Char)
  | [], s => some ([], s)
  | w :: ws, c :: r =>
    if sameLetter w c then (spelled? ws r).map fun (a, b) => (c :: a, b) else none
  | _ :: _, [] => none

def wordHere? (ws : List String) (s : List Char) : Option (List Char) :=
  ws.findSome? fun w =>
    (spelled? w.toList s).bind fun (found, rest) =>
      if isEdge found.getLast? rest.head? then some found else none

/-- The first place where one of the words stands by itself; the words are tried in order there. -/
def findWord (ws : List String) (before : Option Char) : List Char → Option (List Char)
  | [] => none
  | c :: r =>
    match if isEdge before (some c) then wordHere? ws (c :: r) else none with
    | some found => some found
    | none => findWord ws (some c) r

def cleanTitle (s : List Char) : String :=
  String.ofList (trim (s.map fun c => if isSeparator c then ' ' else c))

def plainNumber (s : List Char) : String :=
  if s.all Char.isDigit then toString (ofDigits s) else String.ofList s

def group? (s : List Char) : Option (List Char) :=
  match splitLast '-' s with
  | some (_, c :: r) => if (c :: r).all Char.isAlphanum then some (c :: r) else none
  | _ => none

/-- A name without the extension of a video file, and that extension. -/
def splitContainer (s : List Char) : List Char × Option String :=
  match splitLast '.' s with
  | some (stem, extension) =>
    let e := String.ofList (lower extension)
    if videoExtensions.contains e then (stem, some e) else (s, none)
  | none => (s, none)

def titleProperties (stem : List Char) : List (String × String) :=
  match findMark episodeMark? [] stem, findMark yearMark? [] stem with
  | some (title, season, episode), _ =>
    [("title", cleanTitle title), ("season", plainNumber season), ("episode", plainNumber episode),
      ("type", "episode")]
  | none, some (title, year) =>
    [("title", cleanTitle title), ("year", String.ofList year), ("type", "movie")]
  | none, none => [("title", cleanTitle stem)]

def properties (name : String) : List (String × String) :=
  let (stem, container) := splitContainer (trim name.toList)
  let optional (key : String) (value : Option String) : List (String × String) :=
    value.toList.map (key, ·)
  (optional "container" container ++ titleProperties stem ++
    optional "screen_size" ((findWord screenSizes none stem).map fun w => String.ofList (lower w)) ++
    optional "source" ((findWord sources none stem).map String.ofList) ++
    optional "release_group" ((group? stem).map String.ofList)).filter (!·.2.isEmpty)

def property (name key : String) : String :=
  (((properties name).find? (·.1 = key)).map (·.2)).getD ""

end TorrentQuery.Release
