import TorrentQuery.Number.Binary
import TorrentQuery.Number.Bounded
import TorrentQuery.Number.Hex
import TorrentQuery.Text.Split
import TorrentQuery.Toml.Value

namespace TorrentQuery.Toml

open Number Text

def skipBlanks (s : List Char) : List Char := s.dropWhile fun c => c == ' ' || c == '\t'

def unifyLines : List Char → List Char
  | '\r' :: '\n' :: r => '\n' :: unifyLines r
  | c :: r => c :: unifyLines r
  | [] => []

/-- Characters that stand for themselves on a line: a tab, and all that are no control characters. -/
def isPlain (c : Char) : Bool := c == '\t' || (32 ≤ c.val && c.val != 127)

def skipComment (s : List Char) : List Char :=
  match s with
  | '#' :: r => r.dropWhile isPlain
  | r => r

def endOfLine? (s : List Char) : Option (List Char) :=
  match skipComment (skipBlanks s) with
  | [] => some []
  | r => after? ['\n'] r

/-- Skips blanks, comments and line ends within an array. The fuel bounds the lines. -/
def skipLines : Nat → List Char → List Char
  | 0, s => s
  | fuel + 1, s =>
    let s := skipBlanks s
    match after? ['\n'] (skipComment s) with
    | some r => skipLines fuel r
    | none => s

def readCode (digits : Nat) (s : List Char) : Option (Char × List Char) := do
  if s.length < digits then none
  let c ← hexChar? (s.take digits)
  some (c, s.drop digits)

/-- The character that an escape stands for, of which the backslash has been read. -/
def readEscape : List Char → Option (Char × List Char)
  | 'b' :: r => some ('\x08', r)
  | 't' :: r => some ('\t', r)
  | 'n' :: r => some ('\n', r)
  | 'f' :: r => some ('\x0c', r)
  | 'r' :: r => some ('\r', r)
  | '"' :: r => some ('"', r)
  | '\\' :: r => some ('\\', r)
  | 'u' :: r => readCode 4 r
  | 'U' :: r => readCode 8 r
  | _ => none

/-- The rest of a string on one line, up to its closing quote. There are escapes between double quotes
only. The fuel bounds the characters. -/
def readQuoted (quote : Char) : Nat → List Char → Option (List Char × List Char)
  | 0, _ => none
  | _ + 1, [] => none
  | fuel + 1, c :: r =>
    if c == quote then some ([], r)
    else do
      let (c, r) ←
        if c == '\\' && quote == '"' then readEscape r
        else if isPlain c then some (c, r)
        else none
      let (cs, r) ← readQuoted quote fuel r
      some (c :: cs, r)

/-- Skips the end of a line behind a backslash, and all blanks and line ends that follow. -/
def skipLineEnd? (s : List Char) : Option (List Char) :=
  (after? ['\n'] (skipBlanks s)).map fun r => r.dropWhile fun c => c == ' ' || c == '\t' || c == '\n'

/-- The rest of a string between triple quotes. Up to two quotes may stand before the closing ones. -/
def readLong (quote : Char) : Nat → List Char → Option (List Char × List Char)
  | 0, _ => none
  | fuel + 1, s =>
    let quotes := (s.takeWhile (· == quote)).length
    if 3 ≤ quotes then
      if quotes ≤ 5 then some (List.replicate (quotes - 3) quote, s.drop quotes) else none
    else
      match s with
      | [] => none
      | c :: r =>
        match if c == '\\' && quote == '"' then skipLineEnd? r else none with
        | some r => readLong quote fuel r
        | none => do
          let (c, r) ←
            if c == '\\' && quote == '"' then readEscape r
            else if c == '\n' || isPlain c then some (c, r)
            else none
          let (cs, r) ← readLong quote fuel r
          some (c :: cs, r)

/-- A string, which starts with a quote. The first line of a string between triple quotes may be
empty. -/
def readString (s : List Char) : Option (List Char × List Char) :=
  match s with
  | a :: b :: c :: r =>
    if a == b && b == c then readLong a (r.length + 1) ((after? ['\n'] r).getD r)
    else readQuoted a s.length (b :: c :: r)
  | [a, b] => if a == b then some ([], []) else none
  | _ => none

def isBare (c : Char) : Bool := c.isAlphanum || c == '-' || c == '_'

def readKeyPart (s : List Char) : Option (String × List Char) :=
  match s with
  | [] => none
  | c :: r =>
    if c == '"' || c == '\'' then
      (readQuoted c s.length r).map fun (cs, r) => (String.ofList cs, r)
    else if isBare c then some (String.ofList (s.takeWhile isBare), s.dropWhile isBare)
    else none

/-- The parts of a key. The fuel bounds their number. -/
def readKey : Nat → List Char → Option (List String × List Char)
  | 0, _ => none
  | fuel + 1, s => do
    let (part, r) ← readKeyPart (skipBlanks s)
    match skipBlanks r with
    | '.' :: r => do
      let (parts, r) ← readKey fuel r
      some (part :: parts, r)
    | r => some ([part], r)

def readPath (s : List Char) : Option (List String × String × List Char) := do
  let (parts, r) ← readKey 79 s
  some (parts.dropLast, ← parts.getLast?, r)

def digitsOf? (isDigit : Char → Bool) (s : List Char) : Option (List Char) :=
  let runs := splitWhere (· == '_') s
  if runs.all fun r => !r.isEmpty && r.all isDigit then some runs.flatten else none

/-- Digits of a decimal integer, which does not start with a zero if there are more. -/
def decimalDigits? (s : List Char) : Option (List Char) :=
  (digitsOf? Char.isDigit s).filter fun ds => ds.head? != some '0' || ds.length == 1

def unsigned (s : List Char) : List Char :=
  match s with
  | '+' :: r => r
  | '-' :: r => r
  | r => r

def isNegative (s : List Char) : Bool := s.head? == some '-'

def integer? (n : Nat) : Option Toml := if n ≤ maxInt64 then some (.int n) else none

def basedInteger? (base : Nat) (isDigit : Char → Bool) (s : List Char) : Option Toml := do
  let ds ← digitsOf? isDigit s
  let n ← ds.foldlM (fun n c => (hexValue? c).map (base * n + ·)) 0
  integer? n

def decimalInteger? (s : List Char) : Option Toml := do
  let ds ← decimalDigits? (unsigned s)
  if isNegative s then
    if ofDigits ds ≤ maxInt64 + 1 then some (.int (-(ofDigits ds))) else none
  else integer? (ofDigits ds)

def readInteger (s : List Char) : Option Toml :=
  match s with
  | '0' :: 'x' :: r => basedInteger? 16 isHexDigit r
  | '0' :: 'o' :: r => basedInteger? 8 (fun c => '0' ≤ c && c ≤ '7') r
  | '0' :: 'b' :: r => basedInteger? 2 (fun c => c == '0' || c == '1') r
  | s => decimalInteger? s

/-- Whether a text without its sign is a number with a fraction, an exponent or both. -/
def isFraction (s : List Char) : Bool :=
  let mantissa := s.takeWhile fun c => c != 'e' && c != 'E'
  let exponent := s.drop (mantissa.length + 1)
  let whole := mantissa.takeWhile (· != '.')
  let fraction := mantissa.drop (whole.length + 1)
  let isDigits (s : List Char) : Bool := (digitsOf? Char.isDigit s).isSome
  (decimalDigits? whole).isSome && whole.length < s.length &&
    (whole.length == mantissa.length || isDigits fraction) &&
    (mantissa.length == s.length || isDigits (unsigned exponent))

/-- A number in floating point. One that is too large is refused. -/
def readFloat (s : List Char) : Option Toml := do
  let sign (x : Float) : Float := if isNegative s then -x else x
  match unsigned s with
  | ['i', 'n', 'f'] => some (.float (sign (1.0 / 0.0)))
  | ['n', 'a', 'n'] => some (.float (sign (0.0 / 0.0)))
  | r =>
    if isFraction r then
      let x ← readFloat? (String.ofList (s.filter (· != '_')))
      if x.isInf && !isNegative s then none else some (.float x)
    else none

def field? (width low high : Nat) (s : List Char) : Option (Nat × List Char) :=
  let ds := s.take width
  if ds.length = width && ds.all Char.isDigit && low ≤ ofDigits ds && ofDigits ds ≤ high then
    some (ofDigits ds, s.drop width)
  else none

def daysIn (year month : Nat) : Nat :=
  if month = 2 then if year % 4 = 0 && (year % 100 != 0 || year % 400 = 0) then 29 else 28
  else if [4, 6, 9, 11].contains month then 30
  else 31

def afterDate? (s : List Char) : Option (List Char) := do
  let (year, r) ← field? 4 0 9999 s
  let (month, r) ← field? 2 1 12 (← after? ['-'] r)
  let (_, r) ← field? 2 1 (daysIn year month) (← after? ['-'] r)
  some r

def afterTime? (s : List Char) : Option (List Char) := do
  let (_, r) ← field? 2 0 23 s
  let (_, r) ← field? 2 0 59 (← after? [':'] r)
  let (_, r) ← field? 2 0 60 (← after? [':'] r)
  match r with
  | '.' :: c :: r => if c.isDigit then some (r.dropWhile Char.isDigit) else none
  | r => some r

def isOffset (s : List Char) : Bool :=
  match s with
  | [] => true
  | ['Z'] | ['z'] => true
  | c :: r =>
    (c == '+' || c == '-') && ((do
      let (_, r) ← field? 2 0 23 r
      let (_, r) ← field? 2 0 59 (← after? [':'] r)
      some r.isEmpty).getD false)

def isTime (s : List Char) : Bool := afterTime? s == some []

def isTimeWithOffset (s : List Char) : Bool := (afterTime? s).any isOffset

/-- A date, a time, or a date and a time with or without a distance from universal time. -/
def readMoment (s : List Char) : Option Toml :=
  let found := match afterDate? s with
    | some [] => true
    | some (c :: r) => (c == 'T' || c == 't' || c == ' ') && isTimeWithOffset r
    | none => isTime s
  if found then some (.moment (String.ofList s)) else none

def isWordPart (c : Char) : Bool := isBare c || c == '+' || c == '.' || c == ':'

/-- The longest word at the start of a text. A date can go on behind a space. -/
def wordAt (s : List Char) : List Char × List Char :=
  let word := s.takeWhile isWordPart
  match s.dropWhile isWordPart with
  | ' ' :: c :: r =>
    if c.isDigit && afterDate? word == some [] then
      (word ++ ' ' :: (c :: r).takeWhile isWordPart, (c :: r).dropWhile isWordPart)
    else (word, ' ' :: c :: r)
  | r => (word, r)

def readWord (word : List Char) : Option Toml :=
  match String.ofList word with
  | "true" => some (.bool true)
  | "false" => some (.bool false)
  | _ => (readMoment word).or ((readInteger word).or (readFloat word))

mutual

def readValue : (fuel depth : Nat) → List Char → Option (Toml × List Char)
  | 0, _, _ => none
  | fuel + 1, depth, s =>
    match s, depth with
    | '[' :: r, depth + 1 =>
      (readItems fuel depth r).map fun (items, r) => (.array items, r)
    | '\x7b' :: r, depth + 1 =>
      match skipBlanks r with
      | '\x7d' :: r => some (.table .inline [], r)
      | r => readMembers fuel depth (.table .inline []) r
    | c :: r, _ =>
      if c == '"' || c == '\'' then
        (readString (c :: r)).map fun (cs, r) => (.str (String.ofList cs), r)
      else do
        let (word, r) := wordAt (c :: r)
        some (← readWord word, r)
    | [], _ => none

/-- Items of an array with its closing bracket. A comma may stand behind the last. -/
def readItems : (fuel depth : Nat) → List Char → Option (List Toml × List Char)
  | 0, _, _ => none
  | fuel + 1, depth, s =>
    match skipLines s.length s with
    | ']' :: r => some ([], r)
    | s => do
      let (v, r) ← readValue fuel depth s
      match skipLines r.length r with
      | ',' :: r =>
        let (items, r) ← readItems fuel depth r
        some (v :: items, r)
      | ']' :: r => some ([v], r)
      | _ => none

/-- Members of a table in braces, with the closing brace, entered into those read before. -/
def readMembers : (fuel depth : Nat) → Toml → List Char → Option (Toml × List Char)
  | 0, _, _, _ => none
  | fuel + 1, depth, t, s => do
    let (path, key, r) ← readPath s
    let (v, r) ← readValue fuel depth (skipBlanks (← after? ['='] r))
    let t ← t.enter path key v
    match skipBlanks r with
    | ',' :: r => readMembers fuel depth t r
    | '\x7d' :: r => some (t, r)
    | _ => none

end

/-- Reads the lines of a document into a table, of which a header has opened some part. The fuel
bounds the lines. -/
def readLines : Nat → List String → Toml → List Char → Option Toml
  | 0, _, _, _ => none
  | fuel + 1, header, t, s =>
    match skipBlanks s with
    | [] => some t
    | '[' :: '[' :: r => do
      let (path, key, r) ← readPath r
      let r ← endOfLine? (← after? [']'] (← after? [']'] r))
      readLines fuel (path ++ [key]) (← t.openNext path key) r
    | '[' :: r => do
      let (path, key, r) ← readPath r
      let r ← endOfLine? (← after? [']'] r)
      readLines fuel (path ++ [key]) (← t.openTable path key) r
    | s =>
      match endOfLine? s with
      | some r => readLines fuel header t r
      | none => do
        let (path, key, r) ← readPath s
        let (v, r) ← readValue (2 * r.length + 2) 79 (skipBlanks (← after? ['='] r))
        readLines fuel header (← t.enterBelow header path key v) (← endOfLine? r)

/-- The document that a text denotes. A mark of byte order may stand in front. -/
def read? (s : String) : Option Toml :=
  let s := unifyLines ((after? ['\uFEFF'] s.toList).getD s.toList)
  readLines (s.length + 1) [] (.table .header []) s

end TorrentQuery.Toml
