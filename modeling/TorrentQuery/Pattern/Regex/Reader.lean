import TorrentQuery.Number.Bounded
import TorrentQuery.Number.Hex
import TorrentQuery.Pattern.Regex.Basic

namespace TorrentQuery.Regex

open Number Text

structure Flags where
  ignoreCase : Bool := true
  multiLine : Bool := false
  dotAll : Bool := false
  ascii : Bool := false
  crlf : Bool := false
  /-- Blanks and comments in the expression are skipped. -/
  spaced : Bool := false
  deriving DecidableEq, Repr

namespace Flags

/-- Switches one flag. That of greed has no influence on where an expression matches. -/
def set? (f : Flags) (on : Bool) : Char → Option Flags
  | 'i' => some { f with ignoreCase := on }
  | 'm' => some { f with multiLine := on }
  | 's' => some { f with dotAll := on }
  | 'u' => some { f with ascii := !on }
  | 'R' => some { f with crlf := on }
  | 'x' => some { f with spaced := on }
  | 'U' => some f
  | _ => none

/-- Switches the flags of a group; those behind a hyphen are turned off. No flag and no hyphen may
come twice, and a hyphen may not come last. -/
def setAll? (on : Bool) (f : Flags) (seen : List Char) : List Char → Option Flags
  | [] => if seen.head? == some '-' then none else some f
  | c :: r =>
    if seen.contains c then none
    else if c == '-' then setAll? false f (c :: seen) r
    else (f.set? on c).bind fun f => setAll? on f (c :: seen) r

def skip (f : Flags) (s : List Char) : List Char :=
  if f.spaced then skipFrom false s else s
where
  skipFrom (inComment : Bool) : List Char → List Char
    | [] => []
    | c :: r =>
      if inComment then skipFrom (c != '\n') r
      else if c == '#' then skipFrom true r
      else if isBlank c then skipFrom false r
      else c :: r

end Flags

inductive Escape where
  /-- A character; `byte` if it was given by the two digits of a byte. -/
  | char (c : Char) (byte : Bool)
  | set (s : CharSet)
  | place (p : Place)

/-- A character given by its code point, in braces or in a fixed number of digits. -/
def readHex (f : Flags) (width : Nat) (s : List Char) : Option (Escape × List Char) :=
  match f.skip s with
  | '\x7b' :: r =>
    let body := r.takeWhile (· != '\x7d')
    match r.dropWhile (· != '\x7d') with
    | [] => none
    | _ :: rest =>
      let ds := if f.spaced then body.filter (!isBlank ·) else body
      (hexChar? ds).map fun c => (.char c false, rest)
  | r => do
    let (ds, rest) ← digits width r
    let c ← hexChar? ds
    some (.char c (width = 2), rest)
where
  digits : Nat → List Char → Option (List Char × List Char)
    | 0, r => some ([], r)
    | n + 1, r =>
      match f.skip r with
      | [] => none
      | c :: r => (digits n r).map fun (ds, rest) => (c :: ds, rest)

variable (lib : Library)

def readProperty (f : Flags) (negated : Bool) (s : List Char) : Option (CharSet × List Char) := do
  let close (set : CharSet) (negated : Bool) : CharSet :=
    let set := if f.ignoreCase then .folded set else set
    if negated then .inverse set else set
  if f.ascii then none
  else match f.skip s with
    | '\x7b' :: r =>
      let body := r.takeWhile (· != '\x7d')
      match r.dropWhile (· != '\x7d') with
      | [] => none
      | _ :: rest =>
        let named (sep : List Char) : Option (CharSet) :=
          (splitOnce sep body).bind fun (name, value) =>
            lib.valued? (String.ofList name) (String.ofList value)
        if occursIn ['!', '='] body then
          (named ['!', '=']).map fun set => (close set !negated, rest)
        else if body.contains ':' then (named [':']).map fun set => (close set negated, rest)
        else if body.contains '=' then (named ['=']).map fun set => (close set negated, rest)
        else (lib.named? (String.ofList body)).map fun set => (close set negated, rest)
    | c :: r => (lib.named? (String.ofList [c])).map fun set => (close set negated, r)
    | [] => none

/-- A class of one letter. Its complement reaches beyond ASCII and is refused in ASCII mode. -/
def classOf? (f : Flags) : Char → Option CharSet
  | 'd' => some (if f.ascii then .asciiDigit else .digit)
  | 's' => some (if f.ascii then .asciiBlank else .blank)
  | 'w' => some (if f.ascii then .asciiWord else .word)
  | 'D' => if f.ascii then none else some (.inverse .digit)
  | 'S' => if f.ascii then none else some (.inverse .blank)
  | 'W' => if f.ascii then none else some (.inverse .word)
  | _ => none

def isBoundaryNameChar (c : Char) : Bool := c.isAlpha || c == '-'

/-- A boundary of words, after the letter `b`: a name for a special one may follow in braces. -/
def readBoundary (f : Flags) (s : List Char) : Option (Place × List Char) :=
  match s with
  | '\x7b' :: r =>
    match f.skip r with
    | [] => none
    | c :: t =>
      if isBoundaryNameChar c then
        let name := (c :: t).takeWhile isBoundaryNameChar
        match (c :: t).dropWhile isBoundaryNameChar with
        | '\x7d' :: rest =>
          match String.ofList name with
          | "start" => some (.wordStart f.ascii, rest)
          | "end" => some (.wordStop f.ascii, rest)
          | "start-half" => some (.wordStartHalf f.ascii, rest)
          | "end-half" => some (.wordStopHalf f.ascii, rest)
          | _ => none
        | _ => none
      else some (.wordBoundary f.ascii, s)
  | _ => some (.wordBoundary f.ascii, s)

def readEscape (f : Flags) : List Char → Option (Escape × List Char)
  | [] => none
  | c :: r =>
    match c with
    | 'x' => readHex f 2 r
    | 'u' => readHex f 4 r
    | 'U' => readHex f 8 r
    | 'p' => (readProperty lib f false r).map fun (s, r) => (.set s, r)
    | 'P' => (readProperty lib f true r).map fun (s, r) => (.set s, r)
    | 'a' => some (.char '\x07' false, r)
    | 'f' => some (.char '\x0c' false, r)
    | 't' => some (.char '\t' false, r)
    | 'n' => some (.char '\n' false, r)
    | 'r' => some (.char '\r' false, r)
    | 'v' => some (.char '\x0b' false, r)
    | 'A' => some (.place .start, r)
    | 'z' => some (.place .stop, r)
    | 'b' => (readBoundary f r).map fun (p, r) => (.place p, r)
    | 'B' => some (.place (.noWordBoundary f.ascii), r)
    | '<' => some (.place (.wordStart f.ascii), r)
    | '>' => some (.place (.wordStop f.ascii), r)
    | c =>
      if c.val < 128 && !c.isAlphanum then some (.char c false, r)
      else (classOf? f c).map fun s => (.set s, r)

inductive SetOp where
  | inter
  | diff
  | symmetricDiff

/-- Both sides of an operation are closed under change of case first. -/
def SetOp.apply (f : Flags) (op : SetOp) (s t : CharSet) : CharSet :=
  let close (s : CharSet) : CharSet :=
    if !f.ignoreCase then s else if f.ascii then .asciiFolded s else .folded s
  match op with
  | .inter => .inter (close s) (close t)
  | .diff => .diff (close s) (close t)
  | .symmetricDiff => .symmetricDiff (close s) (close t)

/-- What has been read of a set: an operation that waits for its right side, and the members since. -/
structure SetDraft where
  pending : Option (SetOp × CharSet) := none
  members : CharSet := .empty

namespace SetDraft

def add (d : SetDraft) (s : CharSet) : SetDraft := { d with members := .union d.members s }

def value (f : Flags) (d : SetDraft) : CharSet :=
  match d.pending with
  | some (op, left) => op.apply f left d.members
  | none => d.members

def operate (f : Flags) (d : SetDraft) (op : SetOp) : SetDraft := ⟨some (op, d.value f), .empty⟩

end SetDraft

/-- A set that has been read, closed under change of case and then complemented. -/
def closeSet? (f : Flags) (negated : Bool) (s : CharSet) : Option CharSet :=
  if f.ascii then
    if negated then none else some (if f.ignoreCase then .asciiFolded s else s)
  else
    let s := if f.ignoreCase then .folded s else s
    some (if negated then .inverse s else s)

def readMember (f : Flags) : List Char → Option (Escape × List Char)
  | [] => none
  | '\\' :: r => readEscape lib f r
  | c :: r => some (.char c false, r)

/-- The set of an escape, where it stands for one. In ASCII mode characters beyond are refused. -/
def setOf? (f : Flags) : Escape → Option CharSet
  | .char c _ => if f.ascii && 128 ≤ c.val then none else some (.single c)
  | .set s => some s
  | .place _ => none

def readSpan (f : Flags) (s : List Char) : Option (CharSet × List Char) := do
  let (first, r) ← readMember lib f s
  let alone : Option (CharSet × List Char) := (setOf? f first).map fun s => (s, f.skip r)
  match f.skip r with
  | [] => none
  | '-' :: t =>
    match f.skip t with
    | [] => none
    | c :: _ =>
      if c == ']' || c == '-' then alone
      else do
        let (last, rest) ← readMember lib f (f.skip t)
        match first, last with
        | .char a _, .char b _ =>
          if b < a || (f.ascii && 128 ≤ b.val) then none
          else some (.span a.toNat b.toNat, rest)
        | _, _ => none
  | _ => alone

def readNamedClass (f : Flags) : List Char → Option (Option CharSet × List Char)
  | ':' :: r =>
    let negated := r.head? == some '^'
    let r := if negated then r.drop 1 else r
    let name := r.takeWhile (· != ':')
    match r.dropWhile (· != ':') with
    | ':' :: ']' :: rest =>
      (CharSet.asciiClass? (String.ofList name)).map fun s => (closeSet? f negated s, rest)
    | _ => none
  | _ => none

/-- How a set begins: whether it is negated, and its leading hyphens or its leading bracket. -/
def readSetStart (f : Flags) (s : List Char) : Bool × SetDraft × List Char :=
  let s := f.skip s
  let negated := s.head? == some '^'
  let s := if negated then f.skip (s.drop 1) else s
  match s with
  | ']' :: r => (negated, SetDraft.add {} (.single ']'), f.skip r)
  | '-' :: r => (negated, SetDraft.add {} (.single '-'), hyphens r)
  | r => (negated, {}, r)
where
  hyphens (s : List Char) : List Char := (f.skip s).dropWhile fun c => c == '-' || (f.spaced && isBlank c)

def readSet (f : Flags) : (fuel : Nat) → SetDraft → List Char → Option (CharSet × List Char)
  | 0, _, _ => none
  | fuel + 1, d, s =>
    match f.skip s with
    | [] => none
    | ']' :: r => some (d.value f, r)
    | '[' :: r =>
      match readNamedClass f r with
      | some (some s, rest) => readSet f fuel (d.add s) rest
      | some (none, _) => none
      | none => do
        let (negated, start, r) := readSetStart f r
        let (s, rest) ← readSet f fuel start r
        let s ← closeSet? f negated s
        readSet f fuel (d.add s) rest
    | '&' :: '&' :: r => readSet f fuel (d.operate f .inter) r
    | '-' :: '-' :: r => readSet f fuel (d.operate f .diff) r
    | '~' :: '~' :: r => readSet f fuel (d.operate f .symmetricDiff) r
    | r => do
      let (s, rest) ← readSpan lib f r
      readSet f fuel (d.add s) rest

def ofChar (f : Flags) (c : Char) : Regex :=
  if !f.ignoreCase then .set (.single c)
  else if f.ascii then .set (.asciiFolded (.single c))
  else .set (.folded (.single c))

/-- An escape as an expression. Bytes beyond ASCII are no characters and are refused in ASCII mode. -/
def ofEscape? (f : Flags) : Escape → Option Regex
  | .char c byte => if f.ascii && byte && 128 ≤ c.val then none else some (ofChar f c)
  | .set s => some (.set s)
  | .place p => some (.place p)

def dot? (f : Flags) : Option Regex :=
  if f.ascii then none
  else if f.dotAll then some (.set .all)
  else if f.crlf then some (.set (.inverse (.ofSpans [('\n', '\n'), ('\r', '\r')])))
  else some (.set (.inverse (.single '\n')))

def lineStart (f : Flags) : Place := if f.multiLine then .lineStart f.crlf else .start

def lineStop (f : Flags) : Place := if f.multiLine then .lineStop f.crlf else .stop

def maxCount : Nat := maxUInt32

/-- A number among blanks; no number where there are no digits, a fault where it is too large. -/
def readCount (f : Flags) (s : List Char) : Option (Option Nat × List Char) :=
  let s := trimStart s
  let (ds, rest) := digits s.length s
  let n := Number.ofDigits ds
  if maxCount < n then none
  else some (if ds.isEmpty then none else some n, f.skip (trimStart rest))
where
  digits : Nat → List Char → List Char × List Char
    | 0, s => ([], s)
    | _ + 1, [] => ([], [])
    | n + 1, c :: r =>
      if c.isDigit then
        let (ds, rest) := digits n (f.skip r)
        (c :: ds, rest)
      else ([], c :: r)

def readBounds (f : Flags) (s : List Char) : Option (Nat × Option Nat × List Char) := do
  let (least, r) ← readCount f (f.skip s)
  match r with
  | '\x7d' :: r => some (← least, least, r)
  | ',' :: r =>
    let least ← least
    match f.skip r with
    | '\x7d' :: r => some (least, none, r)
    | r =>
      let (most, r) ← readCount f r
      let most ← most
      match r with
      | '\x7d' :: r => if most < least then none else some (least, some most, r)
      | _ => none
  | _ => none

/-- How a group begins: a change of flags for the rest of the enclosing group, or a group with its
flags and the names known in it. -/
inductive Opening where
  | directive (f : Flags)
  | group (f : Flags) (names : List String)

def isNameStart (c : Char) : Bool := isAlphabetic c || c == '_'

def isGroupNameChar (c : Char) : Bool :=
  isAlphanumeric c || c == '_' || c == '.' || c == '[' || c == ']'

def readName (f : Flags) (names : List String) (s : List Char) : Option (Opening × List Char) :=
  let name := s.takeWhile (· != '>')
  match s.dropWhile (· != '>') with
  | [] => none
  | _ :: r =>
    if name.head?.any isNameStart && name.all isGroupNameChar &&
        !names.contains (String.ofList name) then
      some (.group f (String.ofList name :: names), r)
    else none

/-- What follows an opening parenthesis. Looking ahead or behind is not supported. -/
def readOpening (f : Flags) (names : List String) (s : List Char) : Option (Opening × List Char) :=
  match f.skip s with
  | '?' :: 'P' :: '<' :: r => readName f names r
  | '?' :: '<' :: '=' :: _ => none
  | '?' :: '<' :: '!' :: _ => none
  | '?' :: '<' :: r => readName f names r
  | '?' :: r =>
    let flags := r.takeWhile fun c => c != ':' && c != ')'
    match r.dropWhile (fun c => c != ':' && c != ')') with
    | ':' :: rest => (Flags.setAll? true f [] flags).map fun f => (.group f names, rest)
    | ')' :: rest =>
      if flags.isEmpty then none
      else (Flags.setAll? true f [] flags).map fun f => (.directive f, rest)
    | _ => none
  | r => some (.group f names, r)

/-- A group that is being read: finished alternatives, and the parts of the current one, last part
first. A change of flags is a part without an expression, which cannot be repeated. -/
structure GroupDraft where
  finished : List Regex := []
  current : List (Option Regex) := []

namespace GroupDraft

def add (d : GroupDraft) (r : Regex) : GroupDraft := { d with current := some r :: d.current }

def sequence (d : GroupDraft) : Regex :=
  match d.current.reverse.filterMap id with
  | [r] => r
  | rs => .seq rs

def nextAlternative (d : GroupDraft) : GroupDraft := ⟨d.finished ++ [d.sequence], []⟩

def close (d : GroupDraft) : Regex :=
  match d.finished with
  | [] => d.sequence
  | rs => .alt (rs ++ [d.sequence])

def repeated? (d : GroupDraft) (least : Nat) (most : Option Nat) : Option GroupDraft :=
  match d.current with
  | some r :: rs => some { d with current := some (.times r least most) :: rs }
  | _ => none

end GroupDraft

def skipReluctant : List Char → List Char
  | '?' :: r => r
  | r => r

def readPart (f : Flags) : List Char → Option (Regex × List Char)
  | [] => none
  | '\\' :: r => do
    let (e, r) ← readEscape lib f r
    let e ← ofEscape? f e
    some (e, r)
  | '.' :: r => (dot? f).map (·, r)
  | '^' :: r => some (.place (lineStart f), r)
  | '$' :: r => some (.place (lineStop f), r)
  | c :: r => some (ofChar f c, r)

def readGroup (nested : Bool) : (fuel : Nat) → Flags → List String → GroupDraft → List Char →
    Option (Regex × List String × List Char)
  | 0, _, _, _, _ => none
  | fuel + 1, f, names, d, s =>
    match f.skip s with
    | [] => if nested then none else some (d.close, names, [])
    | ')' :: r => if nested then some (d.close, names, r) else none
    | '|' :: r => readGroup nested fuel f names d.nextAlternative r
    | '(' :: r => do
      match ← readOpening f names r with
      | (.directive f, rest) => readGroup nested fuel f names { d with current := none :: d.current } rest
      | (.group inner known, rest) =>
        let (body, names, rest) ← readGroup true fuel inner known {} rest
        readGroup nested fuel f names (d.add (.group body)) rest
    | '[' :: r => do
      let (negated, start, t) := readSetStart f r
      let (s, rest) ← readSet lib f fuel start t
      let s ← closeSet? f negated s
      readGroup nested fuel f names (d.add (.set s)) rest
    | '?' :: r => do readGroup nested fuel f names (← d.repeated? 0 (some 1)) (skipReluctant r)
    | '*' :: r => do readGroup nested fuel f names (← d.repeated? 0 none) (skipReluctant r)
    | '+' :: r => do readGroup nested fuel f names (← d.repeated? 1 none) (skipReluctant r)
    | '\x7b' :: r => do
      let (least, most, r) ← readBounds f r
      readGroup nested fuel f names (← d.repeated? least most) (skipReluctant (f.skip r))
    | r => do
      let (part, rest) ← readPart lib f r
      readGroup nested fuel f names (d.add part) rest

/-- The expression that a text denotes, whatever its size. -/
def parse? (s : String) : Option Regex :=
  (readGroup lib false (s.length + 2) {} [] {} s.toList).map (·.1)

/-- The expression that a text denotes, if it is not too large. -/
def read? (s : String) : Option Regex := (parse? .known s).filter fits

end TorrentQuery.Regex
