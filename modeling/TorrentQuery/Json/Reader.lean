import TorrentQuery.Json.Value
import TorrentQuery.Number.Hex

namespace TorrentQuery.Json

open Number

def isSpace (c : Char) : Bool := c == ' ' || c == '\t' || c == '\n' || c == '\r'

def skipSpace (s : List Char) : List Char := s.dropWhile isSpace

def readUnit : List Char → Option (Nat × List Char)
  | a :: b :: c :: d :: r => (ofHexDigits? [a, b, c, d]).map (·, r)
  | _ => none

/-- The character behind the backslash and `u` of an escape; two escapes can stand for one. -/
def readEscapedUnit (s : List Char) : Option (Char × List Char) := do
  let (u, r) ← readUnit s
  if 0xD800 ≤ u && u < 0xDC00 then
    match r with
    | '\\' :: 'u' :: r =>
      let (v, r) ← readUnit r
      if 0xDC00 ≤ v && v < 0xE000 then
        some (Char.ofNat (0x10000 + (u - 0xD800) * 1024 + (v - 0xDC00)), r)
      else none
    | _ => none
  else if 0xDC00 ≤ u && u < 0xE000 then none
  else some (Char.ofNat u, r)

def plainEscape? : Char → Option Char
  | '"' => some '"'
  | '\\' => some '\\'
  | '/' => some '/'
  | 'b' => some '\x08'
  | 'f' => some '\x0c'
  | 'n' => some '\n'
  | 'r' => some '\r'
  | 't' => some '\t'
  | _ => none

/-- A text of UTF-8, given by its bytes as characters of their codes. -/
def decode? (codes : List Char) : Option String :=
  String.fromUTF8? ⟨(codes.map Char.toUInt8).toArray⟩

def encode (c : Char) : List Char := (String.utf8EncodeChar c).map Char.ofUInt8

/-- The rest of a string up to its closing quote. The fuel bounds the characters read. -/
def readString : Nat → List Char → Option (List Char × List Char)
  | 0, _ => none
  | _ + 1, [] => none
  | fuel + 1, c :: r =>
    if c == '"' then some ([], r)
    else if c == '\\' then
      match r with
      | 'u' :: r => do
        let (c, r) ← readEscapedUnit r
        let (cs, r) ← readString fuel r
        some (encode c ++ cs, r)
      | e :: r => do
        let c ← plainEscape? e
        let (cs, r) ← readString fuel r
        some (c :: cs, r)
      | [] => none
    else if c.val < 32 then none
    else do
      let (cs, r) ← readString fuel r
      some (c :: cs, r)

/-- What follows a string that is passed over. Neither its bytes nor the units that its escapes stand
for need to make up characters. -/
def skipString : Nat → List Char → Option (List Char)
  | 0, _ => none
  | _ + 1, [] => none
  | fuel + 1, c :: r =>
    if c == '"' then some r
    else if c == '\\' then
      match r with
      | 'u' :: r => do
        let (_, r) ← readUnit r
        skipString fuel r
      | e :: r => do
        let _ ← plainEscape? e
        skipString fuel r
      | [] => none
    else if c.val < 32 then none
    else skipString fuel r

/-- Digits of a number that are kept: those that fit into 64 bits, and the power of ten that stands
for the digits left off. -/
def keepDigits (n : Nat) : List Char → Nat × Nat
  | [] => (n, 0)
  | c :: r =>
    let m := 10 * n + (c.toNat - 48)
    if m ≤ maxUInt64 then keepDigits m r else (n, r.length + 1)

/-- `digits * 10 ^ exponent` in floating point arithmetic; nothing if that is infinite. -/
def scaled? (digits : Nat) (exponent : Int) : Option Float :=
  let f : Float := Scalar.ofInt digits
  let power (e : Nat) : Float := Binary.nearest false (tenTo e) 1
  if digits = 0 then some f
  else if 308 < exponent then none
  else if 0 ≤ exponent then
    let g := f * power exponent.toNat
    if g.isFinite then some g else none
  else
    let e := exponent.natAbs
    if e ≤ 308 then some (f / power e)
    else if e ≤ 616 then some (f / power 308 / power (e - 308))
    else if e ≤ 924 then some (f / power 308 / power 308 / power (e - 616))
    else some 0.0

def readFraction (negative : Bool) (whole fraction : List Char) (exponent : Int) : Option Json := do
  let (n, dropped) := keepDigits 0 whole
  let (n, exponent) :=
    if dropped = 0 then
      let (m, left) := keepDigits n fraction
      (m, exponent - (fraction.length - left : Nat))
    else (n, exponent + dropped)
  let x ← scaled? n exponent
  some (.float (if negative then -x else x))

/-- A number as it is written, its digits before and behind the point. -/
structure Numeral where
  negative : Bool
  whole : List Char
  fraction : List Char
  exponent? : Option Int
  deriving Repr

def Numeral.integer (negative : Bool) (n : Nat) : Json :=
  if negative then
    if n = 0 || maxInt64 + 1 < n then .float (-(Scalar.ofInt n)) else .int (-n)
  else if n ≤ maxUInt64 then .int n
  else .float (Scalar.ofInt n)

def Numeral.value? (n : Numeral) : Option Json :=
  match n.fraction, n.exponent? with
  | [], none =>
    if ofDigits n.whole ≤ maxUInt64 then some (integer n.negative (ofDigits n.whole))
    else readFraction n.negative n.whole [] 0
  | fraction, e => readFraction n.negative n.whole fraction (e.getD 0)

def readExponent : List Char → Option (Option Int × List Char)
  | e :: r =>
    if e == 'e' || e == 'E' then
      let (negative, r) := Decimal.sign r
      let ds := r.takeWhile Char.isDigit
      if ds.isEmpty then none
      else
        let n : Int := ofDigits ds
        some (some (if negative then -n else n), r.dropWhile Char.isDigit)
    else some (none, e :: r)
  | [] => some (none, [])

def readNumeral (s : List Char) : Option (Numeral × List Char) := do
  let (negative, s) := match s with
    | '-' :: r => (true, r)
    | r => (false, r)
  let whole := s.takeWhile Char.isDigit
  let rest := s.dropWhile Char.isDigit
  if whole.isEmpty || (whole.head? == some '0' && 1 < whole.length) then none
  else
    match rest with
    | '.' :: r =>
      let fraction := r.takeWhile Char.isDigit
      if fraction.isEmpty then none
      else do
        let (e, r) ← readExponent (r.dropWhile Char.isDigit)
        some (⟨negative, whole, fraction, e⟩, r)
    | r => do
      let (e, r) ← readExponent r
      some (⟨negative, whole, [], e⟩, r)

/-- What is kept of a value: all of it, its items or its members of some names, or nothing. Of what
is not kept only the grammar is looked at. -/
inductive Shape where
  | whole
  | items (item : Shape)
  | record (members : List (String × Shape))
  | nothing

namespace Shape

def keeps : Shape → Bool
  | .nothing => false
  | _ => true

/-- The shape of the first item. Records may be given by their members in order. -/
def head : Shape → Shape
  | .items item => item
  | .record ((_, member) :: _) => member
  | .record [] => .whole
  | shape => shape

def tail : Shape → Shape
  | .record (_ :: members) => .record members
  | shape => shape

def member (key : String) : Shape → Shape
  | .record members =>
    match members.find? (·.1 = key) with
    | some (_, shape) => shape
    | none => .nothing
  | .items _ => .whole
  | shape => shape

def inner? : (depth : Nat) → Shape → Option Nat
  | depth, .nothing => some depth
  | 0, _ => none
  | depth + 1, _ => some depth

end Shape

def readText (shape : Shape) (s : List Char) : Option (String × List Char) :=
  if shape.keeps then do
    let (codes, r) ← readString (s.length + 1) s
    some (← decode? codes, r)
  else (skipString (s.length + 1) s).map ("", ·)

def readNumber (shape : Shape) (s : List Char) : Option (Json × List Char) := do
  let (n, r) ← readNumeral s
  if shape.keeps then some (← n.value?, r) else some (.null, r)

mutual

/-- A value at the start of the text, within `depth` further levels. -/
def readValue : (fuel depth : Nat) → Shape → List Char → Option (Json × List Char)
  | 0, _, _, _ => none
  | fuel + 1, depth, shape, s =>
    match skipSpace s with
    | 'n' :: 'u' :: 'l' :: 'l' :: r => some (.null, r)
    | 't' :: 'r' :: 'u' :: 'e' :: r => some (.bool true, r)
    | 'f' :: 'a' :: 'l' :: 's' :: 'e' :: r => some (.bool false, r)
    | '"' :: r => (readText shape r).map fun (t, r) => (.str t, r)
    | '[' :: r => do
      let depth ← shape.inner? depth
      match skipSpace r with
      | ']' :: r => some (.arr [], r)
      | r => (readItems fuel depth shape r).map fun (items, r) => (.arr items, r)
    | '\x7b' :: r => do
      let depth ← shape.inner? depth
      match skipSpace r with
      | '\x7d' :: r => some (.obj [], r)
      | r => (readMembers fuel depth shape r).map fun (members, r) => (.obj members, r)
    | s => readNumber shape s

def readItems : (fuel depth : Nat) → Shape → List Char → Option (List Json × List Char)
  | 0, _, _, _ => none
  | fuel + 1, depth, shape, s => do
    let (j, r) ← readValue fuel depth shape.head s
    match skipSpace r with
    | ',' :: r =>
      let (items, r) ← readItems fuel depth shape.tail r
      some (j :: items, r)
    | ']' :: r => some ([j], r)
    | _ => none

def readMembers : (fuel depth : Nat) → Shape → List Char → Option (List (String × Json) × List Char)
  | 0, _, _, _ => none
  | fuel + 1, depth, shape, s =>
    match skipSpace s with
    | '"' :: r => do
      let (key, r) ← readText shape r
      match skipSpace r with
      | ':' :: r =>
        let inner := shape.member key
        let (j, r) ← readValue fuel depth inner r
        let kept := if inner.keeps then [(key, j)] else []
        match skipSpace r with
        | ',' :: r =>
          let (members, r) ← readMembers fuel depth shape r
          some (kept ++ members, r)
        | '\x7d' :: r => some (kept, r)
        | _ => none
      | _ => none
    | _ => none

end

/-- What is kept of the value that some bytes denote. Members of objects stay as they are written,
those with equal keys included. -/
def readAs? (shape : Shape) (bytes : List UInt8) : Option Json :=
  match readValue (2 * bytes.length + 2) 127 shape (bytes.map Char.ofUInt8) with
  | some (j, r) => if (skipSpace r).isEmpty then some j else none
  | none => none

/-- The value that a text denotes, with one member for each key. -/
def read? (s : String) : Option Json := (readAs? .whole s.toUTF8.toList).map collapse

end TorrentQuery.Json
