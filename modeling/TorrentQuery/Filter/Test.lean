import TorrentQuery.Field.Basic
import TorrentQuery.Field.Value
import TorrentQuery.Filter.ByteSize
import TorrentQuery.Filter.Moment
import TorrentQuery.Filter.TimeSpan
import TorrentQuery.Pattern.Basic
import TorrentQuery.Query.Error

namespace TorrentQuery

open Number Text

inductive Test (α : Type) where
  | flag (wanted : Bool)
  | number (threshold : α)
  | size (bytes : Nat)
  /-- A time; relative ones count backwards. Times that must be set are not compared while zero. -/
  | time (threshold : α) (relative notNull : Bool)
  | duration (seconds : α)
  /-- A tag, or exactly the wanted tags. -/
  | tags (tag : String) (exact : Option TextSet)
  | pattern (p : Pattern)
  | files (g : Glob)

namespace Test

def label {α : Type} : Test α → String
  | .flag _ => "BoolFilter"
  | .number _ => "FloatFilter"
  | .size _ => "ByteSizeFilter"
  | .time _ _ _ => "TimeFilter"
  | .duration _ => "DurationFilter"
  | .tags _ _ => "TaggedAsFilter"
  | .pattern _ => "PatternFilter"
  | .files _ => "FilesFilter"

variable {α : Type} [Scalar α]

def readFlag (s : String) : Except ValueFault (Test α) :=
  match lowered s with
  | "true" | "t" | "yes" | "y" | "1" | "+" => .ok (.flag true)
  | "false" | "f" | "no" | "n" | "0" | "-" => .ok (.flag false)
  | _ => .error .notBoolean

def readNumber (s : String) : Except ValueFault (Test α) :=
  match Scalar.read? (trimmed s) with
  | some (x : α) => if Scalar.finite x then .ok (.number x) else .error .notNumber
  | none => .error .notNumber

def readSize (s : String) : Except ValueFault (Test α) :=
  match ByteSize.read (trim s.toList) with
  | .ok n => .ok (.size n)
  | .error e => .error (.size e)

/-- A span of time reaches back from `now`. -/
def readTime (now : α) (notNull : Bool) (s : String) : Except ValueFault (Test α) :=
  match TimeSpan.read? s.toList with
  | some n => .ok (.time (now - Scalar.ofInt n) true notNull)
  | none => (Moment.read s.toList).map fun t => .time (Scalar.ofInt t) false notNull

def readDuration (now : α) (s : String) : Except ValueFault (Test α) :=
  if Moment.isSeconds s.toList then .ok (.duration (Scalar.ofInt (ofDigits s.toList)))
  else match TimeSpan.read? s.toList with
    | some n => .ok (.duration (Scalar.ofInt n))
    | none => (Moment.read s.toList).map fun t => .duration (now - Scalar.ofInt t)

/-- A colon or an equals sign in front asks for exactly the tags that follow. -/
def readTags (s : String) : Test α :=
  match lower s.toList with
  | [] => .tags "" (some .empty)
  | c :: r =>
    if c == ':' || c == '=' then
      .tags (String.ofList r) (some (.ofList ((words r).map String.ofList)))
    else .tags (String.ofList (c :: r)) none

def read (now : α) (kind : FilterKind) (s : String) : Except ValueFault (Test α) :=
  match kind with
  | .pattern =>
    match Pattern.read? s with
    | some p => .ok (.pattern p)
    | none => .error .badRegex
  | .files => .ok (.files (.ofText s))
  | .taggedAs => .ok (readTags s)
  | .bool => readFlag s
  | .float => readNumber s
  | .byteSize => readSize s
  | .time => readTime now false s
  | .timeNotNull => readTime now true s
  | .duration => readDuration now s

/-- The operator that is applied in place of a given one. -/
def effective : Test α → Operator → Operator
  | .time _ true _, op => op.mirrored
  | _, op => op

def threshold? : Test α → Option α
  | .number x => some x
  | .size n => some (Scalar.ofInt n)
  | .time x _ _ => some x
  | .duration x => some x
  | _ => none

section Eval

variable {m : Type → Type} [Monad m]

def fillIn (read : String → m (Value α)) : List Template.Piece → m String
  | [] => pure ""
  | .text s :: r => return s ++ (← fillIn read r)
  | .field name :: r => do
    let v ← read name
    return v.render ++ (← fillIn read r)

def matchesPattern (read : String → m (Value α)) (p : Pattern) (text : String) : m Bool :=
  match p with
  | .empty => pure text.isEmpty
  | .always => pure true
  | .nonEmpty => pure !text.isEmpty
  | .regex _ r => pure (r.isMatch text)
  | .glob _ g => pure (g.isMatch text)
  | .template pieces => return (Glob.ofText (← fillIn read pieces)).isMatch text

def matchesTags (tag : String) (exact : Option TextSet) (tags : TextSet) : Bool :=
  let tags := tags.map lowered
  match exact with
  | some wanted => tags == wanted
  | none => tags.contains tag

def matchesFiles (g : Glob) : Value α → Bool
  | .none => false
  | .list paths => paths.any g.isMatch
  | .set paths => paths.toList.any g.isMatch
  | v => g.isMatch v.render

def equal (read : String → m (Value α)) (test : Test α) (v : Value α) : m Bool :=
  let amount := v.number?.getD Scalar.zero
  match test with
  | .flag wanted => pure (v.truthy == wanted)
  | .number x => pure (amount == x)
  | .size n => pure (amount == Scalar.ofInt n)
  | .time x _ _ => pure (amount == x)
  | .duration x => pure (amount == x)
  | .tags tag exact => pure (matchesTags tag exact v.toSet)
  | .pattern p => matchesPattern read p v.render
  | .files g => pure (matchesFiles g v)

def greater? (test : Test α) (v : Value α) : Option Bool :=
  let amount := v.number?.getD Scalar.zero
  match test with
  | .number x => some (x < amount)
  | .size n => some ((Scalar.ofInt n : α) < amount)
  | .time x _ _ => some (x < amount)
  | .duration x => some (x < amount)
  | _ => none

/-- Whether an unset time or duration keeps the test from being asked at all. -/
def unset (test : Test α) (v : Value α) : Bool :=
  match test with
  | .time x _ true => !(x == Scalar.zero) && v.number?.getD Scalar.zero == Scalar.zero
  | .duration x => !(x == Scalar.zero) && v.number?.all (· == Scalar.zero)
  | _ => false

end Eval

end Test

end TorrentQuery
