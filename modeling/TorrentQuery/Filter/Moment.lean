import TorrentQuery.Number.Bounded
import TorrentQuery.Query.Error
import TorrentQuery.Text.Blank

namespace TorrentQuery

open Number Text

structure Date where
  year : Int
  month : Nat
  day : Nat
  deriving DecidableEq, Repr

namespace Date

def isLeap (year : Int) : Bool := year % 4 == 0 && (year % 100 != 0 || year % 400 == 0)

def daysInMonth (year : Int) : Nat → Nat
  | 2 => if isLeap year then 29 else 28
  | 4 | 6 | 9 | 11 => 30
  | _ => 31

def firstYear : Int := -262143

def lastYear : Int := 262142

def valid (d : Date) : Bool :=
  firstYear ≤ d.year && d.year ≤ lastYear && 1 ≤ d.month && d.month ≤ 12 && 1 ≤ d.day &&
    d.day ≤ daysInMonth d.year d.month

def daysBeforeMonth (year : Int) (month : Nat) : Nat :=
  ((List.range (month - 1)).map fun m => daysInMonth year (m + 1)).foldl (· + ·) 0

def daysBeforeYear (year : Int) : Int :=
  let y := year - 1
  365 * y + y / 4 - y / 100 + y / 400

def dayNumber (d : Date) : Int :=
  daysBeforeYear d.year + daysBeforeMonth d.year d.month + d.day - 1 - daysBeforeYear 1970

end Date

structure TimeOfDay where
  hour : Nat
  minute : Nat
  second : Nat
  deriving DecidableEq, Repr

namespace TimeOfDay

/-- A leap second is allowed. -/
def valid (t : TimeOfDay) : Bool := t.hour < 24 && t.minute < 60 && t.second ≤ 60

/-- Seconds since the start of the day; a leap second counts as the one before it. -/
def seconds (t : TimeOfDay) : Nat := t.hour * 3600 + t.minute * 60 + min t.second 59

end TimeOfDay

namespace Moment

inductive DateForm where
  | monthFirst
  | dayFirst
  | yearFirst

/-- A slash tells of the month in front, a point of the day in front. -/
def formOf (s : List Char) : DateForm :=
  if s.contains '/' then .monthFirst else if s.contains '.' then .dayFirst else .yearFirst

def readNumber (width : Nat) (s : List Char) : Option (Nat × List Char) :=
  let s := trimStart s
  let digits := (s.take width).takeWhile Char.isDigit
  if digits.isEmpty then none else some (ofDigits digits, s.drop digits.length)

/-- A year. With a sign before it, it may have any number of digits. -/
def readYear (s : List Char) : Option (Int × List Char) :=
  match trimStart s with
  | '-' :: r => (signed r).map fun (n, r) => (-(n : Int), r)
  | '+' :: r => (signed r).map fun (n, r) => ((n : Int), r)
  | r => (readNumber 4 r).map fun (n, r) => ((n : Int), r)
where
  signed (s : List Char) : Option (Nat × List Char) :=
    if s.head?.any Char.isDigit then readNumber s.length s else none

def readDate (form : DateForm) (s : List Char) : Option Date := do
  let date ← match form with
    | .yearFirst => do
      let (y, s) ← readYear s
      let (m, s) ← readNumber 2 (← after? ['-'] s)
      let (d, s) ← readNumber 2 (← after? ['-'] s)
      if s.isEmpty then some ⟨y, m, d⟩ else none
    | .monthFirst => do
      let (m, s) ← readNumber 2 s
      let (d, s) ← readNumber 2 (← after? ['/'] s)
      let (y, s) ← readYear (← after? ['/'] s)
      if s.isEmpty then some ⟨y, m, d⟩ else none
    | .dayFirst => do
      let (d, s) ← readNumber 2 s
      let (m, s) ← readNumber 2 (← after? ['.'] s)
      let (y, s) ← readYear (← after? ['.'] s)
      if s.isEmpty then some (⟨y, m, d⟩ : Date) else none
  if date.valid then some date else none

def readTime (s : List Char) : Option TimeOfDay := do
  let (h, r) ← readNumber 2 s
  let time ← match r, s.count ':' with
    | [], 0 => some ⟨h, 0, 0⟩
    | _, 0 => none
    | _, 1 => do
      let (m, r) ← readNumber 2 (← after? [':'] r)
      if r.isEmpty then some ⟨h, m, 0⟩ else none
    | _, _ => do
      let (m, r) ← readNumber 2 (← after? [':'] r)
      let (n, r) ← readNumber 2 (← after? [':'] r)
      if r.isEmpty then some (⟨h, m, n⟩ : TimeOfDay) else none
  if time.valid then some time else none

def readDateTime (s : List Char) : Option Int := do
  let form := formOf s
  let s := (trim s).map fun c => if c == ' ' || c == 't' then 'T' else c
  match splitOnce ['T'] s with
  | some (date, time) =>
    let d ← readDate form date
    let t ← readTime time
    some (d.dayNumber * 86400 + t.seconds)
  | none => (readDate form s).map (·.dayNumber * 86400)

def isSeconds (s : List Char) : Bool := !s.isEmpty && s.all Char.isDigit

def read (s : List Char) : Except ValueFault Int :=
  if isSeconds s then
    match readNat maxInt64 s with
    | .ok n => .ok n
    | .error e => .error (.integer e)
  else match readDateTime s with
    | some n => .ok n
    | none => .error .notTime

end Moment

end TorrentQuery
