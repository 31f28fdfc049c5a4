namespace TorrentQuery.Number

inductive IntegerError where
  | empty
  | invalidDigit
  | tooLarge
  | tooSmall
  deriving DecidableEq, Repr

def IntegerError.message : IntegerError → String
  | .empty => "cannot parse integer from empty string"
  | .invalidDigit => "invalid digit found in string"
  | .tooLarge => "number too large to fit in target type"
  | .tooSmall => "number too small to fit in target type"

def digitValue? (c : Char) : Option Nat :=
  if c.isDigit then some (c.toNat - '0'.toNat) else none

def ofDigits (s : List Char) : Nat :=
  s.foldl (fun n c => 10 * n + (c.toNat - '0'.toNat)) 0

/-- Reads digits into `n`, which must not grow past `bound`. The first fault from the left counts. -/
def readDigits (bound : Nat) (n : Nat) : List Char → Except IntegerError Nat
  | [] => .ok n
  | c :: r =>
    match digitValue? c with
    | none => .error .invalidDigit
    | some d => if 10 * n + d ≤ bound then readDigits bound (10 * n + d) r else .error .tooLarge

def readNat (bound : Nat) : List Char → Except IntegerError Nat
  | [] => .error .empty
  | ['+'] => .error .invalidDigit
  | '+' :: r => readDigits bound 0 r
  | s => readDigits bound 0 s

def readInt (bound : Nat) : List Char → Except IntegerError Int
  | ['-'] => .error .invalidDigit
  | '-' :: r =>
    match readDigits (bound + 1) 0 r with
    | .ok n => .ok (-n)
    | .error .tooLarge => .error .tooSmall
    | .error e => .error e
  | s => (readNat bound s).map Int.ofNat

def maxInt64 : Nat := 9223372036854775807

def maxUInt64 : Nat := 18446744073709551615

def maxUInt32 : Nat := 4294967295

def maxUInt16 : Nat := 65535

def readInt64 (s : String) : Except IntegerError Int := readInt maxInt64 s.toList

def clamp64 (n : Int) : Int :=
  if n < -9223372036854775808 then -9223372036854775808 else if (maxInt64 : Int) < n then maxInt64 else n

/-- The integer of 64 bits that `n` wraps around to. -/
def wrap64 (n : Int) : Int := (n + 9223372036854775808) % 18446744073709551616 - 9223372036854775808

end TorrentQuery.Number
