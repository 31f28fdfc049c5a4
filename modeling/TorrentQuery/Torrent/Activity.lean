import TorrentQuery.Number.Bounded
import TorrentQuery.Number.Scalar

namespace TorrentQuery.Activity

open Number

variable {α : Type} [Scalar α]

/-- Events of a history in order. Whatever is no capital letter with digits behind it is skipped; the
fuel bounds the characters read. -/
def eventsFrom : Nat → List Char → List (Char × α)
  | 0, _ => []
  | _, [] => []
  | fuel + 1, c :: r =>
    match r.takeWhile Char.isDigit with
    | [] => eventsFrom fuel r
    | d :: ds =>
      if c.isUpper then
        (c, Scalar.ofInt (ofDigits (d :: ds))) :: eventsFrom fuel (r.dropWhile Char.isDigit)
      else eventsFrom fuel r

def events (history : String) : List (Char × α) := eventsFrom history.length history.toList

def latest (history : String) (only : Option Char) : List (Char × α) :=
  ((events history).filter fun e => only.all (· == e.1)).reverse

/-- A sum with the time between two events added, if there is any within the window. -/
def add (start : Option α) (resumed paused : α) (total : Option α) : Option α :=
  let resumed := start.elim resumed (Scalar.max resumed)
  if paused ≤ resumed then total else some (total.getD Scalar.zero + (paused - resumed))

/-- Adds up the activity within a window, of which `total` is known already. -/
def sumFrom (start : Option α) (stop : α) (total : Option α) : List (Char × α) → Option α
  | [] => total
  | [(kind, time)] => if kind == 'R' then add start time stop total else total
  | (kind, time) :: (next, paused) :: r =>
    if kind == 'R' && next == 'P' then
      sumFrom start stop (add start time (Scalar.min paused stop) total) r
    else sumFrom start stop total ((next, paused) :: r)

/-- Seconds of activity from `start` to `stop`, or to now; nothing if there was none. Zero stands for
an open end of the window. -/
def sum (history : String) (start stop : Option α) (now : α) : Option Int :=
  let given (x : Option α) : Option α := x.filter fun x => !(x == Scalar.zero)
  (sumFrom (given start) ((given stop).getD now) none (events history)).map Scalar.trunc64

/-- Time from `start` to `stop`, or to now. Zero stands for an unknown time. -/
def duration (start stop now : α) : Option α :=
  if start == Scalar.zero then none
  else if stop == Scalar.zero then some (now - start)
  else if stop < start then none
  else some (stop - start)

end TorrentQuery.Activity
