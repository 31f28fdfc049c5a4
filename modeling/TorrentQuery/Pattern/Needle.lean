import TorrentQuery.Text.Split

namespace TorrentQuery.Needle

/-- The first of the longest runs. -/
def longest (runs : List (List Char)) : List Char :=
  runs.foldl (fun best run => if best.length < run.length then run else best) []

/-- Literal runs of a shell pattern. The set that a bracket opens is skipped up to the next closing
bracket; `inSet` while that is going on. -/
def globRuns (inSet : Bool) (run : List Char) : List Char → List (List Char)
  | [] => [run]
  | c :: r =>
    if inSet then globRuns (c != ']') run r
    else if c == '[' then run :: globRuns true [] r
    else if c == '*' || c == '?' || c == ']' then run :: globRuns false [] r
    else globRuns false (run ++ [c]) r

def ofGlob (pattern : String) : String :=
  String.ofList (longest (globRuns false [] pattern.toList))

/-- What follows the set of a regular expression from one of its members on. -/
def afterSetMembers : List Char → Option (List Char)
  | [] => none
  | ['\\'] => none
  | '\\' :: _ :: r => afterSetMembers r
  | ']' :: r => some r
  | _ :: r => afterSetMembers r

def afterSet (s : List Char) : Option (List Char) :=
  let s := if s.head? == some '^' then s.drop 1 else s
  afterSetMembers (if s.head? == some ']' then s.drop 1 else s)

theorem length_afterSetMembers {s r : List Char} (h : afterSetMembers s = some r) :
    r.length ≤ s.length := by
  fun_induction afterSetMembers s with
  | case1 => cases h
  | case2 => cases h
  | case3 _ t ih => have := ih h; simp only [List.length_cons]; omega
  | case4 t => cases h; simp
  | case5 c t _ _ _ ih => have := ih h; simp only [List.length_cons]; omega

theorem length_afterSet {s r : List Char} (h : afterSet s = some r) : r.length ≤ s.length := by
  have := length_afterSetMembers h
  have drop (t : List Char) (b : Bool) : (if b then t.drop 1 else t).length ≤ t.length := by
    cases b <;> simp
  exact Nat.le_trans this (Nat.le_trans (drop _ _) (drop _ _))

/-- What follows the group that is open `depth` levels deep. -/
def afterGroup (depth : Nat) : List Char → Option (List Char)
  | [] => none
  | ['\\'] => none
  | '\\' :: _ :: r => afterGroup depth r
  | '[' :: r =>
    match h : afterSet r with
    | none => none
    | some rest =>
      have : rest.length ≤ r.length := length_afterSet h
      afterGroup depth rest
  | '(' :: r => afterGroup (depth + 1) r
  | ')' :: r => if depth ≤ 1 then some r else afterGroup (depth - 1) r
  | _ :: r => afterGroup depth r
termination_by s => s.length

theorem length_afterGroup {depth : Nat} {s r : List Char} (h : afterGroup depth s = some r) :
    r.length ≤ s.length := by
  fun_induction afterGroup depth s with
  | case1 => cases h
  | case2 => cases h
  | case3 _ _ t ih => have := ih h; simp only [List.length_cons]; omega
  | case4 => cases h
  | case5 _ _ _ _ _ ih => have := ih h; simp only [List.length_cons]; omega
  | case6 _ _ ih => have := ih h; simp only [List.length_cons]; omega
  | case7 _ _ _ => cases h; simp
  | case8 _ _ _ ih => have := ih h; simp only [List.length_cons]; omega
  | case9 _ _ _ _ _ _ _ _ ih => have := ih h; simp only [List.length_cons]; omega

def inlineFlags? : List Char → Option (List Char)
  | '?' :: r =>
    let isFlag (c : Char) : Bool := c.isAlpha || c == '-'
    let flags := r.takeWhile isFlag
    match r.dropWhile isFlag with
    | c :: _ => if !flags.isEmpty && (c == ':' || c == ')') then some flags else none
    | [] => none
  | _ => none

def isRunChar (c : Char) : Bool := c.isAlphanum || c == '_' || c == '/'

/-- Literal runs of a regular expression, after `run`. There are none to rely on where alternatives,
closing brackets without an opening one, or flags other than `i` appear. -/
def regexRuns? (run : List Char) : List Char → Option (List (List Char))
  | [] => some [run]
  | '\\' :: [] => some [run, []]
  | '\\' :: _ :: r => (regexRuns? [] r).map (run :: ·)
  | '[' :: r =>
    match h : afterSet r with
    | none => none
    | some rest =>
      have : rest.length ≤ r.length := length_afterSet h
      (regexRuns? [] rest).map (run :: ·)
  | '(' :: r =>
    if (inlineFlags? r).any (·.any (· != 'i')) then none
    else match h : afterGroup 1 r with
      | none => none
      | some rest =>
        have : rest.length ≤ r.length := length_afterGroup h
        (regexRuns? [] rest).map (run :: ·)
  | '\x7b' :: r =>
    match h : r.dropWhile (· != '\x7d') with
    | [] => none
    | _ :: rest =>
      have : rest.length < r.length + 1 := by
        have hl := (List.dropWhile_sublist (l := r) (· != '\x7d')).length_le
        rw [h] at hl
        simp only [List.length_cons] at hl
        omega
      (regexRuns? [] rest).map (run.dropLast :: ·)
  | c :: r =>
    if c == '?' || c == '*' then (regexRuns? [] r).map (run.dropLast :: ·)
    else if c == '|' || c == ')' || c == ']' || c == '\x7d' then none
    else if isRunChar c then regexRuns? (run ++ [c]) r
    else (regexRuns? [] r).map (run :: ·)
termination_by s => s.length

/-- The longest literal part of a regular expression. -/
def ofRegex? (pattern : String) : Option String :=
  (regexRuns? [] pattern.toList).map fun runs => String.ofList (longest runs)

end TorrentQuery.Needle
