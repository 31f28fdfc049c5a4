namespace TorrentQuery.Text

/-- The parts between the characters that satisfy `p`; one part more than there are such characters. -/
def splitWhere (p : Char → Bool) : List Char → List (List Char)
  | [] => [[]]
  | c :: r =>
    if p c then [] :: splitWhere p r
    else match splitWhere p r with
      | [] => [[c]]
      | w :: ws => (c :: w) :: ws

def splitOnce {α : Type} [BEq α] (sep : List α) : List α → Option (List α × List α)
  | [] => if sep.isEmpty then some ([], []) else none
  | c :: r =>
    if sep.isPrefixOf (c :: r) then some ([], (c :: r).drop sep.length)
    else (splitOnce sep r).map fun (a, b) => (c :: a, b)

theorem splitOnce_append {α : Type} [BEq α] [LawfulBEq α] {c : α} {a : List α} (ha : c ∉ a)
    (b : List α) : splitOnce [c] (a ++ c :: b) = some (a, b) := by
  induction a with
  | nil => simp [splitOnce]
  | cons d a ih =>
    simp only [List.mem_cons, not_or] at ha
    simp [splitOnce, ha.1, ih ha.2]

theorem eq_append_of_splitOnce {α : Type} [BEq α] [LawfulBEq α] {c : α} {s a b : List α}
    (h : splitOnce [c] s = some (a, b)) : s = a ++ c :: b := by
  induction s generalizing a with
  | nil => cases h
  | cons d r ih =>
    rw [splitOnce] at h
    split at h
    · next hd =>
      obtain rfl : c = d := by simpa using hd
      cases h
      rfl
    · obtain ⟨⟨a', b'⟩, hr, heq⟩ := Option.map_eq_some_iff.1 h
      cases heq
      rw [ih hr, List.cons_append]

def splitLast (sep : Char) (s : List Char) : Option (List Char × List Char) :=
  (splitOnce [sep] s.reverse).map fun (a, b) => (b.reverse, a.reverse)

def occursIn (needle : List Char) : List Char → Bool
  | [] => needle.isEmpty
  | c :: r => needle.isPrefixOf (c :: r) || occursIn needle r

def after? (start : List Char) (s : List Char) : Option (List Char) :=
  if start.isPrefixOf s then some (s.drop start.length) else none

def before? (stop : List Char) (s : List Char) : Option (List Char) :=
  (after? stop.reverse s.reverse).map List.reverse

/-- The lines of a text. A line ends at a line feed, which takes a carriage return before it along;
the last line need not end. -/
def lines (s : List Char) : List (List Char) :=
  let parts := splitWhere (· == '\n') s
  let closed := parts.dropLast.map fun l => (before? ['\r'] l).getD l
  match parts.getLast? with
  | some (c :: r) => closed ++ [c :: r]
  | _ => closed

def joinWith (sep : String) (parts : List String) : String :=
  sep.intercalate parts

end TorrentQuery.Text
