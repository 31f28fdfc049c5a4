import TorrentQuery.Text.Case

namespace TorrentQuery

open Text

namespace Glob

/-- A character, or the characters from one to another. -/
inductive Span where
  | single (c : Char)
  | range (first last : Char)
  deriving DecidableEq, Repr

inductive Part where
  /-- Any text. -/
  | many
  /-- Any character. -/
  | one
  | oneOf (negated : Bool) (members : List Span)
  | char (c : Char)
  deriving DecidableEq, Repr

def spans : List Char → List Span
  | a :: '-' :: b :: r => .range a b :: spans r
  | a :: r => .single a :: spans r
  | [] => []

/-- Cuts a set at its first closing bracket that is not its first member. -/
def cutSet (negated : Bool) (c : Char) (r : List Char) : Option (Part × List Char) :=
  match r.dropWhile (· != ']') with
  | [] => none
  | _ :: rest => some (.oneOf negated (spans (c :: r.takeWhile (· != ']'))), rest)

def set? : List Char → Option (Part × List Char)
  | [] => none
  | ['!'] => none
  | '!' :: c :: r => cutSet true c r
  | c :: r => cutSet false c r

theorem length_cutSet {negated : Bool} {c : Char} {r rest : List Char} {p : Part}
    (h : cutSet negated c r = some (p, rest)) : rest.length ≤ r.length := by
  unfold cutSet at h
  split at h
  · cases h
  · next x t ht =>
    have hl := (List.dropWhile_sublist (l := r) (· != ']')).length_le
    rw [ht] at hl
    simp only [Option.some.injEq, Prod.mk.injEq] at h
    obtain ⟨_, rfl⟩ := h
    simp only [List.length_cons] at hl
    omega

theorem length_set? {r rest : List Char} {p : Part} (h : set? r = some (p, rest)) :
    rest.length < r.length := by
  unfold set? at h
  split at h
  · cases h
  · cases h
  · have := length_cutSet h
    simp only [List.length_cons]
    omega
  · have := length_cutSet h
    simp only [List.length_cons]
    omega

/-- The parts of a pattern, unless a bracket in it does not open a set. -/
def parse? : List Char → Option (List Part)
  | [] => some []
  | '*' :: r => (parse? r).map (.many :: ·)
  | '?' :: r => (parse? r).map (.one :: ·)
  | '[' :: r =>
    match h : set? r with
    | none => none
    | some (p, rest) =>
      have : rest.length < r.length := length_set? h
      (parse? rest).map (p :: ·)
  | c :: r => (parse? r).map (.char c :: ·)
termination_by s => s.length

def sameLetter (a b : Char) : Bool :=
  if a.val < 128 && b.val < 128 then a.toLower == b.toLower else a == b

/-- Whether a span holds the character. A span between letters does so without regard to case. -/
def Span.holds : Span → Char → Bool
  | .single a, c => sameLetter c a
  | .range a b, c =>
    (c.val < 128 && a.isAlpha && b.isAlpha && a.toLower ≤ c.toLower && c.toLower ≤ b.toLower) ||
      (a ≤ c && c ≤ b)

def Part.accepts : Part → Char → Bool
  | .many, _ => true
  | .one, _ => true
  | .oneOf negated members, c => members.any (·.holds c) != negated
  | .char a, c => sameLetter c a

/-- Whether one of the answers is positive, for each place in the list and those behind it. -/
def anyLater : List Bool → List Bool
  | [] => []
  | b :: r => (b || r.any id) :: anyLater r

/-- Answers for a text and its shorter and shorter ends, from those for the same ends without their
first characters. -/
def acceptFirst (p : Part) : List Char → List Bool → List Bool
  | c :: r, b :: bs => (p.accepts c && b) :: acceptFirst p r bs
  | _, _ => [false]

/-- Whether the parts spell out the text, and each of its shorter and shorter ends. -/
def acceptsEnds : List Part → List Char → List Bool
  | [], s => s.map (fun _ => false) ++ [true]
  | .many :: ps, s => anyLater (acceptsEnds ps s)
  | p :: ps, s => acceptFirst p s (acceptsEnds ps s).tail

def accepts (ps : List Part) (s : List Char) : Bool := (acceptsEnds ps s).headD false

theorem headD_anyLater (bs : List Bool) : (anyLater bs).headD false = bs.any id := by
  cases bs <;> rfl

/-- There is one answer for each end of the text. -/
theorem acceptsEnds_nil (ps : List Part) : acceptsEnds ps [] = [accepts ps []] := by
  have : ∃ b, acceptsEnds ps [] = [b] := by
    induction ps with
    | nil => exact ⟨true, rfl⟩
    | cons p ps ih =>
      obtain ⟨b, h⟩ := ih
      cases p <;> simp [acceptsEnds, h, anyLater, acceptFirst]
  obtain ⟨b, h⟩ := this
  simp [accepts, h]

theorem acceptsEnds_cons (ps : List Part) (c : Char) (r : List Char) :
    acceptsEnds ps (c :: r) = accepts ps (c :: r) :: acceptsEnds ps r := by
  suffices h : ∃ b, acceptsEnds ps (c :: r) = b :: acceptsEnds ps r by
    obtain ⟨b, h⟩ := h
    simp [accepts, h]
  induction ps generalizing c r with
  | nil => exact ⟨false, rfl⟩
  | cons p ps ih =>
    obtain ⟨b, hb⟩ := ih c r
    have tail : (acceptsEnds ps (c :: r)).tail = acceptsEnds ps r := by rw [hb, List.tail_cons]
    have first : ∃ d t, acceptsEnds ps r = d :: t := by
      cases r with
      | nil => exact ⟨_, _, acceptsEnds_nil ps⟩
      | cons d t => exact (ih d t).elim fun e he => ⟨e, _, he⟩
    obtain ⟨d, t, hd⟩ := first
    cases p with
    | many => exact ⟨_, by simp only [acceptsEnds, hb, anyLater]; rfl⟩
    | one => exact ⟨_, by simp only [acceptsEnds, tail, hd, acceptFirst, List.tail_cons]; rfl⟩
    | oneOf _ _ => exact ⟨_, by simp only [acceptsEnds, tail, hd, acceptFirst, List.tail_cons]; rfl⟩
    | char _ => exact ⟨_, by simp only [acceptsEnds, tail, hd, acceptFirst, List.tail_cons]; rfl⟩

theorem accepts_many_nil (ps : List Part) : accepts (.many :: ps) [] = accepts ps [] := by
  rw [accepts, acceptsEnds, headD_anyLater, acceptsEnds_nil]
  simp

/-- A star takes nothing, or the next character. -/
theorem accepts_many_cons (ps : List Part) (c : Char) (r : List Char) :
    accepts (.many :: ps) (c :: r) = (accepts ps (c :: r) || accepts (.many :: ps) r) := by
  have any (s : List Char) : accepts (.many :: ps) s = (acceptsEnds ps s).any id :=
    headD_anyLater _
  rw [any, any, acceptsEnds_cons]
  rfl

theorem accepts_part_nil {p : Part} (ps : List Part) (h : p ≠ .many) :
    accepts (p :: ps) [] = false := by
  rw [accepts, acceptsEnds.eq_3 _ _ _ (by simpa using h)]
  rfl

/-- Every other part takes one character. -/
theorem accepts_part_cons {p : Part} (ps : List Part) (h : p ≠ .many) (c : Char) (r : List Char) :
    accepts (p :: ps) (c :: r) = (p.accepts c && accepts ps r) := by
  have first : acceptsEnds ps r = accepts ps r :: (acceptsEnds ps r).tail := by
    cases r <;> simp [acceptsEnds_nil, acceptsEnds_cons]
  rw [accepts, acceptsEnds.eq_3 _ _ _ (by simpa using h), acceptsEnds_cons, List.tail_cons, first]
  simp [acceptFirst]

def collapseStars : List Char → List Char
  | '*' :: '*' :: r => collapseStars ('*' :: r)
  | c :: r => c :: collapseStars r
  | [] => []

end Glob

/-- A pattern in lower case, with its parts if it is well formed. -/
structure Glob where
  parts : Option (List Glob.Part)
  literal : List Char
  deriving DecidableEq, Repr

namespace Glob

def ofText (s : String) : Glob :=
  let literal := lower s.toList
  ⟨parse? (collapseStars literal), literal⟩

def isMatch (g : Glob) (value : String) : Bool :=
  let v := lower value.toList
  g.parts.any (accepts · v) || v == g.literal

end Glob

end TorrentQuery
