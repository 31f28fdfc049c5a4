import TorrentQuery.Query.Cond
import TorrentQuery.Query.Error
import TorrentQuery.Text.Category

namespace TorrentQuery

open Text

inductive Token where
  | opening
  | closing
  | negation
  | alternative
  | named (field : String) (operator : Operator) (value : Literal)
  | bare (value : Literal)
  deriving DecidableEq, Inhabited, Repr

structure Lexeme where
  token : Token
  position : Nat
  deriving DecidableEq, Inhabited, Repr

namespace Token

/-- A fault and how far behind the start of its token it lies. -/
abbrev Step (α : Type) := Except (Nat × Fault) α

def atBoundary (s : List Char) : Bool := s.head?.all isBlank

def nextVisible (s : List Char) : Option Char := (s.dropWhile isBlank).head?

/-- An operator at the start of the text, its width and what follows. Two characters are tried first;
a sign after `=` belongs to the operator only in front of a quoted value. Where the text ends with
the operator, its width counts as two. -/
def operator? (s : List Char) : Option (Operator × Nat × List Char) :=
  let pair := s.take 2
  let rest := s.drop 2
  let signed := pair == ['=', '+'] || pair == ['=', '-']
  match Operator.ofSymbol? pair with
  | some op => if !signed || rest.head? == some '"' then some (op, 2, rest) else single s
  | none => single s
where
  single : List Char → Option (Operator × Nat × List Char)
    | [] => none
    | c :: r => (Operator.ofSymbol? [c]).map (·, 1, r)

/-- Whether a bracket with `s` behind it opens a group. Glued to a word it does, unless it reads as
a set of characters such as `[ARCH]*`. -/
def opensGroup (s : List Char) : Bool :=
  atBoundary s || s.head? == some '[' || !(s.takeWhile (!isBlank ·)).contains ']' ||
    (!(s.takeWhile isNameChar).isEmpty && (operator? (s.dropWhile isNameChar)).isSome)

def closesGroup (depth : Nat) (s : List Char) : Bool := 0 < depth && s.head? == some ']'

/-- A quoted value whose opening quote has been read; the fault behind it is counted from that quote. -/
def quotedValue (depth : Nat) (s : List Char) : Step (Literal × List Char) :=
  let text := s.takeWhile (· != '"')
  match s.dropWhile (· != '"') with
  | [] => .error (0, .openQuote)
  | _ :: r =>
    if atBoundary r || closesGroup depth r then .ok (⟨String.ofList text, true⟩, r)
    else .error (text.length + 2, .gluedQuote)

/-- An unquoted value: everything up to white space. Inside a group a closing bracket ends it too,
unless the value opened a set of characters. -/
def bareText (depth : Nat) (inSet started : Bool) : List Char → List Char × List Char
  | [] => ([], [])
  | c :: r =>
    if isBlank c || (!inSet && started && closesGroup depth (c :: r)) then ([], c :: r)
    else
      let inSet := if c == '[' then true else if c == ']' then false else inSet
      let (text, rest) := bareText depth inSet true r
      (c :: text, rest)

/-- The value of a named condition, `width` characters behind the condition's start. -/
def valueOf (depth : Nat) (field : String) (op : Operator) (width : Nat) (s : List Char) :
    Step (Literal × List Char) :=
  match s with
  | '"' :: r =>
    match quotedValue depth r with
    | .ok v => .ok v
    | .error (n, fault) => .error (width + n, fault)
  | c :: r =>
    if isBlank c || closesGroup depth (c :: r) then .error (width, .missingValue field op)
    else
      let (text, rest) := bareText depth false false (c :: r)
      .ok (⟨String.ofList text, false⟩, rest)
  | [] => .error (width, .missingValue field op)

def condition (depth : Nat) (s : List Char) : Step (Token × List Char) :=
  let word := s.takeWhile isNameChar
  match if word.isEmpty then none else operator? (s.dropWhile isNameChar) with
  | some (op, width, r) =>
    let field := String.ofList word
    (valueOf depth field op (word.length + width) r).map fun (v, r) => (.named field op v, r)
  | none =>
    let (text, rest) := bareText depth false false s
    if text == ['O', 'R'] then .ok (.alternative, rest)
    else if text == ['N', 'O', 'T'] then
      if nextVisible rest == some '[' then .ok (.negation, rest) else .error (0, .looseNegation)
    else .ok (.bare ⟨String.ofList text, false⟩, rest)

def next (depth : Nat) (c : Char) (r : List Char) : Step (Token × List Char) :=
  if c == '[' && opensGroup r then .ok (.opening, r)
  else if c == ']' then .ok (.closing, r)
  else if c == '!' && nextVisible r == some '[' then .ok (.negation, r)
  else if c == 'N' && ['O', 'T', '['].isPrefixOf r then .ok (.negation, r.drop 2)
  else if c == '"' then (quotedValue depth r).map fun (v, r) => (.bare v, r)
  else condition depth (c :: r)

def depthAfter (depth : Nat) : Token → Nat
  | .opening => depth + 1
  | .closing => depth - 1
  | _ => depth

theorem length_dropWhile_le (p : Char → Bool) (s : List Char) :
    (s.dropWhile p).length ≤ s.length := (List.dropWhile_sublist p).length_le

theorem length_operator? {s r : List Char} {op : Operator} {n : Nat}
    (h : operator? s = some (op, n, r)) : r.length < s.length := by
  have single {t} (h : operator?.single s = some (op, n, t)) : t.length < s.length := by
    cases s with
    | nil => simp [operator?.single] at h
    | cons c t' =>
      simp only [operator?.single, Option.map_eq_some_iff, Prod.mk.injEq] at h
      obtain ⟨_, _, _, _, rfl⟩ := h
      simp
  unfold operator? at h
  dsimp only at h
  split at h
  · split at h
    · next hop _ =>
      simp only [Option.some.injEq, Prod.mk.injEq] at h
      obtain ⟨_, _, rfl⟩ := h
      cases s with
      | nil => simp [Operator.ofSymbol?] at hop
      | cons c t => simp only [List.length_drop, List.length_cons]; omega
    · exact single h
  · exact single h

theorem length_quotedValue {depth : Nat} {s r : List Char} {v : Literal}
    (h : quotedValue depth s = .ok (v, r)) : r.length < s.length := by
  unfold quotedValue at h
  dsimp only at h
  split at h
  · cases h
  · next c t ht =>
    have hl := length_dropWhile_le (· != '"') s
    rw [ht] at hl
    split at h
    · simp only [Except.ok.injEq, Prod.mk.injEq] at h
      obtain ⟨_, rfl⟩ := h
      simp only [List.length_cons] at hl
      omega
    · cases h

theorem length_bareText (depth : Nat) (inSet started : Bool) (s : List Char) :
    (bareText depth inSet started s).2.length ≤ s.length := by
  induction s generalizing inSet started with
  | nil => simp [bareText]
  | cons c r ih =>
    unfold bareText
    split
    · simp
    · exact Nat.le_succ_of_le (ih _ _)

theorem length_bareText_lt (depth : Nat) {c : Char} (r : List Char) (hc : isBlank c = false) :
    (bareText depth false false (c :: r)).2.length < (c :: r).length := by
  unfold bareText
  simp only [hc, Bool.not_false, Bool.and_false, Bool.false_and, Bool.or_self, Bool.false_eq_true,
    ite_false]
  exact Nat.lt_succ_of_le (length_bareText _ _ _ _)

theorem length_valueOf {depth width : Nat} {field : String} {op : Operator} {s r : List Char}
    {v : Literal} (h : valueOf depth field op width s = .ok (v, r)) : r.length < s.length := by
  unfold valueOf at h
  split at h
  · split at h
    · next hq =>
      cases h
      exact Nat.lt_succ_of_lt (length_quotedValue hq)
    · cases h
  · next c t _ =>
    split at h
    · cases h
    · next hc =>
      simp only [Except.ok.injEq, Prod.mk.injEq] at h
      obtain ⟨_, rfl⟩ := h
      simp only [Bool.or_eq_true, not_or, Bool.not_eq_true] at hc
      exact length_bareText_lt _ _ hc.1
  · cases h

theorem length_condition {depth : Nat} {c : Char} {s r : List Char} {t : Token}
    (hc : isBlank c = false) (h : condition depth (c :: s) = .ok (t, r)) :
    r.length < (c :: s).length := by
  unfold condition at h
  dsimp only at h
  split at h
  · next op width rest ho =>
    have ho : operator? ((c :: s).dropWhile isNameChar) = some (op, width, rest) := by
      split at ho
      · cases ho
      · exact ho
    have hd := length_dropWhile_le isNameChar (c :: s)
    have hl := length_operator? ho
    cases hv : valueOf depth (String.ofList ((c :: s).takeWhile isNameChar)) op
        (((c :: s).takeWhile isNameChar).length + width) rest with
    | error e => rw [hv] at h; cases h
    | ok p =>
      rw [hv] at h
      simp only [Except.map, Except.ok.injEq, Prod.mk.injEq] at h
      obtain ⟨_, rfl⟩ := h
      have := length_valueOf (v := p.1) (r := p.2) hv
      omega
  · have hl := length_bareText_lt depth s hc
    split at h
    · cases h; exact hl
    · split at h
      · split at h
        · cases h; exact hl
        · cases h
      · cases h; exact hl

theorem length_next {depth : Nat} {c : Char} {s r : List Char} {t : Token}
    (hc : isBlank c = false) (h : next depth c s = .ok (t, r)) : r.length < (c :: s).length := by
  unfold next at h
  split at h
  · cases h; simp
  split at h
  · cases h; simp
  split at h
  · cases h; simp
  split at h
  · cases h; simp only [List.length_drop, List.length_cons]; omega
  split at h
  · cases hq : quotedValue depth s with
    | error e => rw [hq] at h; cases h
    | ok p =>
      rw [hq] at h
      simp only [Except.map, Except.ok.injEq, Prod.mk.injEq] at h
      obtain ⟨_, rfl⟩ := h
      exact Nat.lt_succ_of_lt (length_quotedValue (v := p.1) (r := p.2) hq)
  · exact length_condition hc h

def scanFrom (depth position : Nat) : List Char → Except (Nat × Fault) (List Lexeme)
  | [] => .ok []
  | c :: r =>
    if hc : isBlank c then scanFrom depth (position + 1) r
    else
      match h : next depth c r with
      | .error (n, fault) => .error (position + n, fault)
      | .ok (t, rest) =>
        have : rest.length < (c :: r).length := length_next (by simpa using hc) h
        match scanFrom (depthAfter depth t) (position + ((c :: r).length - rest.length)) rest with
        | .ok ts => .ok (⟨t, position⟩ :: ts)
        | .error e => .error e
termination_by s => s.length
decreasing_by
  · exact Nat.lt_succ_self r.length
  · assumption

def scan (s : String) : Except (Nat × Fault) (List Lexeme) := scanFrom 0 0 s.toList

end Token

end TorrentQuery
