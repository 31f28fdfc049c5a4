import Mathlib.Tactic.Common
import TorrentQuery.Query.Reading

namespace TorrentQuery

open Text

def Literal.Legible (depth : Nat) (v : Literal) : Prop :=
  if v.quoted then '"' ∉ v.text.toList
  else v.text.toList ≠ [] ∧ v.text.toList.head? ≠ some '"' ∧
    Token.closesGroup depth v.text.toList = false ∧
    Token.bareText depth false false v.text.toList = (v.text.toList, [])

/-- What stands behind an operator does not make it another one. -/
def Operator.EndsBefore (op : Operator) (s : List Char) : Prop :=
  match op with
  | .gt => s.head? ≠ some '='
  | .lt => s.head? ≠ some '=' ∧ s.head? ≠ some '>'
  | _ => True

namespace Token

def Legible (depth : Nat) : Token → Prop
  | .named field op v => field.toList.head?.any (!isBlank ·) = true ∧
      (∀ c ∈ field.toList, isNameChar c = true) ∧ v.Legible depth ∧
      (v.quoted = false → op.EndsBefore v.text.toList)
  | .bare v => v.Legible depth
  | _ => True

def AllLegible : Nat → List Token → Prop
  | _, [] => True
  | depth, t :: ts => t.Legible depth ∧ AllLegible (depthAfter depth t) ts

variable {depth : Nat}

def stops (depth : Nat) (inSet started : Bool) (c : Char) : Bool :=
  isBlank c || (!inSet && started && (decide (0 < depth) && some c == some ']'))

theorem bareText_of_stops {inSet started : Bool} {c : Char} {r : List Char}
    (h : stops depth inSet started c = true) :
    bareText depth inSet started (c :: r) = ([], c :: r) := by
  unfold bareText
  exact if_pos h

theorem bareText_of_not_stops {inSet started : Bool} {c : Char}
    (h : stops depth inSet started c = false) :
    ∃ inSet', ∀ r, bareText depth inSet started (c :: r) =
      (c :: (bareText depth inSet' true r).1, (bareText depth inSet' true r).2) := by
  refine ⟨if c == '[' then true else if c == ']' then false else inSet, fun r => ?_⟩
  rw [bareText]
  exact if_neg (by rw [Bool.not_eq_true]; exact h)

theorem bareText_of_boundary {inSet started : Bool} {s : List Char} (h : atBoundary s = true) :
    bareText depth inSet started s = ([], s) := by
  cases s with
  | nil => rfl
  | cons c r =>
    apply bareText_of_stops
    have hc : isBlank c = true := h
    rw [stops, hc, Bool.true_or]

/-- A value has its first character, if that is not blank. -/
theorem bareText_cons {c : Char} (r : List Char) (hc : isBlank c = false) :
    ∃ text rest, bareText depth false false (c :: r) = (c :: text, rest) := by
  have hstop : stops depth false false c = false := by simp [stops, hc]
  obtain ⟨inSet', hstep⟩ := bareText_of_not_stops hstop
  exact ⟨_, _, hstep r⟩

/-- A value that has been read reads in the same way up to the next blank. -/
theorem bareText_append {inSet started : Bool} {s text rest : List Char}
    (h : bareText depth inSet started s = (text, rest)) {tail : List Char}
    (htail : atBoundary tail = true) :
    bareText depth inSet started (text ++ tail) = (text, tail) := by
  induction s generalizing inSet started text with
  | nil =>
    cases h
    exact bareText_of_boundary htail
  | cons c r ih =>
    cases hstop : stops depth inSet started c with
    | true =>
      rw [bareText_of_stops hstop] at h
      cases h
      exact bareText_of_boundary htail
    | false =>
      obtain ⟨inSet', hstep⟩ := bareText_of_not_stops hstop
      rw [hstep] at h
      cases h
      rw [List.cons_append, hstep, ih rfl]

theorem legible_of_bareText {c : Char} {r text rest : List Char} (hblank : isBlank c = false)
    (hquote : c ≠ '"') (hcloses : closesGroup depth (c :: r) = false)
    (h : bareText depth false false (c :: r) = (text, rest)) :
    Literal.Legible depth ⟨String.ofList text, false⟩ ∧ text.head? = some c := by
  have hwhole : bareText depth false false (text ++ []) = (text, []) := bareText_append h rfl
  obtain ⟨text', rest', hcons⟩ : ∃ text' rest',
      bareText depth false false (c :: r) = (c :: text', rest') := bareText_cons r hblank
  rw [hcons] at h
  cases h
  rw [List.append_nil] at hwhole
  refine ⟨?_, rfl⟩
  simp only [Literal.Legible, String.toList_ofList, Bool.false_eq_true, if_false]
  refine ⟨List.cons_ne_nil _ _, ?_, hcloses, hwhole⟩
  intro hhead
  exact hquote (Option.some.inj hhead)

theorem legible_of_quotedValue {s r : List Char} {v : Literal}
    (h : quotedValue depth s = .ok (v, r)) : v.Legible depth ∧ v.quoted = true := by
  unfold quotedValue at h
  dsimp only at h
  split at h
  · cases h
  · split at h
    · cases h
      refine ⟨?_, rfl⟩
      simp only [Literal.Legible, String.toList_ofList, if_true]
      intro hmem
      have hne := List.all_eq_true.1 List.all_takeWhile '"' hmem
      cases hne
    · cases h

/-- An operator is one character in front of what follows, or whatever the first two are. -/
theorem eq_of_operator? {op : Operator} {n : Nat} {s r : List Char}
    (h : operator? s = some (op, n, r)) :
    (∃ c, Operator.ofSymbol? [c] = some op ∧ s = c :: r) ∨
      Operator.ofSymbol? (s.take 2) = some op ∧ r = s.drop 2 := by
  have hsingle (h : operator?.single s = some (op, n, r)) :
      ∃ c, Operator.ofSymbol? [c] = some op ∧ s = c :: r := by
    cases s with
    | nil => cases h
    | cons c r' =>
      obtain ⟨op', hop, heq⟩ := Option.map_eq_some_iff.1 h
      cases heq
      exact ⟨c, hop, rfl⟩
  unfold operator? at h
  dsimp only at h
  split at h
  · next hop =>
    split at h
    · cases h
      exact .inr ⟨hop, rfl⟩
    · exact .inl (hsingle h)
  · exact .inl (hsingle h)

theorem eq_of_ofSymbol?_gt {s : List Char} (h : Operator.ofSymbol? s = some .gt) : s = ['>'] := by
  unfold Operator.ofSymbol? at h
  split at h <;> first | rfl | cases h

theorem eq_of_ofSymbol?_lt {s : List Char} (h : Operator.ofSymbol? s = some .lt) : s = ['<'] := by
  unfold Operator.ofSymbol? at h
  split at h <;> first | rfl | cases h

/-- An operator is read as far as it goes. -/
theorem endsBefore_of_operator? {op : Operator} {n : Nat} {s r : List Char}
    (h : operator? s = some (op, n, r)) : op.EndsBefore r := by
  have hdrop {c : Char} (hs : s.take 2 = [c]) : s.drop 2 = [] := by
    match s, hs with
    | [_], _ => rfl
  cases op with
  | gt =>
    intro hhead
    -- with one more character it would have been read as another operator
    rcases eq_of_operator? h with ⟨c, hc, rfl⟩ | ⟨hs, rfl⟩
    · cases eq_of_ofSymbol?_gt hc
      obtain ⟨r', rfl⟩ := List.head?_eq_some_iff.1 hhead
      cases h
    · rw [hdrop (eq_of_ofSymbol?_gt hs)] at hhead
      cases hhead
  | lt =>
    rcases eq_of_operator? h with ⟨c, hc, rfl⟩ | ⟨hs, rfl⟩
    · cases eq_of_ofSymbol?_lt hc
      constructor
      · intro hhead
        obtain ⟨r', rfl⟩ := List.head?_eq_some_iff.1 hhead
        cases h
      · intro hhead
        obtain ⟨r', rfl⟩ := List.head?_eq_some_iff.1 hhead
        cases h
    · rw [hdrop (eq_of_ofSymbol?_lt hs)]
      exact ⟨fun hhead => (nomatch hhead), fun hhead => (nomatch hhead)⟩
  | _ => trivial

theorem endsBefore_congr {op : Operator} {s t : List Char} (hst : s.head? = t.head?)
    (h : op.EndsBefore s) : op.EndsBefore t := by
  unfold Operator.EndsBefore at h ⊢
  rwa [hst] at h

theorem legible_of_valueOf {field : String} {op : Operator} {width : Nat} {s r : List Char}
    {v : Literal} (h : valueOf depth field op width s = .ok (v, r)) :
    v.Legible depth ∧ (v.quoted = false → v.text.toList.head? = s.head?) := by
  unfold valueOf at h
  split at h
  · split at h
    · next hq =>
      cases h
      obtain ⟨hlegible, hquoted⟩ := legible_of_quotedValue hq
      refine ⟨hlegible, fun hf => ?_⟩
      rw [hquoted] at hf
      cases hf
    · cases h
  · next c r hquote =>
    split at h
    · cases h
    · next hc =>
      simp only [Bool.or_eq_true, not_or, Bool.not_eq_true] at hc
      cases h
      obtain ⟨hlegible, hhead⟩ := legible_of_bareText hc.1 hquote hc.2 rfl
      rw [String.toList_ofList]
      exact ⟨hlegible, fun _ => hhead⟩
  · cases h

theorem legible_of_condition {c : Char} {s r : List Char} {t : Token} (hblank : isBlank c = false)
    (hquote : c ≠ '"') (hcloses : closesGroup depth (c :: s) = false)
    (h : condition depth (c :: s) = .ok (t, r)) : t.Legible depth := by
  unfold condition at h
  dsimp only at h
  split at h
  · next op width rest hop =>
    split at hop
    · cases hop
    · next hword =>
      cases hv : valueOf depth (String.ofList ((c :: s).takeWhile isNameChar)) op
          (((c :: s).takeWhile isNameChar).length + width) rest with
      | error e =>
        rw [hv] at h
        cases h
      | ok p =>
        rw [hv] at h
        cases h
        obtain ⟨hlegible, hhead⟩ := legible_of_valueOf (v := p.1) (r := p.2) hv
        refine ⟨?_, ?_, hlegible, ?_⟩
        · have hname : isNameChar c = true := by
            by_contra hname
            simp [hname] at hword
          rw [String.toList_ofList, List.takeWhile_cons_of_pos hname]
          simp [hblank]
        · rw [String.toList_ofList]
          exact List.all_eq_true.1 List.all_takeWhile
        · intro hbare
          exact endsBefore_congr (hhead hbare).symm (endsBefore_of_operator? hop)
  · split at h
    · cases h
      trivial
    · split at h
      · split at h
        · cases h
          trivial
        · cases h
      · cases h
        exact (legible_of_bareText hblank hquote hcloses rfl).1

theorem legible_of_next {c : Char} {s r : List Char} {t : Token} (hblank : isBlank c = false)
    (h : next depth c s = .ok (t, r)) : t.Legible depth := by
  unfold next at h
  split at h
  · cases h
    trivial
  split at h
  · cases h
    trivial
  -- from here on the token is a value or a condition
  next hclosing =>
  split at h
  · cases h
    trivial
  split at h
  · cases h
    trivial
  split at h
  · cases hq : quotedValue depth s with
    | error e =>
      rw [hq] at h
      cases h
    | ok p =>
      rw [hq] at h
      cases h
      exact (legible_of_quotedValue (v := p.1) (r := p.2) hq).1
  next hquote =>
  apply legible_of_condition hblank _ _ h
  · simpa using hquote
  · have hc : c ≠ ']' := by simpa using hclosing
    simp [closesGroup, hc]

theorem allLegible_of_scanFrom {position : Nat} {s : List Char} {ls : List Lexeme}
    (h : scanFrom depth position s = .ok ls) : AllLegible depth (ls.map Lexeme.token) := by
  fun_induction scanFrom depth position s generalizing ls with
  | case1 =>
    cases h
    trivial
  | case2 depth position c r hblank ih => exact ih h
  | case3 => cases h
  | case4 depth position c r hblank t rest hnext _ ts _ ih =>
    cases h
    exact ⟨legible_of_next (by simpa using hblank) hnext, ih ‹_›⟩
  | case5 => cases h

end Token

namespace Cond

mutual

/-- Each condition satisfies `leaf`, given how many groups it is in, and no list in it is empty. -/
def Each (leaf : Nat → Token → Prop) (depth : Nat) : Cond → Prop
  | .named field op v => leaf depth (.named field op v)
  | .bare v => leaf depth (.bare v)
  | .group _ body => body ≠ [] ∧ EachOfStmt leaf (depth + 1) body

def EachOfAll (leaf : Nat → Token → Prop) (depth : Nat) : List Cond → Prop
  | [] => True
  | c :: r => Each leaf depth c ∧ EachOfAll leaf depth r

def EachOfStmt (leaf : Nat → Token → Prop) (depth : Nat) : List (List Cond) → Prop
  | [] => True
  | cs :: r => cs ≠ [] ∧ EachOfAll leaf depth cs ∧ EachOfStmt leaf depth r

end

variable {leaf : Nat → Token → Prop} {depth : Nat}

theorem eachOfAll_append {a b : List Cond} (ha : EachOfAll leaf depth a)
    (hb : EachOfAll leaf depth b) : EachOfAll leaf depth (a ++ b) := by
  induction a with
  | nil => exact hb
  | cons c a ih => exact ⟨ha.1, ih ha.2⟩

theorem eachOfStmt_append {a b : List (List Cond)} (ha : EachOfStmt leaf depth a)
    (hb : EachOfStmt leaf depth b) : EachOfStmt leaf depth (a ++ b) := by
  induction a with
  | nil => exact hb
  | cons c a ih => exact ⟨ha.1, ha.2.1, ih ha.2.2⟩

end Cond

def Draft.Legible (depth : Nat) (d : Draft) : Prop :=
  Cond.EachOfStmt Token.Legible depth d.finished ∧ Cond.EachOfAll Token.Legible depth d.current

namespace Draft

variable {depth : Nat} {d : Draft}

theorem legible_new : ({} : Draft).Legible depth := ⟨trivial, trivial⟩

theorem Legible.add {c : Cond} (hd : d.Legible depth) (hc : c.Each Token.Legible depth) :
    (d.add c).Legible depth :=
  ⟨hd.1, Cond.eachOfAll_append hd.2 ⟨hc, trivial⟩⟩

theorem Legible.close (hd : d.Legible depth) (hne : d.current ≠ []) :
    d.close ≠ [] ∧ Cond.EachOfStmt Token.Legible depth d.close :=
  ⟨by simp [Draft.close], Cond.eachOfStmt_append hd.1 ⟨hne, hd.2, trivial⟩⟩

theorem Legible.nextAlternative (hd : d.Legible depth) (hne : d.current ≠ []) :
    d.nextAlternative.Legible depth :=
  ⟨(hd.close hne).2, trivial⟩

end Draft

def OpenGroup.AllLegible : List OpenGroup → Prop
  | [] => True
  | g :: stack => g.outer.Legible stack.length ∧ AllLegible stack

namespace Stmt

/-- As many groups are open for the reader as there were for the scanner. -/
theorem legible_of_ofLexemesFrom {length : Nat} {d : Draft} {stack : List OpenGroup}
    {ls : List Lexeme} {s : Stmt} (h : ofLexemesFrom length d stack ls = .ok s)
    (hd : d.Legible stack.length) (hstack : OpenGroup.AllLegible stack)
    (hls : Token.AllLegible stack.length (ls.map Lexeme.token)) :
    s ≠ [] ∧ Cond.EachOfStmt Token.Legible 0 s := by
  -- closing a group hands its statement, which is legible one level deeper, to the one around it
  fun_induction ofLexemesFrom length d stack ls with
  | case1 => cases h
  | case2 d hne =>
    cases h
    exact hd.close (by simpa using hne)
  | case3 => cases h
  | case4 d stack p r ih => exact ih h Draft.legible_new ⟨hd, hstack⟩ hls.2
  | case5 d stack p q r ih => exact ih h Draft.legible_new ⟨hd, hstack⟩ hls.2.2
  | case6 => cases h
  | case7 d stack field op v p r ih => exact ih h (hd.add hls.1) hstack hls.2
  | case8 d stack v p r ih => exact ih h (hd.add hls.1) hstack hls.2
  | case9 => cases h
  | case10 d stack p r hne ih => exact ih h (hd.nextAlternative (by simpa using hne)) hstack hls.2
  | case11 => cases h
  | case12 => cases h
  | case13 d p r hne g stack ih =>
    exact ih h (hstack.1.add (hd.close (by simpa using hne))) hstack.2 hls.2

/-- Every filter that has been read is legible. -/
theorem legible_of_read {text : String} {s : Stmt} (h : Stmt.read text = .ok s) :
    s ≠ [] ∧ Cond.EachOfStmt Token.Legible 0 s := by
  unfold Stmt.read at h
  split at h
  · cases h
  next ls hls =>
  split at h
  · cases h
  next hstmt =>
  cases h
  unfold ofLexemes at hstmt
  split at hstmt
  · cases hstmt
  · exact legible_of_ofLexemesFrom hstmt Draft.legible_new trivial
      (Token.allLegible_of_scanFrom hls)

end Stmt

end TorrentQuery
