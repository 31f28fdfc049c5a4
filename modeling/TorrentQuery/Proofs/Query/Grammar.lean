import Mathlib.Data.List.Basic
import TorrentQuery.Proofs.Query.Legible
import TorrentQuery.Proofs.Query.RoundTrip

namespace TorrentQuery

open Text

inductive Phrase where
  | statement
  | conditions
  | condition

/-- The tokens that can stand for a phrase. -/
inductive Derives : Phrase → List Token → Prop
  | conditions {ts} : Derives .conditions ts → Derives .statement ts
  | alternative {ts us} : Derives .conditions ts → Derives .statement us →
      Derives .statement (ts ++ .alternative :: us)
  | condition {ts} : Derives .condition ts → Derives .conditions ts
  | further {ts us} : Derives .condition ts → Derives .conditions us →
      Derives .conditions (ts ++ us)
  | group {ts} (negated : Bool) : Derives .statement ts →
      Derives .condition ((if negated then [.negation] else []) ++ .opening :: (ts ++ [.closing]))
  | named (field op v) : Derives .condition [.named field op v]
  | bare (v) : Derives .condition [.bare v]

/-- Neither the statement nor a list in it is empty. -/
def Stmt.Full (s : Stmt) : Prop := s ≠ [] ∧ Cond.EachOfStmt (fun _ _ => True) 0 s

namespace Cond

variable {leaf other : Nat → Token → Prop}

mutual

theorem Each.imp (h : ∀ m n t, leaf m t → other n t) :
    {c : Cond} → {m n : Nat} → c.Each leaf m → c.Each other n
  | .named _ _ _, _, _, hc => h _ _ _ hc
  | .bare _, _, _, hc => h _ _ _ hc
  | .group _ _, _, _, hc => ⟨hc.1, EachOfStmt.imp h hc.2⟩

theorem EachOfAll.imp (h : ∀ m n t, leaf m t → other n t) :
    {cs : List Cond} → {m n : Nat} → EachOfAll leaf m cs → EachOfAll other n cs
  | [], _, _, _ => trivial
  | _ :: _, _, _, hcs => ⟨Each.imp h hcs.1, EachOfAll.imp h hcs.2⟩

theorem EachOfStmt.imp (h : ∀ m n t, leaf m t → other n t) :
    {s : List (List Cond)} → {m n : Nat} → EachOfStmt leaf m s → EachOfStmt other n s
  | [], _, _, _ => trivial
  | _ :: _, _, _, hs => ⟨hs.1, EachOfAll.imp h hs.2.1, EachOfStmt.imp h hs.2.2⟩

end

mutual

theorem derives_tokens : {c : Cond} → {depth : Nat} → c.Each leaf depth →
    Derives .condition c.tokens
  | .named field op v, _, _ => .named field op v
  | .bare v, _, _ => .bare v
  | .group negated _, _, hc => .group negated (derives_tokensOfStmt hc.1 hc.2)

theorem derives_tokensOfAll : {cs : List Cond} → {depth : Nat} → cs ≠ [] →
    EachOfAll leaf depth cs → Derives .conditions (tokensOfAll cs)
  | [c], _, _, hcs => by
    rw [tokensOfAll, tokensOfAll, List.append_nil]
    exact .condition (derives_tokens hcs.1)
  | _ :: _ :: _, _, _, hcs =>
    .further (derives_tokens hcs.1) (derives_tokensOfAll (List.cons_ne_nil _ _) hcs.2)

theorem derives_tokensOfStmt : {s : List (List Cond)} → {depth : Nat} → s ≠ [] →
    EachOfStmt leaf depth s → Derives .statement (tokensOfStmt s)
  | [_], _, _, hs => .conditions (derives_tokensOfAll hs.1 hs.2.1)
  | _ :: _ :: _, _, _, hs => .alternative (derives_tokensOfAll hs.1 hs.2.1)
      (derives_tokensOfStmt (List.cons_ne_nil _ _) hs.2.2)

end

def Derivation : Phrase → List Token → Prop
  | .statement, ts => ∃ s : Stmt, s.Full ∧ tokensOfStmt s = ts
  | .conditions, ts => ∃ cs, cs ≠ [] ∧ EachOfAll (fun _ _ => True) 0 cs ∧ tokensOfAll cs = ts
  | .condition, ts => ∃ c : Cond, c.Each (fun _ _ => True) 0 ∧ c.tokens = ts

theorem tokensOfStmt_cons {s : List (List Cond)} (hs : s ≠ []) (cs : List Cond) :
    tokensOfStmt (cs :: s) = tokensOfAll cs ++ .alternative :: tokensOfStmt s := by
  cases s with
  | nil => exact absurd rfl hs
  | cons ds r => rfl

theorem derivation_of_derives {phrase : Phrase} {ts : List Token} (h : Derives phrase ts) :
    Derivation phrase ts := by
  induction h with
  | conditions _ ih =>
    obtain ⟨cs, hne, hcs, rfl⟩ := ih
    exact ⟨[cs], ⟨List.cons_ne_nil _ _, hne, hcs, trivial⟩, rfl⟩
  | alternative _ _ ihc ihs =>
    obtain ⟨cs, hne, hcs, rfl⟩ := ihc
    obtain ⟨s, hs, rfl⟩ := ihs
    exact ⟨cs :: s, ⟨List.cons_ne_nil _ _, hne, hcs, hs.2⟩, tokensOfStmt_cons hs.1 cs⟩
  | condition _ ih =>
    obtain ⟨c, hc, rfl⟩ := ih
    exact ⟨[c], List.cons_ne_nil _ _, ⟨hc, trivial⟩, List.append_nil _⟩
  | further _ _ ihc ihcs =>
    obtain ⟨c, hc, rfl⟩ := ihc
    obtain ⟨cs, -, hcs, rfl⟩ := ihcs
    exact ⟨c :: cs, List.cons_ne_nil _ _, ⟨hc, hcs⟩, rfl⟩
  | group negated _ ih =>
    obtain ⟨s, hs, rfl⟩ := ih
    exact ⟨.group negated s, ⟨hs.1, EachOfStmt.imp (fun _ _ _ h => h) hs.2⟩, rfl⟩
  | named field op v => exact ⟨.named field op v, trivial, rfl⟩
  | bare v => exact ⟨.bare v, trivial, rfl⟩

/-- The statements of the grammar are those that full trees are written with. -/
theorem derives_statement_iff {ts : List Token} :
    Derives .statement ts ↔ ∃ s : Stmt, s.Full ∧ tokensOfStmt s = ts := by
  constructor
  · exact derivation_of_derives
  · rintro ⟨s, hs, rfl⟩
    exact derives_tokensOfStmt hs.1 hs.2

end Cond

namespace Draft

def tokens (d : Draft) : List Token :=
  d.finished.flatMap (fun cs => Cond.tokensOfAll cs ++ [.alternative]) ++ Cond.tokensOfAll d.current

theorem tokensOfAll_append (a b : List Cond) :
    Cond.tokensOfAll (a ++ b) = Cond.tokensOfAll a ++ Cond.tokensOfAll b := by
  induction a with
  | nil => rfl
  | cons c a ih => rw [List.cons_append, Cond.tokensOfAll, Cond.tokensOfAll, ih, List.append_assoc]

theorem tokens_add (d : Draft) (c : Cond) : (d.add c).tokens = d.tokens ++ c.tokens := by
  rw [tokens, tokens, add, tokensOfAll_append, ← List.append_assoc]
  simp [Cond.tokensOfAll]

theorem tokens_nextAlternative (d : Draft) :
    d.nextAlternative.tokens = d.tokens ++ [.alternative] := by
  simp [tokens, nextAlternative, Cond.tokensOfAll]

theorem tokensOfStmt_close (d : Draft) : Cond.tokensOfStmt d.close = d.tokens := by
  obtain ⟨finished, current⟩ := d
  induction finished with
  | nil => rfl
  | cons cs r ih =>
    have hne : r ++ [current] ≠ [] := by simp
    rw [close, List.cons_append, Cond.tokensOfStmt_cons hne]
    rw [close] at ih
    simp [ih, tokens]

end Draft

/-- The tokens that have been read in front of what is being read in the innermost group. -/
def OpenGroup.tokens : List OpenGroup → List Token
  | [] => []
  | g :: stack => OpenGroup.tokens stack ++ g.outer.tokens ++
      ((if g.negated then [.negation] else []) ++ [.opening])

namespace Stmt

/-- No token is lost or moved: what has been read and what is left make up the statement. -/
theorem tokensOfStmt_of_ofLexemesFrom {length : Nat} {d : Draft} {stack : List OpenGroup}
    {ls : List Lexeme} {s : Stmt} (h : ofLexemesFrom length d stack ls = .ok s) :
    Cond.tokensOfStmt s = OpenGroup.tokens stack ++ d.tokens ++ ls.map Lexeme.token := by
  fun_induction ofLexemesFrom length d stack ls with
  | case1 => cases h
  | case2 d hne =>
    cases h
    simp [Draft.tokensOfStmt_close, OpenGroup.tokens]
  | case3 => cases h
  | case4 d stack p r ih => simp [ih h, OpenGroup.tokens, Draft.tokens, Cond.tokensOfAll]
  | case5 d stack p q r ih => simp [ih h, OpenGroup.tokens, Draft.tokens, Cond.tokensOfAll]
  | case6 => cases h
  | case7 d stack field op v p r ih => simp [ih h, Draft.tokens_add, Cond.tokens]
  | case8 d stack v p r ih => simp [ih h, Draft.tokens_add, Cond.tokens]
  | case9 => cases h
  | case10 d stack p r hne ih => simp [ih h, Draft.tokens_nextAlternative]
  | case11 => cases h
  | case12 => cases h
  | case13 d p r hne g stack ih =>
    simp [ih h, Draft.tokens_add, Cond.tokens, Draft.tokensOfStmt_close, OpenGroup.tokens]

theorem full_of_read {text : String} {s : Stmt} (h : read text = .ok s) : s.Full := by
  obtain ⟨hne, hs⟩ := legible_of_read h
  exact ⟨hne, Cond.EachOfStmt.imp (fun _ _ _ _ => trivial) hs⟩

/-- A filter is read as the one full statement that is written with its tokens. -/
theorem read_eq_ok_iff {text : String} {ls : List Lexeme} (hscan : Token.scan text = .ok ls)
    {s : Stmt} :
    read text = .ok s ↔ s.Full ∧ Cond.tokensOfStmt s = ls.map Lexeme.token := by
  constructor
  · intro h
    refine ⟨full_of_read h, ?_⟩
    unfold read at h
    rw [hscan] at h
    dsimp only at h
    split at h
    · cases h
    next hstmt =>
    cases h
    unfold ofLexemes at hstmt
    split at hstmt
    · cases hstmt
    · rw [tokensOfStmt_of_ofLexemesFrom hstmt]
      rfl
  · rintro ⟨hs, htokens⟩
    have hlexemes : ofLexemes text.length ls = .ok s :=
      ofLexemes_tokensOfStmt hs.1 hs.2 htokens.symm
    unfold read
    rw [hscan]
    simp only [hlexemes]

end Stmt

/-- An operator of one character has no other symbol. -/
theorem Operator.symbol_of_ofSymbol? {c : Char} {op : Operator} (h : ofSymbol? [c] = some op) :
    op.symbol.toList = [c] := by
  unfold ofSymbol? at h
  split at h <;> cases h
  all_goals next heq => cases heq <;> rfl

/-- A place of the text, or the place just behind it, if there an operator of one character lacks
its value. -/
def Fault.Within (p : Nat) (fault : Fault) (s : List Char) : Prop :=
  p ≤ s.length ∨ ∃ field op, op.symbol.length = 1 ∧ fault = .missingValue field op ∧
    p = s.length + 1 ∧ field.toList ++ op.symbol.toList <:+ s

/-- A place in the end of a text is one in the text. -/
theorem Fault.Within.of_suffix {fault : Fault} {n : Nat} {r s : List Char} (h : fault.Within n r)
    (hr : r <:+ s) : fault.Within (s.length - r.length + n) s := by
  have hlen := hr.length_le
  rcases h with hn | ⟨field, op, hop, hfault, hn, hsuffix⟩
  · exact .inl (by omega)
  · exact .inr ⟨field, op, hop, hfault, by omega, hsuffix.trans hr⟩

namespace Token

variable {depth : Nat}

section Suffix

theorem suffix_of_quotedValue {s r : List Char} {v : Literal}
    (h : quotedValue depth s = .ok (v, r)) : r <:+ '"' :: s :=
  ⟨_, (eq_append_of_quotedValue h).symm⟩

theorem suffix_bareText (inSet started : Bool) (s : List Char) :
    (bareText depth inSet started s).2 <:+ s := ⟨_, append_bareText depth inSet started s⟩

theorem suffix_of_operator? {op : Operator} {n : Nat} {s r : List Char}
    (h : operator? s = some (op, n, r)) : r <:+ s := by
  rcases eq_of_operator? h with ⟨c, -, rfl⟩ | ⟨-, rfl⟩
  · exact List.suffix_cons c r
  · exact List.drop_suffix 2 s

theorem suffix_of_valueOf {field : String} {op : Operator} {width : Nat} {s r : List Char}
    {v : Literal} (h : valueOf depth field op width s = .ok (v, r)) : r <:+ s :=
  ⟨_, (eq_append_of_valueOf h).symm⟩

theorem suffix_of_condition {s r : List Char} {t : Token} (h : condition depth s = .ok (t, r)) :
    r <:+ s := by
  unfold condition at h
  dsimp only at h
  split at h
  · next op width rest hop =>
    split at hop
    · cases hop
    · cases hv : valueOf depth (String.ofList (s.takeWhile isNameChar)) op
          ((s.takeWhile isNameChar).length + width) rest with
      | error e =>
        rw [hv] at h
        cases h
      | ok p =>
        rw [hv] at h
        cases h
        exact ((suffix_of_valueOf (v := p.1) (r := p.2) hv).trans (suffix_of_operator? hop)).trans
          (List.dropWhile_suffix _)
  · split at h
    · cases h
      exact suffix_bareText _ _ _
    · split at h
      · split at h
        · cases h
          exact suffix_bareText _ _ _
        · cases h
      · cases h
        exact suffix_bareText _ _ _

theorem suffix_of_next {c : Char} {s r : List Char} {t : Token}
    (h : next depth c s = .ok (t, r)) : r <:+ c :: s := by
  unfold next at h
  split at h
  · cases h
    exact List.suffix_cons c s
  split at h
  · cases h
    exact List.suffix_cons c s
  split at h
  · cases h
    exact List.suffix_cons c s
  split at h
  · cases h
    exact (List.drop_suffix 2 s).trans (List.suffix_cons c s)
  split at h
  · next hquote =>
    obtain rfl := eq_of_beq hquote
    cases hq : quotedValue depth s with
    | error e =>
      rw [hq] at h
      cases h
    | ok p =>
      rw [hq] at h
      cases h
      exact suffix_of_quotedValue (v := p.1) (r := p.2) hq
  · exact suffix_of_condition h

end Suffix

section Fault

theorem length_of_quotedValue_error {s : List Char} {n : Nat} {fault : Fault}
    (h : quotedValue depth s = .error (n, fault)) : n ≤ s.length + 1 := by
  have hlen := congrArg List.length (List.takeWhile_append_dropWhile (p := (· != '"')) (l := s))
  rw [List.length_append] at hlen
  unfold quotedValue at h
  dsimp only at h
  split at h
  · cases h
    exact Nat.zero_le _
  · next ht =>
    rw [ht, List.length_cons] at hlen
    split at h
    · cases h
    · cases h
      omega

theorem length_of_valueOf_error {field : String} {op : Operator} {width n : Nat} {s : List Char}
    {fault : Fault} (h : valueOf depth field op width s = .error (n, fault)) :
    n ≤ width + s.length := by
  unfold valueOf at h
  split at h
  · split at h
    · cases h
    · next hq =>
      cases h
      have := length_of_quotedValue_error hq
      simp only [List.length_cons]
      omega
  · split at h
    · cases h
      exact Nat.le_add_right _ _
    · cases h
  · cases h
    exact Nat.le_add_right _ _

/-- An operator is as wide as it says, unless it is one character and the text ends with it. -/
theorem width_of_operator? {op : Operator} {n : Nat} {s r : List Char}
    (h : operator? s = some (op, n, r)) :
    n + r.length = s.length ∨ s = op.symbol.toList ∧ n = 2 ∧ s.length = 1 ∧ r = [] := by
  have hsingle (h : operator?.single s = some (op, n, r)) : n + r.length = s.length := by
    cases s with
    | nil => cases h
    | cons c r' =>
      obtain ⟨op', -, heq⟩ := Option.map_eq_some_iff.1 h
      cases heq
      exact Nat.add_comm 1 _
  unfold operator? at h
  dsimp only at h
  split at h
  · next hop =>
    split at h
    · cases h
      match s with
      | [] => cases hop
      | [c] =>
        exact .inr ⟨(Operator.symbol_of_ofSymbol? hop).symm, rfl, rfl, rfl⟩
      | _ :: _ :: r =>
        exact .inl (Nat.add_comm 2 _)
    · exact .inl (hsingle h)
  · exact .inl (hsingle h)

theorem within_of_condition_error {s : List Char} {n : Nat} {fault : Fault}
    (h : condition depth s = .error (n, fault)) : fault.Within n s := by
  have hlen := congrArg List.length (List.takeWhile_append_dropWhile (p := isNameChar) (l := s))
  rw [List.length_append] at hlen
  unfold condition at h
  dsimp only at h
  split at h
  · next op width rest hop =>
    split at hop
    · cases hop
    · cases hv : valueOf depth (String.ofList (s.takeWhile isNameChar)) op
          ((s.takeWhile isNameChar).length + width) rest with
      | ok p =>
        rw [hv] at h
        cases h
      | error e =>
        rw [hv] at h
        cases h
        rcases width_of_operator? hop with hwidth | ⟨hs, rfl, hone, rfl⟩
        · have := length_of_valueOf_error hv
          exact .inl (by omega)
        · cases hv
          have hsymbol : op.symbol.length = 1 := by rw [← String.length_toList, ← hs, hone]
          refine .inr ⟨_, op, hsymbol, rfl, by omega, [], ?_⟩
          rw [List.nil_append, ← hs, String.toList_ofList, List.takeWhile_append_dropWhile]
  · split at h
    · cases h
    · split at h
      · split at h
        · cases h
        · cases h
          exact .inl (Nat.zero_le _)
      · cases h

theorem within_of_next_error {c : Char} {s : List Char} {n : Nat} {fault : Fault}
    (h : next depth c s = .error (n, fault)) : fault.Within n (c :: s) := by
  unfold next at h
  split at h
  · cases h
  split at h
  · cases h
  split at h
  · cases h
  split at h
  · cases h
  split at h
  · cases hq : quotedValue depth s with
    | ok p =>
      rw [hq] at h
      cases h
    | error e =>
      rw [hq] at h
      cases h
      exact .inl (length_of_quotedValue_error hq)
  · exact within_of_condition_error h

theorem within_of_scanFrom_error {position p : Nat} {s : List Char} {fault : Fault}
    (h : scanFrom depth position s = .error (p, fault)) :
    ∃ n, p = position + n ∧ fault.Within n s := by
  fun_induction scanFrom depth position s with
  | case1 => cases h
  | case2 depth position c r hc ih =>
    obtain ⟨n, rfl, hn⟩ := ih h
    have := hn.of_suffix (List.suffix_cons c r)
    refine ⟨_, ?_, this⟩
    simp only [List.length_cons]
    omega
  | case3 depth position c r hc n fault hnext =>
    cases h
    exact ⟨n, rfl, within_of_next_error hnext⟩
  | case4 => cases h
  | case5 depth position c r hc t rest hnext hlt e hrest ih =>
    cases h
    obtain ⟨n, rfl, hn⟩ := ih hrest
    exact ⟨_, Nat.add_assoc _ _ _, hn.of_suffix (suffix_of_next hnext)⟩

theorem position_of_scanFrom {position : Nat} {s : List Char} {ls : List Lexeme}
    (h : scanFrom depth position s = .ok ls) :
    ∀ l ∈ ls, l.position ≤ position + s.length := by
  fun_induction scanFrom depth position s generalizing ls with
  | case1 =>
    cases h
    exact fun _ hl => absurd hl List.not_mem_nil
  | case2 depth position c r hc ih =>
    intro l hl
    have := ih h l hl
    simp only [List.length_cons]
    omega
  | case3 => cases h
  | case4 depth position c r hc t rest hnext hlt ls' hrest ih =>
    cases h
    rw [List.forall_mem_cons]
    refine ⟨Nat.le_add_right _ _, fun l hl => ?_⟩
    have := ih hrest l hl
    omega
  | case5 => cases h

end Fault

end Token

namespace Stmt

theorem position_of_ofLexemesFrom_error {length p : Nat} {d : Draft} {stack : List OpenGroup}
    {ls : List Lexeme} {fault : Fault}
    (h : ofLexemesFrom length d stack ls = .error (p, fault))
    (hls : ∀ l ∈ ls, l.position ≤ length) (hstack : ∀ g ∈ stack, g.position ≤ length) :
    p ≤ length := by
  fun_induction ofLexemesFrom length d stack ls with
  | case1 =>
    cases h
    exact Nat.le_refl _
  | case2 => cases h
  | case3 d hne g stack =>
    cases h
    exact hstack g List.mem_cons_self
  | case4 d stack p r ih =>
    rw [List.forall_mem_cons] at hls
    exact ih h hls.2 (List.forall_mem_cons.2 ⟨hls.1, hstack⟩)
  | case5 d stack p q r ih =>
    rw [List.forall_mem_cons, List.forall_mem_cons] at hls
    exact ih h hls.2.2 (List.forall_mem_cons.2 ⟨hls.2.1, hstack⟩)
  | case6 d stack p =>
    cases h
    exact (List.forall_mem_cons.1 hls).1
  | case7 d stack field op v p r ih => exact ih h (List.forall_mem_cons.1 hls).2 hstack
  | case8 d stack v p r ih => exact ih h (List.forall_mem_cons.1 hls).2 hstack
  | case9 d stack p =>
    cases h
    exact (List.forall_mem_cons.1 hls).1
  | case10 d stack p r hne ih => exact ih h (List.forall_mem_cons.1 hls).2 hstack
  | case11 d stack p =>
    cases h
    exact (List.forall_mem_cons.1 hls).1
  | case12 d p =>
    cases h
    exact (List.forall_mem_cons.1 hls).1
  | case13 d p r hne g stack ih =>
    exact ih h (List.forall_mem_cons.1 hls).2 (List.forall_mem_cons.1 hstack).2

/-- A text that is no filter is told so with a place of it. -/
theorem within_of_read_error {text : String} {e : QueryError} (h : read text = .error e) :
    ∃ p fault, e = .malformed text p fault ∧ fault.Within p text.toList := by
  unfold read at h
  split at h
  · next p fault hscan =>
    cases h
    obtain ⟨n, hp, hn⟩ := Token.within_of_scanFrom_error hscan
    rw [Nat.zero_add] at hp
    exact ⟨p, fault, rfl, hp ▸ hn⟩
  · next ls hscan =>
    have hls := Token.position_of_scanFrom hscan
    rw [Nat.zero_add, String.length_toList] at hls
    split at h
    · next p fault hstmt =>
      cases h
      refine ⟨p, fault, rfl, .inl ?_⟩
      rw [String.length_toList]
      unfold ofLexemes at hstmt
      split at hstmt
      · cases hstmt
        exact Nat.zero_le _
      · exact position_of_ofLexemesFrom_error hstmt hls (fun _ hg => absurd hg List.not_mem_nil)
    · cases h

/-- A text is a filter just when its tokens form a statement of the grammar; what is read is the one
full statement that is written with these tokens. A text that is no filter is told so with a place
of it, or with the place just behind it where the text ends with an operator of a condition. -/
theorem read_iff_derives (text : String) :
    (∀ ls, Token.scan text = .ok ls →
      ((∃ s, read text = .ok s) ↔ Derives .statement (ls.map Lexeme.token)) ∧
      ∀ s, read text = .ok s ↔ s.Full ∧ Cond.tokensOfStmt s = ls.map Lexeme.token) ∧
    ∀ e, read text = .error e →
      ∃ p fault, e = .malformed text p fault ∧ fault.Within p text.toList := by
  refine ⟨fun ls hscan => ⟨?_, fun s => read_eq_ok_iff hscan⟩, fun e => within_of_read_error⟩
  rw [Cond.derives_statement_iff]
  exact exists_congr fun s => read_eq_ok_iff hscan

theorem read_iff_derives_negated_group :
    (∃ s, read "! [ a OR b=1 ]" = .ok s) ∧
    ∃ p fault, QueryError.malformed "[ a" 0 .unmatchedOpening = .malformed "[ a" p fault ∧
      fault.Within p "[ a".toList := by
  have hscan : Token.scan "! [ a OR b=1 ]" = .ok [⟨.negation, 0⟩, ⟨.opening, 2⟩,
      ⟨.bare ⟨"a", false⟩, 4⟩, ⟨.alternative, 6⟩, ⟨.named "b" .eq ⟨"1", false⟩, 9⟩,
      ⟨.closing, 13⟩] := by with_unfolding_all rfl
  refine ⟨((read_iff_derives "! [ a OR b=1 ]").1 _ hscan).1.2 ?_,
    (read_iff_derives "[ a").2 _ (by with_unfolding_all rfl)⟩
  exact .conditions (.condition (.group true (.alternative (.condition (.bare _))
    (.conditions (.condition (.named _ _ _))))))

/-- The operator at the end of this text counts as two characters. -/
theorem read_error_behind_text :
    ∃ p fault, read "a=" = .error (.malformed "a=" p fault) ∧ "a=".length < p :=
  ⟨3, .missingValue "a" .eq, by with_unfolding_all rfl, by decide⟩

end Stmt

end TorrentQuery
