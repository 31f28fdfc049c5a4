import TorrentQuery.Proofs.Query.Written

namespace TorrentQuery

open Text

namespace Token

def text (ts : List Token) : String := joinWith " " (ts.map written)

def AllPrintable : Nat → List Token → Prop
  | _, [] => True
  | depth, t :: ts => t.Printable depth ∧ (t = .negation → ts.head? = some .opening) ∧
      AllPrintable (depthAfter depth t) ts

variable {depth : Nat}

theorem text_append {a b : List Token} (ha : a ≠ []) (hb : b ≠ []) :
    text (a ++ b) = text a ++ " " ++ text b := by
  unfold text joinWith
  rw [List.map_append, String.intercalate_append_of_ne_nil]
  · simpa using ha
  · simpa using hb

theorem text_singleton (t : Token) : text [t] = t.written := by
  rw [text, List.map_singleton, joinWith, String.intercalate_singleton]

theorem text_cons (t : Token) {ts : List Token} (hne : ts ≠ []) :
    text (t :: ts) = t.written ++ " " ++ text ts := by
  rw [← List.singleton_append, text_append (List.cons_ne_nil _ _) hne, text_singleton]

theorem scanFrom_blank {position : Nat} {c : Char} {r : List Char} (hblank : isBlank c = true) :
    scanFrom depth position (c :: r) = scanFrom depth (position + 1) r := by
  rw [scanFrom, dif_pos hblank]

theorem scanFrom_next {position : Nat} {c : Char} {r rest : List Char} {t : Token}
    (hblank : isBlank c = false) (hnext : next depth c r = .ok (t, rest)) :
    scanFrom depth position (c :: r) =
      (scanFrom (depthAfter depth t) (position + ((c :: r).length - rest.length)) rest).map
        (⟨t, position⟩ :: ·) := by
  rw [scanFrom, dif_neg (by simp [hblank])]
  split
  · next heq =>
    rw [hnext] at heq
    cases heq
  · next heq =>
    rw [hnext] at heq
    cases heq
    split <;> next hrest => rw [hrest]; rfl

theorem toList_text_cons_cons (t u : Token) (us : List Token) :
    (text (t :: u :: us)).toList = t.written.toList ++ ' ' :: (text (u :: us)).toList := by
  rw [text_cons t (List.cons_ne_nil u us), String.toList_append, String.toList_append,
    List.append_assoc]
  rfl

theorem nextVisible_text_opening (us : List Token) :
    nextVisible (' ' :: (text (.opening :: us)).toList) = some '[' := by
  cases us with
  | nil => rfl
  | cons u us =>
    rw [toList_text_cons_cons]
    rfl

/-- Tokens read back as they are written. -/
theorem scanFrom_text {ts : List Token} (hts : AllPrintable depth ts) (position : Nat) :
    ∃ ls, scanFrom depth position (text ts).toList = .ok ls ∧ ls.map Lexeme.token = ts := by
  induction ts generalizing depth position with
  | nil => exact ⟨[], scanFrom.eq_1 _ _, rfl⟩
  | cons t ts ih =>
    obtain ⟨ht, hnegation, hrest⟩ := hts
    -- what stands behind the token, and what it reads as
    obtain ⟨tail, htext, htail, hvisible, hscan⟩ : ∃ tail,
        (text (t :: ts)).toList = t.written.toList ++ tail ∧ atBoundary tail = true ∧
        (t = .negation → nextVisible tail = some '[') ∧
        ∀ n, ∃ ls, scanFrom (depthAfter depth t) n tail = .ok ls ∧ ls.map Lexeme.token = ts := by
      cases ts with
      | nil =>
        refine ⟨[], ?_, rfl, ?_, ih hrest⟩
        · rw [text_singleton, List.append_nil]
        · intro h
          cases hnegation h
      | cons u us =>
        refine ⟨_, toList_text_cons_cons t u us, rfl, ?_, ?_⟩
        · intro h
          cases hnegation h
          exact nextVisible_text_opening us
        · intro n
          rw [scanFrom_blank rfl]
          exact ih hrest (n + 1)
    obtain ⟨c, r, hwritten, hblank, hnext⟩ := next_written ht htail hvisible
    rw [htext, hwritten, List.cons_append, scanFrom_next hblank hnext]
    obtain ⟨ls, hls, hmap⟩ := hscan (position + ((c :: (r ++ tail)).length - tail.length))
    exact ⟨⟨t, position⟩ :: ls, by rw [hls]; rfl, by rw [List.map_cons, hmap]⟩

end Token

namespace Cond

mutual

def tokens : Cond → List Token
  | .named field op v => [.named field op v]
  | .bare v => [.bare v]
  | .group negated body =>
    (if negated then [.negation] else []) ++ .opening :: (tokensOfStmt body ++ [.closing])

def tokensOfAll : List Cond → List Token
  | [] => []
  | c :: r => tokens c ++ tokensOfAll r

def tokensOfStmt : List (List Cond) → List Token
  | [] => []
  | [cs] => tokensOfAll cs
  | cs :: ds :: r => tokensOfAll cs ++ .alternative :: tokensOfStmt (ds :: r)

end

theorem tokens_ne_nil (c : Cond) : c.tokens ≠ [] := by
  cases c <;> simp [tokens]

theorem tokensOfAll_ne_nil {cs : List Cond} (hne : cs ≠ []) : tokensOfAll cs ≠ [] := by
  cases cs with
  | nil => exact absurd rfl hne
  | cons c r =>
    intro h
    exact tokens_ne_nil c (List.append_eq_nil_iff.1 h).1

theorem tokensOfStmt_ne_nil {leaf : Nat → Token → Prop} {depth : Nat} {s : List (List Cond)}
    (hs : EachOfStmt leaf depth s) (hne : s ≠ []) : tokensOfStmt s ≠ [] := by
  match s, hs with
  | [], _ => exact absurd rfl hne
  | [cs], hs => exact tokensOfAll_ne_nil hs.1
  | cs :: ds :: r, hs =>
    intro h
    exact tokensOfAll_ne_nil hs.1 (List.append_eq_nil_iff.1 h).1

theorem text_group (negated : Bool) {body : List (List Cond)} (hne : tokensOfStmt body ≠ []) :
    Token.text (tokens (.group negated body)) =
      (if negated then "NOT " else "") ++ "[ " ++ Token.text (tokensOfStmt body) ++ " ]" := by
  have hopening : "[ " = "[" ++ " " := rfl
  have hclosing : " ]" = " " ++ "]" := rfl
  have hnegation : "NOT " = "NOT" ++ " " := rfl
  have hgroup : Token.text (.opening :: (tokensOfStmt body ++ [.closing])) =
      "[ " ++ Token.text (tokensOfStmt body) ++ " ]" := by
    rw [Token.text_cons _ (by simp), Token.text_append hne (List.cons_ne_nil _ _),
      Token.text_singleton, hopening, hclosing]
    simp only [Token.written, String.append_assoc]
  cases negated with
  | true =>
    change Token.text (.negation :: .opening :: (tokensOfStmt body ++ [.closing])) = _
    rw [Token.text_cons _ (List.cons_ne_nil _ _), hgroup, if_pos rfl, hnegation]
    simp only [Token.written, String.append_assoc]
  | false =>
    change Token.text (.opening :: (tokensOfStmt body ++ [.closing])) = _
    rw [hgroup, if_neg Bool.false_ne_true, String.empty_append]

theorem text_tokensOfAll (cs : List Cond) :
    Token.text (tokensOfAll cs) = joinWith " " (cs.map fun c => Token.text c.tokens) := by
  induction cs with
  | nil => rfl
  | cons c r ih =>
    by_cases hr : r = []
    · subst hr
      rw [tokensOfAll, tokensOfAll, List.append_nil, List.map_singleton, joinWith,
        String.intercalate_singleton]
    · have hmap : (r.map fun c => Token.text c.tokens) ≠ [] := by simpa using hr
      rw [tokensOfAll, Token.text_append (tokens_ne_nil c) (tokensOfAll_ne_nil hr), ih,
        List.map_cons, joinWith, joinWith, String.intercalate_cons_of_ne_nil hmap]

theorem text_tokensOfStmt {leaf : Nat → Token → Prop} {depth : Nat} {s : List (List Cond)}
    (hs : EachOfStmt leaf depth s) : Token.text (tokensOfStmt s) =
      joinWith " OR " (s.map fun cs => Token.text (tokensOfAll cs)) := by
  match s, hs with
  | [], _ => rfl
  | [cs], _ => exact String.intercalate_singleton.symm
  | cs :: ds :: r, hs =>
    have hrest := tokensOfStmt_ne_nil hs.2.2 (List.cons_ne_nil ds r)
    have hmap : (ds :: r).map (fun cs => Token.text (tokensOfAll cs)) ≠ [] := List.cons_ne_nil _ _
    have hor : " OR " = " " ++ ("OR" ++ " ") := rfl
    rw [tokensOfStmt, Token.text_append (tokensOfAll_ne_nil hs.1) (List.cons_ne_nil _ _),
      Token.text_cons _ hrest, text_tokensOfStmt hs.2.2, List.map_cons (a := cs), joinWith,
      joinWith, String.intercalate_cons_of_ne_nil hmap, hor]
    simp only [Token.written, String.append_assoc]

theorem tokensOfStmt_cons_subset (cs : List Cond) (s : List (List Cond)) :
    tokensOfAll cs ⊆ tokensOfStmt (cs :: s) ∧ tokensOfStmt s ⊆ tokensOfStmt (cs :: s) := by
  cases s with
  | nil => exact ⟨List.Subset.refl _, List.nil_subset _⟩
  | cons ds r =>
    refine ⟨List.subset_append_left _ _, fun t ht => ?_⟩
    exact List.mem_append_right _ (List.mem_cons_of_mem _ ht)

mutual

/-- As many groups are open behind a condition as in front of it. -/
theorem allPrintable_tokens {depth : Nat} {c : Cond} (hc : c.Each Token.Printable depth)
    {ts : List Token} (hts : Token.AllPrintable depth ts) :
    Token.AllPrintable depth (c.tokens ++ ts) := by
  cases c with
  | named field op v => exact ⟨hc, fun h => (nomatch h), hts⟩
  | bare v => exact hc.elim
  | group negated body =>
    have hclosing : Token.AllPrintable (depth + 1) (.closing :: ts) :=
      ⟨trivial, fun h => (nomatch h), hts⟩
    have hbody := allPrintable_tokensOfStmt hc.2 hclosing
    have hopening : Token.AllPrintable depth (.opening :: (tokensOfStmt body ++ .closing :: ts)) :=
      ⟨trivial, fun h => (nomatch h), hbody⟩
    rw [tokens, List.append_assoc, List.cons_append, List.append_assoc, List.singleton_append]
    cases negated with
    | true => exact ⟨trivial, fun _ => rfl, hopening⟩
    | false => exact hopening

theorem allPrintable_tokensOfAll {depth : Nat} {cs : List Cond}
    (hcs : EachOfAll Token.Printable depth cs) {ts : List Token}
    (hts : Token.AllPrintable depth ts) :
    Token.AllPrintable depth (tokensOfAll cs ++ ts) := by
  cases cs with
  | nil => exact hts
  | cons c r =>
    rw [tokensOfAll, List.append_assoc]
    exact allPrintable_tokens hcs.1 (allPrintable_tokensOfAll hcs.2 hts)

theorem allPrintable_tokensOfStmt {depth : Nat} {s : List (List Cond)}
    (hs : EachOfStmt Token.Printable depth s) {ts : List Token}
    (hts : Token.AllPrintable depth ts) :
    Token.AllPrintable depth (tokensOfStmt s ++ ts) := by
  match s, hs with
  | [], _ => exact hts
  | [cs], hs => exact allPrintable_tokensOfAll hs.2.1 hts
  | cs :: ds :: r, hs =>
    have hrest := allPrintable_tokensOfStmt hs.2.2 hts
    rw [tokensOfStmt, List.append_assoc, List.cons_append]
    exact allPrintable_tokensOfAll hs.2.1 ⟨trivial, fun h => (nomatch h), hrest⟩

end

end Cond

namespace Stmt

open Cond

variable {leaf : Nat → Token → Prop} {length : Nat}

theorem ofLexemesFrom_closing {d : Draft} (hne : d.current ≠ []) (p : Nat) (g : OpenGroup)
    (stack : List OpenGroup) (rest : List Lexeme) :
    ofLexemesFrom length d (g :: stack) (⟨.closing, p⟩ :: rest) =
      ofLexemesFrom length (g.outer.add (.group g.negated d.close)) stack rest := by
  have hempty : d.current.isEmpty = false := by simpa using hne
  rw [ofLexemesFrom, hempty]
  rfl

theorem ofLexemesFrom_alternative {d : Draft} (hne : d.current ≠ []) (p : Nat)
    (stack : List OpenGroup) (rest : List Lexeme) :
    ofLexemesFrom length d stack (⟨.alternative, p⟩ :: rest) =
      ofLexemesFrom length d.nextAlternative stack rest := by
  have hempty : d.current.isEmpty = false := by simpa using hne
  rw [ofLexemesFrom, hempty]
  rfl

mutual

/-- The tokens of a condition add it to the draft. -/
theorem ofLexemesFrom_tokens {depth : Nat} {c : Cond} (hc : c.Each leaf depth) {ls : List Lexeme}
    (hls : ls.map Lexeme.token = c.tokens) (d : Draft) (stack : List OpenGroup)
    (rest : List Lexeme) :
    ofLexemesFrom length d stack (ls ++ rest) = ofLexemesFrom length (d.add c) stack rest := by
  cases c with
  | named field op v =>
    obtain ⟨⟨t, p⟩, rfl, ht⟩ := List.map_eq_singleton_iff.1 hls
    cases ht
    rfl
  | bare v =>
    obtain ⟨⟨t, p⟩, rfl, ht⟩ := List.map_eq_singleton_iff.1 hls
    cases ht
    rfl
  | group negated body =>
    obtain ⟨ls₁, ls₂, rfl, hfront, hback⟩ := List.map_eq_append_iff.1 hls
    obtain ⟨⟨t, p⟩, ls₃, rfl, ht, hinner⟩ := List.map_eq_cons_iff.1 hback
    cases ht
    obtain ⟨ls₄, ls₅, rfl, hbody, hlast⟩ := List.map_eq_append_iff.1 hinner
    obtain ⟨⟨t, q⟩, rfl, ht⟩ := List.map_eq_singleton_iff.1 hlast
    cases ht
    -- the body is read into a draft of its own, while the one around it waits on the stack
    obtain ⟨d', hclose, hne, hread⟩ := ofLexemesFrom_tokensOfStmt hc.2 hc.1 hbody []
      (⟨p, negated, d⟩ :: stack) (⟨.closing, q⟩ :: rest)
    have hopen : ofLexemesFrom length d stack
        (ls₁ ++ ⟨.opening, p⟩ :: (ls₄ ++ ⟨.closing, q⟩ :: rest)) =
          ofLexemesFrom length {} (⟨p, negated, d⟩ :: stack) (ls₄ ++ ⟨.closing, q⟩ :: rest) := by
      cases negated with
      | true =>
        obtain ⟨⟨t, n⟩, rfl, ht⟩ := List.map_eq_singleton_iff.1 hfront
        cases ht
        rfl
      | false =>
        obtain rfl := List.map_eq_nil_iff.1 hfront
        rfl
    rw [List.append_assoc, List.cons_append, List.append_assoc, List.singleton_append, hopen, hread,
      ofLexemesFrom_closing hne, hclose]
    rfl

theorem ofLexemesFrom_tokensOfAll {depth : Nat} {cs : List Cond} (hcs : EachOfAll leaf depth cs)
    {ls : List Lexeme} (hls : ls.map Lexeme.token = tokensOfAll cs) (d : Draft)
    (stack : List OpenGroup) (rest : List Lexeme) :
    ofLexemesFrom length d stack (ls ++ rest) =
      ofLexemesFrom length ⟨d.finished, d.current ++ cs⟩ stack rest := by
  cases cs with
  | nil =>
    obtain rfl := List.map_eq_nil_iff.1 hls
    rw [List.append_nil]
    rfl
  | cons c r =>
    obtain ⟨ls₁, ls₂, rfl, hc, hr⟩ := List.map_eq_append_iff.1 hls
    rw [List.append_assoc, ofLexemesFrom_tokens hcs.1 hc, ofLexemesFrom_tokensOfAll hcs.2 hr,
      Draft.add, List.append_assoc]
    rfl

theorem ofLexemesFrom_tokensOfStmt {depth : Nat} {s : List (List Cond)}
    (hs : EachOfStmt leaf depth s) (hne : s ≠ []) {ls : List Lexeme}
    (hls : ls.map Lexeme.token = tokensOfStmt s) (finished : List (List Cond))
    (stack : List OpenGroup) (rest : List Lexeme) :
    ∃ d : Draft, d.close = finished ++ s ∧ d.current ≠ [] ∧
      ofLexemesFrom length ⟨finished, []⟩ stack (ls ++ rest) =
        ofLexemesFrom length d stack rest := by
  match s, hs with
  | [], _ => exact absurd rfl hne
  | [cs], hs =>
    exact ⟨⟨finished, cs⟩, rfl, hs.1, ofLexemesFrom_tokensOfAll hs.2.1 hls _ _ _⟩
  | cs :: ds :: r, hs =>
    obtain ⟨ls₁, ls₂, rfl, hcs, hback⟩ := List.map_eq_append_iff.1 hls
    obtain ⟨⟨t, p⟩, ls₃, rfl, ht, hrest⟩ := List.map_eq_cons_iff.1 hback
    cases ht
    obtain ⟨d, hclose, hd, hread⟩ := ofLexemesFrom_tokensOfStmt hs.2.2 (List.cons_ne_nil _ _) hrest
      (finished ++ [cs]) stack rest
    refine ⟨d, by rw [hclose, List.append_assoc]; rfl, hd, ?_⟩
    rw [List.append_assoc, ofLexemesFrom_tokensOfAll hs.2.1 hcs, List.cons_append,
      ofLexemesFrom_alternative hs.1]
    exact hread

end

/-- The tokens of a statement are read as the statement. -/
theorem ofLexemes_tokensOfStmt {depth : Nat} {s : Stmt} (hne : s ≠ []) (hs : EachOfStmt leaf depth s)
    {ls : List Lexeme} (hls : ls.map Lexeme.token = tokensOfStmt s) :
    ofLexemes length ls = .ok s := by
  obtain ⟨d, hclose, hd, hread⟩ : ∃ d : Draft, d.close = [] ++ s ∧ d.current ≠ [] ∧
      ofLexemesFrom length {} [] (ls ++ []) = ofLexemesFrom length d [] [] :=
    ofLexemesFrom_tokensOfStmt hs hne hls [] [] []
  have hempty : d.current.isEmpty = false := by simpa using hd
  have hstmt : ofLexemesFrom length {} [] ls = .ok s := by
    rw [List.append_nil] at hread
    rw [hread, ofLexemesFrom, hempty, hclose]
    rfl
  cases ls with
  | nil =>
    rw [ofLexemesFrom] at hstmt
    cases hstmt
  | cons => exact hstmt

def text (s : Stmt) : String := Token.text (tokensOfStmt s)

/-- A filter that can be written down reads back as it was. -/
theorem read_text {s : Stmt} (hne : s ≠ []) (hs : EachOfStmt Token.Printable 0 s) :
    Stmt.read s.text = .ok s := by
  have hprintable : Token.AllPrintable 0 (tokensOfStmt s) := by
    rw [← List.append_nil (tokensOfStmt s)]
    exact allPrintable_tokensOfStmt hs trivial
  obtain ⟨ls, hscan, hls⟩ := Token.scanFrom_text hprintable 0
  have hlexemes : ofLexemes s.text.length ls = .ok s := ofLexemes_tokensOfStmt hne hs hls
  unfold Stmt.read
  rw [show Token.scan s.text = .ok ls from hscan]
  simp only [hlexemes]

end Stmt

end TorrentQuery
