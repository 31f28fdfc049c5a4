import TorrentQuery.Proofs.Query.Scanning

namespace TorrentQuery

open Text

/-- The symbols of an operator. A sign belongs to it only in front of quotes. -/
def Operator.symbols (quoted : Bool) : Operator → List String
  | .eq => ["=", "=="]
  | .ne => ["!=", "<>"]
  | .gt => [">"]
  | .ge => if quoted then [">=", "=+"] else [">="]
  | .lt => ["<"]
  | .le => if quoted then ["<=", "=-"] else ["<="]

/-- A value in quotes, or one without what could end it or belong to its operator. -/
def Literal.Simple (v : Literal) : Prop :=
  if v.quoted then '"' ∉ v.text.toList
  else v.text ≠ "" ∧ ∀ c ∈ v.text.toList,
    isBlank c = false ∧ c ∉ ['[', ']', '"', '=', '<', '>', '!', '+', '-']

def Token.Simple : Token → Prop
  | .named field _ v => IsName field ∧ v.Simple
  | _ => False

namespace Cond

def leads : Cond → Bool
  | .group negated _ => !negated
  | _ => true

mutual

/-- A bracket can be glued to the first condition of every group. -/
def Led : Cond → Prop
  | .group _ body => (∃ c cs r, body = (c :: cs) :: r ∧ c.leads = true) ∧ LedOfStmt body
  | _ => True

def LedOfAll : List Cond → Prop
  | [] => True
  | c :: r => Led c ∧ LedOfAll r

def LedOfStmt : List (List Cond) → Prop
  | [] => True
  | cs :: r => LedOfAll cs ∧ LedOfStmt r

end

def marks (gaps : List String) (negated : Bool) : List String :=
  if negated then ["NOT", "!"].flatMap fun sign => gaps.map (sign ++ ·) else [""]

mutual

/-- The texts of a condition with any of the gaps inside of brackets and behind negations. -/
def texts (gaps : List String) : Cond → List String
  | .named field op v => (op.symbols v.quoted).map fun symbol => field ++ symbol ++ v.render
  | .bare v => [v.render]
  | .group negated body =>
    (marks gaps negated).flatMap fun mark => gaps.flatMap fun first =>
      (textsOfStmt gaps body).flatMap fun inner => gaps.map fun last =>
        mark ++ "[" ++ first ++ inner ++ last ++ "]"

def textsOfAll (gaps : List String) : List Cond → List String
  | [] => [""]
  | [c] => texts gaps c
  | c :: d :: r =>
    (texts gaps c).flatMap fun a => (textsOfAll gaps (d :: r)).map fun b => a ++ " " ++ b

def textsOfStmt (gaps : List String) : List (List Cond) → List String
  | [] => [""]
  | [cs] => textsOfAll gaps cs
  | cs :: ds :: r =>
    (textsOfAll gaps cs).flatMap fun a => (textsOfStmt gaps (ds :: r)).map fun b => a ++ " OR " ++ b

end

end Cond

namespace Token

variable {depth : Nat}

/-- A symbol is read as a whole where nothing follows that would belong to it. -/
theorem operator?_of_mem_symbols {op : Operator} {quoted : Bool} {symbol : String}
    (hsymbol : symbol ∈ op.symbols quoted) {c : Char} (hc : c ∉ ['=', '>', '+', '-'])
    (hquoted : quoted = true → c = '"') (r : List Char) :
    ∃ n, operator? (symbol.toList ++ c :: r) = some (op, n, c :: r) := by
  have hshortest : ∃ n, operator? (op.symbol.toList ++ c :: r) = some (op, n, c :: r) := by
    simp only [List.mem_cons, List.not_mem_nil, or_false, not_or] at hc
    obtain ⟨heq, hgt, hplus, hminus⟩ := hc
    apply operator?_symbol
    · cases op <;> simp [Operator.EndsBefore, heq, hgt]
    · cases op <;> simp [Operator.absorbs, heq, hplus, hminus]
  cases op with
  | gt =>
    obtain rfl := List.mem_singleton.1 hsymbol
    exact hshortest
  | lt =>
    obtain rfl := List.mem_singleton.1 hsymbol
    exact hshortest
  | eq =>
    rcases List.mem_pair.1 hsymbol with rfl | rfl
    · exact hshortest
    · exact ⟨2, rfl⟩
  | ne =>
    rcases List.mem_pair.1 hsymbol with rfl | rfl
    · exact hshortest
    · exact ⟨2, rfl⟩
  | ge =>
    cases quoted with
    | false =>
      obtain rfl := List.mem_singleton.1 hsymbol
      exact hshortest
    | true =>
      obtain rfl := hquoted rfl
      rcases List.mem_pair.1 hsymbol with rfl | rfl <;> exact ⟨2, rfl⟩
  | le =>
    cases quoted with
    | false =>
      obtain rfl := List.mem_singleton.1 hsymbol
      exact hshortest
    | true =>
      obtain rfl := hquoted rfl
      rcases List.mem_pair.1 hsymbol with rfl | rfl <;> exact ⟨2, rfl⟩

/-- Inside a group a closing bracket ends a value that opens no set of characters. -/
theorem bareText_of_endsValue {s tail : List Char}
    (hs : ∀ c ∈ s, isBlank c = false ∧ c ≠ '[' ∧ c ≠ ']') (htail : endsValue depth tail = true)
    {started : Bool} (hstarted : started = true ∨ s ≠ []) :
    bareText depth false started (s ++ tail) = (s, tail) := by
  induction s generalizing started with
  | nil =>
    obtain rfl := hstarted.resolve_right (fun h => h rfl)
    cases tail with
    | nil => rfl
    | cons c r => exact bareText_of_stops htail
  | cons c s ih =>
    rw [List.forall_mem_cons] at hs
    obtain ⟨⟨hblank, hopen, hclose⟩, hs⟩ := hs
    rw [List.cons_append, bareText]
    simp [hblank, hopen, hclose, closesGroup, ih hs (.inl rfl)]

variable {v : Literal} {tail : List Char}

theorem render_of_simple {text : String} (hv : Literal.Simple ⟨text, false⟩) :
    Literal.render ⟨text, false⟩ = text := by
  obtain ⟨hne, htext⟩ := hv
  have hempty : text.isEmpty = false := by simpa using hne
  have hblank : text.toList.any isBlank = false := by
    rw [List.any_eq_false]
    intro c hc
    simp [(htext c hc).1]
  simp [Literal.render, hempty, hblank]

/-- A simple value starts with nothing that would belong to an operator. -/
theorem exists_cons_of_simple (hv : v.Simple) : ∃ c r, v.render.toList = c :: r ∧
    c ∉ ['=', '>', '+', '-'] ∧ (v.quoted = true → c = '"') := by
  obtain ⟨text, quoted⟩ := v
  cases quoted with
  | true => exact ⟨'"', _, render_of_quoted text, by decide, fun _ => rfl⟩
  | false =>
    rw [render_of_simple hv]
    obtain ⟨hne, htext⟩ := hv
    obtain ⟨c, r, hcons⟩ := List.exists_cons_of_ne_nil fun h => hne (String.toList_eq_nil_iff.1 h)
    have hc := (htext c (hcons ▸ List.mem_cons_self)).2
    refine ⟨c, r, hcons, fun hmem => hc ?_, fun h => (nomatch h)⟩
    simp only [List.mem_cons, List.not_mem_nil, or_false] at hmem ⊢
    grind

theorem valueOf_simple (hv : v.Simple) (htail : endsValue depth tail = true) (field : String)
    (op : Operator) (width : Nat) :
    valueOf depth field op width (v.render.toList ++ tail) = .ok (v, tail) := by
  obtain ⟨text, quoted⟩ := v
  cases quoted with
  | true =>
    rw [render_of_quoted, List.cons_append, List.append_assoc]
    exact valueOf_quoted hv htail
  | false =>
    rw [render_of_simple hv]
    obtain ⟨hne, htext⟩ := hv
    obtain ⟨c, r, hcons⟩ := List.exists_cons_of_ne_nil fun h => hne (String.toList_eq_nil_iff.1 h)
    have hplain : ∀ d ∈ text.toList, isBlank d = false ∧ d ≠ '[' ∧ d ≠ ']' ∧ d ≠ '"' := by
      intro d hd
      have hd := htext d hd
      simp only [List.mem_cons, List.not_mem_nil, or_false, not_or] at hd
      exact ⟨hd.1, hd.2.1, hd.2.2.1, hd.2.2.2.1⟩
    have hread : bareText depth false false (text.toList ++ tail) = (text.toList, tail) :=
      bareText_of_endsValue (fun d hd => ⟨(hplain d hd).1, (hplain d hd).2.1, (hplain d hd).2.2.1⟩)
        htail (.inr (hcons ▸ List.cons_ne_nil c r))
    obtain ⟨hblank, -, hclose, hquote⟩ := hplain c (hcons ▸ List.mem_cons_self)
    rw [hcons, List.cons_append, ← hcons] at hread
    rw [hcons, List.cons_append]
    exact valueOf_bareText hblank hquote (by simp [closesGroup, hclose]) hread

variable {s : List Char} {ts : List Token}

/-- A symbol in front of a simple value is read as a whole. -/
theorem exists_operator? (hv : v.Simple) {op : Operator} {symbol : String}
    (hsymbol : symbol ∈ op.symbols v.quoted) (s : List Char) :
    ∃ n, operator? (symbol.toList ++ (v.render.toList ++ s)) =
      some (op, n, v.render.toList ++ s) := by
  obtain ⟨c, r, hcons, hc, hquoted⟩ := exists_cons_of_simple hv
  rw [hcons, List.cons_append]
  exact operator?_of_mem_symbols hsymbol hc hquoted (r ++ s)

theorem scans_named {field : String} {op : Operator} (hfield : IsName field) (hv : v.Simple)
    {symbol : String} (hsymbol : symbol ∈ op.symbols v.quoted)
    (htail : endsValue depth tail = true) (hts : Scans depth tail ts) :
    Scans depth ((field ++ symbol ++ v.render).toList ++ tail) (.named field op v :: ts) := by
  obtain ⟨n, hop⟩ := exists_operator? hv hsymbol tail
  rw [String.toList_append, String.toList_append, List.append_assoc, List.append_assoc]
  exact scans_condition hfield hop (valueOf_simple hv htail field op) hts

theorem scans_opening (hopens : opensGroup s = true) (hs : Scans (depth + 1) s ts) :
    Scans depth ('[' :: s) (.opening :: ts) :=
  scans_cons rfl (by simp [next, hopens]) hs

theorem scans_closing (hs : Scans depth s ts) : Scans (depth + 1) (']' :: s) (.closing :: ts) :=
  scans_cons rfl rfl hs

theorem scans_alternative (hs : Scans depth s ts) :
    Scans depth (" OR ".toList ++ s) (.alternative :: ts) := by
  have hword : next depth 'O' (['R'] ++ ' ' :: s) = .ok (.alternative, ' ' :: s) := by
    rw [next_word (List.all_eq_true.1 rfl) rfl]
    rfl
  exact (scans_cons rfl hword hs.space).space

/-- A negation may be glued to the bracket of its group. -/
theorem scans_negation {sign gap : String} (hsign : sign ∈ ["NOT", "!"])
    (hgap : ∀ c ∈ gap.toList, isBlank c = true) (hs : Scans depth ('[' :: s) ts) :
    Scans depth (sign.toList ++ (gap.toList ++ '[' :: s)) (.negation :: ts) := by
  have hvisible : nextVisible (gap.toList ++ '[' :: s) = some '[' := by
    rw [nextVisible, List.dropWhile_append_of_pos hgap]
    rfl
  have hgapped : Scans depth (gap.toList ++ '[' :: s) ts := hs.blanks hgap
  rcases List.mem_pair.1 hsign with rfl | rfl
  · refine scans_cons (r := ['O', 'T'] ++ (gap.toList ++ '[' :: s)) rfl ?_ hgapped
    cases hcons : gap.toList with
    | nil => rfl
    | cons c r =>
      rw [hcons] at hgap hvisible
      have hblank : atBoundary (c :: r ++ '[' :: s) = true := hgap c List.mem_cons_self
      rw [next_word (List.all_eq_true.1 rfl) hblank, hvisible]
      rfl
  · have hbang : next depth '!' (gap.toList ++ '[' :: s) =
        .ok (.negation, gap.toList ++ '[' :: s) := by
      simp [next, hvisible]
    exact scans_cons rfl hbang hgapped

/-- A bracket is glued to what follows it, or there is a gap. -/
theorem opensGroup_of_gap {gap : List Char} (hgap : ∀ c ∈ gap, isBlank c = true)
    (hs : opensGroup s = true) : opensGroup (gap ++ s) = true := by
  cases gap with
  | nil => exact hs
  | cons c r =>
    have hblank : atBoundary (c :: r ++ s) = true := hgap c List.mem_cons_self
    rw [opensGroup, hblank, Bool.true_or, Bool.true_or, Bool.true_or]

theorem endsValue_of_gap {gap : List Char} (hgap : ∀ c ∈ gap, isBlank c = true) :
    endsValue (depth + 1) (gap ++ ']' :: s) = true := by
  cases gap with
  | nil => simp [endsValue, closesGroup]
  | cons c r => exact endsValue_of_boundary (hgap c List.mem_cons_self)

theorem opensGroup_named {field : String} {op : Operator} (hfield : IsName field) (hv : v.Simple)
    {symbol : String} (hsymbol : symbol ∈ op.symbols v.quoted) (s : List Char) :
    opensGroup ((field ++ symbol ++ v.render).toList ++ s) = true := by
  obtain ⟨n, hop⟩ := exists_operator? hv hsymbol s
  obtain ⟨d, t, hd, hname, -⟩ := head_of_operator? hop
  have hstop : (symbol.toList ++ (v.render.toList ++ s)).head?.all (!isNameChar ·) = true := by
    simp [hd, hname]
  obtain ⟨htake, hdrop⟩ := span_append hfield.2 hstop
  have hne : field.toList.isEmpty = false := by
    simpa [String.toList_eq_nil_iff] using hfield.1
  rw [String.toList_append, String.toList_append, List.append_assoc, List.append_assoc]
  simp [opensGroup, htake, hdrop, hop, hne]

end Token

namespace Cond

open Token

variable {depth : Nat} {gaps : List String}

/-- The first condition of a list stands at the front of its texts. -/
theorem append_of_mem_textsOfAll {c : Cond} {cs : List Cond} {w : String}
    (hw : w ∈ textsOfAll gaps (c :: cs)) : ∃ a ∈ c.texts gaps, ∃ rest, w = a ++ rest := by
  cases cs with
  | nil => exact ⟨w, hw, "", String.append_empty.symm⟩
  | cons d r =>
    obtain ⟨a, ha, hw⟩ := List.mem_flatMap.1 hw
    obtain ⟨b, -, rfl⟩ := List.mem_map.1 hw
    exact ⟨a, ha, " " ++ b, String.append_assoc⟩

theorem append_of_mem_textsOfStmt {cs : List Cond} {s : List (List Cond)} {w : String}
    (hw : w ∈ textsOfStmt gaps (cs :: s)) : ∃ a ∈ textsOfAll gaps cs, ∃ rest, w = a ++ rest := by
  cases s with
  | nil => exact ⟨w, hw, "", String.append_empty.symm⟩
  | cons ds r =>
    obtain ⟨a, ha, hw⟩ := List.mem_flatMap.1 hw
    obtain ⟨b, -, rfl⟩ := List.mem_map.1 hw
    exact ⟨a, ha, " OR " ++ b, String.append_assoc⟩

/-- The parts of a written group. -/
theorem of_mem_texts_group {negated : Bool} {body : List (List Cond)} {w : String}
    (hw : w ∈ texts gaps (.group negated body)) :
    ∃ mark ∈ marks gaps negated, ∃ first ∈ gaps, ∃ inner ∈ textsOfStmt gaps body, ∃ last ∈ gaps,
      w.toList = mark.toList ++ '[' ::
        (first.toList ++ (inner.toList ++ (last.toList ++ [']']))) := by
  simp only [texts, List.mem_flatMap, List.mem_map] at hw
  obtain ⟨mark, hmark, first, hfirst, inner, hinner, last, hlast, rfl⟩ := hw
  refine ⟨mark, hmark, first, hfirst, inner, hinner, last, hlast, ?_⟩
  simp [String.toList_append]

/-- A bracket glued to a condition that leads a group opens the group. -/
theorem opensGroup_of_leads {c : Cond} (hc : c.Each (fun _ => Token.Simple) depth)
    (hlead : c.leads = true) {w : String} (hw : w ∈ c.texts gaps) (s : List Char) :
    opensGroup (w.toList ++ s) = true := by
  cases c with
  | named field op v =>
    obtain ⟨symbol, hsymbol, rfl⟩ := List.mem_map.1 hw
    exact opensGroup_named hc.1 hc.2 hsymbol s
  | bare v => exact hc.elim
  | group negated body =>
    obtain rfl : negated = false := by simpa [leads] using hlead
    obtain ⟨mark, hmark, first, -, inner, -, last, -, hw⟩ := of_mem_texts_group hw
    obtain rfl := List.mem_singleton.1 hmark
    simp [hw, opensGroup]

theorem opensGroup_of_led {body : List (List Cond)}
    (hbody : EachOfStmt (fun _ => Token.Simple) depth body)
    (hled : ∃ c cs r, body = (c :: cs) :: r ∧ c.leads = true) {w : String}
    (hw : w ∈ textsOfStmt gaps body) (s : List Char) : opensGroup (w.toList ++ s) = true := by
  obtain ⟨c, cs, r, rfl, hlead⟩ := hled
  obtain ⟨a, ha, rest, rfl⟩ := append_of_mem_textsOfStmt hw
  obtain ⟨b, hb, rest', rfl⟩ := append_of_mem_textsOfAll ha
  rw [String.toList_append, String.toList_append, List.append_assoc, List.append_assoc]
  exact opensGroup_of_leads hbody.2.1.1 hlead hb _

def AreGaps (gaps : List String) : Prop := ∀ gap ∈ gaps, ∀ c ∈ gap.toList, isBlank c = true

theorem scans_mark (hgaps : AreGaps gaps) {negated : Bool} {mark : String}
    (hmark : mark ∈ marks gaps negated) {s : List Char} {ts : List Token}
    (hs : Scans depth ('[' :: s) ts) :
    Scans depth (mark.toList ++ '[' :: s) ((if negated then [.negation] else []) ++ ts) := by
  cases negated with
  | false =>
    obtain rfl := List.mem_singleton.1 hmark
    exact hs
  | true =>
    obtain ⟨sign, hsign, hmark⟩ := List.mem_flatMap.1 hmark
    obtain ⟨gap, hgap, rfl⟩ := List.mem_map.1 hmark
    rw [String.toList_append, List.append_assoc]
    exact scans_negation hsign (hgaps gap hgap) hs

mutual

/-- A written condition consists of its tokens, in front of anything that ends a value. -/
theorem scans_texts (hgaps : AreGaps gaps) {depth : Nat} {c : Cond}
    (hc : c.Each (fun _ => Token.Simple) depth) (hled : c.Led) {w : String}
    (hw : w ∈ c.texts gaps) {tail : List Char} {ts : List Token}
    (htail : endsValue depth tail = true) (hts : Scans depth tail ts) :
    Scans depth (w.toList ++ tail) (c.tokens ++ ts) := by
  cases c with
  | named field op v =>
    obtain ⟨symbol, hsymbol, rfl⟩ := List.mem_map.1 hw
    exact scans_named hc.1 hc.2 hsymbol htail hts
  | bare v => exact hc.elim
  | group negated body =>
    obtain ⟨mark, hmark, first, hfirst, inner, hinner, last, hlast, hw⟩ := of_mem_texts_group hw
    -- from the back: the closing bracket, what is enclosed, the opening bracket, the negation
    have hclosing : Scans (depth + 1) (last.toList ++ ']' :: tail) (.closing :: ts) :=
      (scans_closing hts).blanks (hgaps last hlast)
    have hinside := scans_textsOfStmt hgaps hc.2 hled.2 hinner
      (endsValue_of_gap (hgaps last hlast)) hclosing
    have hopens := opensGroup_of_gap (hgaps first hfirst)
      (opensGroup_of_led hc.2 hled.1 hinner (last.toList ++ ']' :: tail))
    have hopening := scans_opening hopens (hinside.blanks (hgaps first hfirst))
    have hgroup := scans_mark hgaps hmark hopening
    simpa [hw, tokens] using hgroup

theorem scans_textsOfAll (hgaps : AreGaps gaps) {depth : Nat} {cs : List Cond}
    (hcs : EachOfAll (fun _ => Token.Simple) depth cs) (hled : LedOfAll cs) {w : String}
    (hw : w ∈ textsOfAll gaps cs) {tail : List Char} {ts : List Token}
    (htail : endsValue depth tail = true) (hts : Scans depth tail ts) :
    Scans depth (w.toList ++ tail) (tokensOfAll cs ++ ts) := by
  match cs, hcs with
  | [], _ =>
    obtain rfl := List.mem_singleton.1 hw
    exact hts
  | [c], hcs =>
    rw [tokensOfAll, tokensOfAll, List.append_nil]
    exact scans_texts hgaps hcs.1 hled.1 hw htail hts
  | c :: d :: r, hcs =>
    obtain ⟨a, ha, hw⟩ := List.mem_flatMap.1 hw
    obtain ⟨b, hb, rfl⟩ := List.mem_map.1 hw
    have hrest := scans_textsOfAll hgaps hcs.2 hled.2 hb htail hts
    have hfirst := scans_texts hgaps hcs.1 hled.1 ha rfl hrest.space
    simpa [tokensOfAll] using hfirst

theorem scans_textsOfStmt (hgaps : AreGaps gaps) {depth : Nat} {s : List (List Cond)}
    (hs : EachOfStmt (fun _ => Token.Simple) depth s) (hled : LedOfStmt s) {w : String}
    (hw : w ∈ textsOfStmt gaps s) {tail : List Char} {ts : List Token}
    (htail : endsValue depth tail = true) (hts : Scans depth tail ts) :
    Scans depth (w.toList ++ tail) (tokensOfStmt s ++ ts) := by
  match s, hs with
  | [], _ =>
    obtain rfl := List.mem_singleton.1 hw
    exact hts
  | [cs], hs => exact scans_textsOfAll hgaps hs.2.1 hled.1 hw htail hts
  | cs :: ds :: r, hs =>
    obtain ⟨a, ha, hw⟩ := List.mem_flatMap.1 hw
    obtain ⟨b, hb, rfl⟩ := List.mem_map.1 hw
    have hrest := scans_textsOfStmt hgaps hs.2.2 hled.2 hb htail hts
    have hfirst := scans_textsOfAll hgaps hs.2.1 hled.1 ha rfl (scans_alternative hrest)
    simpa [tokensOfStmt] using hfirst

end

theorem symbol_mem_symbols (quoted : Bool) (op : Operator) : op.symbol ∈ op.symbols quoted := by
  cases op <;> cases quoted <;> decide

theorem marks_ne_nil {gap : String} (hgap : gap ∈ gaps) (negated : Bool) :
    ∃ mark, mark ∈ marks gaps negated := by
  cases negated with
  | false => exact ⟨"", List.mem_singleton_self _⟩
  | true => exact ⟨"NOT" ++ gap, List.mem_append_left _ (List.mem_map_of_mem hgap)⟩

mutual

theorem exists_mem_texts {gap : String} (hgap : gap ∈ gaps) (c : Cond) : ∃ w, w ∈ c.texts gaps := by
  cases c with
  | named field op v => exact ⟨_, List.mem_map_of_mem (symbol_mem_symbols v.quoted op)⟩
  | bare v => exact ⟨_, List.mem_singleton_self _⟩
  | group negated body =>
    obtain ⟨mark, hmark⟩ := marks_ne_nil hgap negated
    obtain ⟨inner, hinner⟩ := exists_mem_textsOfStmt hgap body
    exact ⟨_, List.mem_flatMap.2 ⟨mark, hmark, List.mem_flatMap.2 ⟨gap, hgap,
      List.mem_flatMap.2 ⟨inner, hinner, List.mem_map_of_mem hgap⟩⟩⟩⟩

theorem exists_mem_textsOfAll {gap : String} (hgap : gap ∈ gaps) (cs : List Cond) :
    ∃ w, w ∈ textsOfAll gaps cs := by
  match cs with
  | [] => exact ⟨"", List.mem_singleton_self _⟩
  | [c] => exact exists_mem_texts hgap c
  | c :: d :: r =>
    obtain ⟨a, ha⟩ := exists_mem_texts hgap c
    obtain ⟨b, hb⟩ := exists_mem_textsOfAll hgap (d :: r)
    exact ⟨_, List.mem_flatMap.2 ⟨a, ha, List.mem_map_of_mem hb⟩⟩

theorem exists_mem_textsOfStmt {gap : String} (hgap : gap ∈ gaps) (s : List (List Cond)) :
    ∃ w, w ∈ textsOfStmt gaps s := by
  match s with
  | [] => exact ⟨"", List.mem_singleton_self _⟩
  | [cs] => exact exists_mem_textsOfAll hgap cs
  | cs :: ds :: r =>
    obtain ⟨a, ha⟩ := exists_mem_textsOfAll hgap cs
    obtain ⟨b, hb⟩ := exists_mem_textsOfStmt hgap (ds :: r)
    exact ⟨_, List.mem_flatMap.2 ⟨a, ha, List.mem_map_of_mem hb⟩⟩

end

end Cond

namespace Stmt

/-- The texts of a filter. If the empty text is the only gap, every bracket is glued to what it
encloses and every negation to its bracket; if a space is, none is. -/
def texts (gaps : List String) (s : Stmt) : List String := Cond.textsOfStmt gaps s

/-- A filter of named conditions can be written with any gaps at its brackets, and is read as it was
from each of its texts. -/
theorem read_of_mem_texts {s : Stmt} (hne : s ≠ [])
    (hs : Cond.EachOfStmt (fun _ => Token.Simple) 0 s) (hled : Cond.LedOfStmt s)
    {gaps : List String} (hgaps : Cond.AreGaps gaps) (hsome : gaps ≠ []) :
    (∃ text, text ∈ s.texts gaps) ∧ ∀ text ∈ s.texts gaps, Stmt.read text = .ok s := by
  constructor
  · obtain ⟨gap, hgap⟩ := List.exists_mem_of_ne_nil gaps hsome
    exact Cond.exists_mem_textsOfStmt hgap s
  · intro text htext
    have hscans : Token.Scans 0 (text.toList ++ []) (Cond.tokensOfStmt s ++ []) :=
      Cond.scans_textsOfStmt hgaps hs hled htext rfl Token.scans_nil
    rw [List.append_nil, List.append_nil] at hscans
    exact read_of_scans ⟨hne, Cond.EachOfStmt.imp (fun _ _ _ _ => trivial) hs⟩ hscans

theorem read_of_mem_texts_nested :
    let s : Stmt := [[.group true [[.group false [[.named "a" .eq ⟨"1", false⟩]],
      .named "b" .ge ⟨"]", true⟩]]]]
    "![[a=1] b=+\"]\"]" ∈ s.texts [""] ∧ "NOT [ [ a=1 ] b>=\"]\" ]" ∈ s.texts [" "] ∧
    Stmt.read "![[a=1] b=+\"]\"]" = .ok s ∧ Stmt.read "NOT [ [ a=1 ] b>=\"]\" ]" = .ok s := by
  intro s
  have hglued : "![[a=1] b=+\"]\"]" ∈ s.texts [""] := by decide +kernel
  have hspaced : "NOT [ [ a=1 ] b>=\"]\" ]" ∈ s.texts [" "] := by decide +kernel
  have hs : Cond.EachOfStmt (fun _ => Token.Simple) 0 s := by
    have hname {name : String} (hne : name ≠ "") (hall : name.toList.all isNameChar = true) :
        IsName name := ⟨hne, List.all_eq_true.1 hall⟩
    have ha : Token.Simple (.named "a" .eq ⟨"1", false⟩) :=
      ⟨hname (by decide) rfl, by decide, by simp; decide⟩
    have hb : Token.Simple (.named "b" .ge ⟨"]", true⟩) :=
      ⟨hname (by decide) rfl, by simp [Literal.Simple]⟩
    simp [s, Cond.EachOfStmt, Cond.EachOfAll, Cond.Each, ha, hb]
  have hled : Cond.LedOfStmt s := by
    simp [s, Cond.LedOfStmt, Cond.LedOfAll, Cond.Led, Cond.leads]
  have hgaps {gap : String} (hgap : gap.toList.all isBlank = true) : Cond.AreGaps [gap] :=
    List.forall_mem_singleton.2 (List.all_eq_true.1 hgap)
  refine ⟨hglued, hspaced, ?_, ?_⟩
  · exact (read_of_mem_texts (List.cons_ne_nil _ _) hs hled (hgaps rfl) (by decide)).2 _ hglued
  · exact (read_of_mem_texts (List.cons_ne_nil _ _) hs hled (hgaps rfl) (by decide)).2 _ hspaced

end Stmt

end TorrentQuery
