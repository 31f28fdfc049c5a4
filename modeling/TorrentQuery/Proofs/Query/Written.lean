import TorrentQuery.Proofs.Query.Legible
import TorrentQuery.Proofs.Text.Split

namespace TorrentQuery

open Text

/-- A name that conditions can be written with. -/
def IsName (s : String) : Prop := s ≠ "" ∧ ∀ c ∈ s.toList, isNameChar c = true

/-- What an equals sign would take along as part of the operator. -/
def Operator.absorbs : Operator → List Char → Bool
  | .eq, '=' :: _ => true
  | .eq, '+' :: '"' :: _ => true
  | .eq, '-' :: '"' :: _ => true
  | _, _ => false

namespace Token

def written : Token → String
  | .opening => "["
  | .closing => "]"
  | .negation => "NOT"
  | .alternative => "OR"
  | .named field op v => field ++ op.symbol ++ v.render
  | .bare v => v.render

/-- A condition of which the value does not start with what would belong to its operator. A value
without a field is written with an equals sign. -/
def Separable : Token → Prop
  | .named _ op v => v.quoted = false → op.absorbs v.text.toList = false
  | .bare v => v.quoted = false → Operator.absorbs .eq v.text.toList = false
  | _ => True

/-- A token that reads back as it is written with `depth` groups open. -/
def Printable (depth : Nat) : Token → Prop
  | .named field op v => (Token.named field op v).Legible depth ∧
      (Token.named field op v).Separable
  | .bare _ => False
  | _ => True

variable {depth : Nat}

theorem mem_of_ofSymbol? {c : Char} {r : List Char} {op : Operator}
    (h : Operator.ofSymbol? (c :: r) = some op) : c ∈ ['=', '!', '>', '<'] := by
  unfold Operator.ofSymbol? at h
  split at h <;> simp_all

theorem operator?_of_boundary {s : List Char} (h : atBoundary s = true) : operator? s = none := by
  cases s with
  | nil => rfl
  | cons c r =>
    have hblank : isBlank c = true := h
    have hnone (t : List Char) : Operator.ofSymbol? (c :: t) = none := by
      cases hop : Operator.ofSymbol? (c :: t) with
      | none => rfl
      | some op =>
        have hmem := mem_of_ofSymbol? hop
        simp only [List.mem_cons, List.not_mem_nil, or_false] at hmem
        rcases hmem with rfl | rfl | rfl | rfl <;> cases hblank
    simp [operator?, operator?.single, hnone]

/-- An operator reads back, if what follows could not have been part of it. -/
theorem operator?_symbol {op : Operator} {s : List Char} (hends : op.EndsBefore s)
    (habsorbs : op.absorbs s = false) :
    ∃ n, operator? (op.symbol.toList ++ s) = some (op, n, s) := by
  cases op with
  | ne => exact ⟨2, rfl⟩
  | ge => exact ⟨2, rfl⟩
  | le => exact ⟨2, rfl⟩
  | eq =>
    cases s with
    | nil => exact ⟨2, rfl⟩
    | cons c r =>
      refine ⟨1, ?_⟩
      change operator? ('=' :: c :: r) = _
      have hc : c ≠ '=' := by
        rintro rfl
        cases habsorbs
      -- a sign is left to the value unless a quote stands behind it
      by_cases hsign : c = '+' ∨ c = '-'
      · have hr : r.head? ≠ some '"' := by
          intro hr
          obtain ⟨r', rfl⟩ := List.head?_eq_some_iff.1 hr
          rcases hsign with rfl | rfl <;> cases habsorbs
        rcases hsign with rfl | rfl <;>
          simp [operator?, operator?.single, Operator.ofSymbol?, hr]
      · obtain ⟨hplus, hminus⟩ := not_or.1 hsign
        simp [operator?, operator?.single, Operator.ofSymbol?, hc, hplus, hminus]
  | gt =>
    cases s with
    | nil => exact ⟨2, rfl⟩
    | cons c r =>
      refine ⟨1, ?_⟩
      have hc : c ≠ '=' := fun hc => hends (congrArg some hc)
      change operator? ('>' :: c :: r) = _
      simp [operator?, operator?.single, Operator.ofSymbol?, hc]
  | lt =>
    cases s with
    | nil => exact ⟨2, rfl⟩
    | cons c r =>
      refine ⟨1, ?_⟩
      have hc : c ≠ '=' := fun hc => hends.1 (congrArg some hc)
      have hc' : c ≠ '>' := fun hc => hends.2 (congrArg some hc)
      change operator? ('<' :: c :: r) = _
      simp [operator?, operator?.single, Operator.ofSymbol?, hc, hc']

theorem not_blank_of_bareText {inSet started : Bool} {s : List Char}
    (h : bareText depth inSet started s = (s, [])) : s.any isBlank = false := by
  induction s generalizing inSet started with
  | nil => rfl
  | cons c r ih =>
    cases hstop : stops depth inSet started c with
    | true =>
      rw [bareText_of_stops hstop] at h
      cases h
    | false =>
      obtain ⟨inSet', hstep⟩ := bareText_of_not_stops hstop
      rw [hstep] at h
      obtain ⟨htext, hrest⟩ := Prod.mk.inj h
      have hr : bareText depth inSet' true r = (r, []) := Prod.ext (List.cons.inj htext).2 hrest
      have hc : isBlank c = false := by
        unfold stops at hstop
        exact (Bool.or_eq_false_iff.1 hstop).1
      rw [List.any_cons, hc, ih hr]
      rfl

theorem render_of_quoted (text : String) :
    (Literal.render ⟨text, true⟩).toList = '"' :: (text.toList ++ ['"']) := by
  have hrender : Literal.render ⟨text, true⟩ = "\"" ++ text ++ "\"" := rfl
  rw [hrender, String.toList_append, String.toList_append]
  rfl

theorem render_of_unquoted {v : Literal} (hv : v.Legible depth) (hquoted : v.quoted = false) :
    v.render = v.text := by
  simp only [Literal.Legible, hquoted, Bool.false_eq_true, if_false] at hv
  obtain ⟨hne, -, -, hwhole⟩ := hv
  have hempty : v.text.isEmpty = false := by
    rw [Bool.eq_false_iff, ne_eq, String.isEmpty_iff]
    rintro heq
    rw [heq] at hne
    exact hne rfl
  rw [Literal.render, hquoted, hempty, not_blank_of_bareText hwhole]
  rfl

/-- What stands behind a value and ends it: a blank or the closing bracket of a group. -/
def endsValue (depth : Nat) (s : List Char) : Bool := atBoundary s || closesGroup depth s

theorem endsValue_of_boundary {s : List Char} (h : atBoundary s = true) :
    endsValue depth s = true := by
  rw [endsValue, h, Bool.true_or]

theorem quotedValue_text {text : String} (htext : '"' ∉ text.toList) {tail : List Char}
    (htail : endsValue depth tail = true) :
    quotedValue depth (text.toList ++ '"' :: tail) = .ok (⟨text, true⟩, tail) := by
  have hkeep : ∀ c ∈ text.toList, (c != '"') = true := by
    intro c hc
    rw [bne_iff_ne]
    rintro rfl
    exact htext hc
  have hstop : ('"' :: tail).head?.all (!(· != '"') ·) = true := rfl
  obtain ⟨htake, hdrop⟩ := span_append hkeep hstop
  unfold endsValue at htail
  unfold quotedValue
  simp only [htake, hdrop, htail, if_true, String.ofList_toList]

theorem valueOf_quoted {field : String} {op : Operator} {width : Nat} {text : String}
    (htext : '"' ∉ text.toList) {tail : List Char} (htail : endsValue depth tail = true) :
    valueOf depth field op width ('"' :: (text.toList ++ '"' :: tail)) =
      .ok (⟨text, true⟩, tail) := by
  have hread : quotedValue depth (text.toList ++ '"' :: tail) = .ok (⟨text, true⟩, tail) :=
    quotedValue_text htext htail
  unfold valueOf
  simp only [hread]

theorem valueOf_bareText {field : String} {op : Operator} {width : Nat} {c : Char}
    {r tail : List Char} {text : String} (hblank : isBlank c = false) (hquote : c ≠ '"')
    (hcloses : closesGroup depth (c :: r) = false)
    (hread : bareText depth false false (c :: r) = (text.toList, tail)) :
    valueOf depth field op width (c :: r) = .ok (⟨text, false⟩, tail) := by
  unfold valueOf
  split
  · next heq =>
    cases heq
    exact absurd rfl hquote
  · next heq =>
    cases heq
    simp only [hblank, hcloses, hread, Bool.false_or, Bool.false_eq_true, if_false,
      String.ofList_toList]
  · next heq => cases heq

theorem valueOf_unquoted {field : String} {op : Operator} {width : Nat} {text : String}
    (htext : Literal.Legible depth ⟨text, false⟩) {tail : List Char}
    (htail : atBoundary tail = true) :
    valueOf depth field op width (text.toList ++ tail) = .ok (⟨text, false⟩, tail) := by
  simp only [Literal.Legible, Bool.false_eq_true, if_false] at htext
  obtain ⟨hne, hquote, hcloses, hwhole⟩ := htext
  have hblank := not_blank_of_bareText hwhole
  have hback := bareText_append hwhole htail
  obtain ⟨c, r, hs⟩ := List.exists_cons_of_ne_nil hne
  rw [hs] at hquote hcloses hblank
  rw [hs, List.cons_append, ← hs] at hback
  have hcblank : isBlank c = false := by
    rw [List.any_cons, Bool.or_eq_false_iff] at hblank
    exact hblank.1
  rw [hs, List.cons_append]
  exact valueOf_bareText hcblank (fun h => hquote (congrArg some h)) hcloses hback

/-- A value reads back as it is written. -/
theorem valueOf_render {field : String} {op : Operator} {width : Nat} {v : Literal}
    (hv : v.Legible depth) {tail : List Char} (htail : atBoundary tail = true) :
    valueOf depth field op width (v.render.toList ++ tail) = .ok (v, tail) := by
  obtain ⟨text, quoted⟩ := v
  cases quoted with
  | true =>
    have htext : '"' ∉ text.toList := by
      unfold Literal.Legible at hv
      exact hv
    rw [render_of_quoted, List.cons_append, List.append_assoc]
    exact valueOf_quoted htext (endsValue_of_boundary htail)
  | false =>
    rw [render_of_unquoted hv rfl]
    exact valueOf_unquoted hv htail

theorem append_bareText (depth : Nat) (inSet started : Bool) (s : List Char) :
    (bareText depth inSet started s).1 ++ (bareText depth inSet started s).2 = s := by
  induction s generalizing inSet started with
  | nil => rfl
  | cons c r ih =>
    unfold bareText
    split
    · rfl
    · exact congrArg (c :: ·) (ih _ _)

theorem eq_append_of_quotedValue {s : List Char} {v : Literal} {rest : List Char}
    (h : quotedValue depth s = .ok (v, rest)) : '"' :: s = v.render.toList ++ rest := by
  unfold quotedValue at h
  dsimp only at h
  split at h
  · cases h
  · next c r hdrop =>
    split at h
    · cases h
      have hquote : c = '"' := by simpa [hdrop] using List.head?_dropWhile_not (· != '"') s
      have hs : s.takeWhile (· != '"') ++ s.dropWhile (· != '"') = s :=
        List.takeWhile_append_dropWhile
      rw [hdrop, hquote] at hs
      rw [render_of_quoted, String.toList_ofList, List.cons_append, List.append_assoc,
        List.singleton_append, hs]
    · cases h

/-- A value and what stands behind it are the whole text. -/
theorem eq_append_of_valueOf {field : String} {op : Operator} {width : Nat} {s : List Char}
    {v : Literal} {rest : List Char} (h : valueOf depth field op width s = .ok (v, rest)) :
    s = v.render.toList ++ rest := by
  have hlegible := (legible_of_valueOf h).1
  unfold valueOf at h
  split at h
  · split at h
    · next hq =>
      cases h
      exact eq_append_of_quotedValue hq
    · cases h
  · next c r hquote =>
    split at h
    · cases h
    · cases h
      rw [render_of_unquoted hlegible rfl, String.toList_ofList]
      exact (append_bareText depth false false (c :: r)).symm
  · cases h

theorem absorbs_append {op : Operator} {s : List Char} (hne : s ≠ [])
    (h : op.absorbs s = false) {tail : List Char} (htail : atBoundary tail = true) :
    op.absorbs (s ++ tail) = false := by
  cases op with
  | eq =>
    match s, tail with
    | [c], d :: _ =>
      -- the quote would have to come from the tail, which starts with a blank
      have hd : d ≠ '"' := by
        rintro rfl
        cases htail
      have hc : c ≠ '=' := by
        rintro rfl
        cases h
      simp [Operator.absorbs, hc, hd]
    | [c], [] => exact h
    | c :: d :: r, tail =>
      unfold Operator.absorbs at h ⊢
      grind
  | _ => rfl

/-- A value does not become part of the operator in front of it. -/
theorem operator?_render {op : Operator} {v : Literal} (hv : v.Legible depth)
    (hends : v.quoted = false → op.EndsBefore v.text.toList)
    (habsorbs : v.quoted = false → op.absorbs v.text.toList = false) {tail : List Char}
    (htail : atBoundary tail = true) :
    ∃ n, operator? (op.symbol.toList ++ (v.render.toList ++ tail)) =
      some (op, n, v.render.toList ++ tail) := by
  obtain ⟨text, quoted⟩ := v
  cases quoted with
  | true =>
    rw [render_of_quoted]
    apply operator?_symbol <;> cases op <;> simp [Operator.EndsBefore, Operator.absorbs]
  | false =>
    rw [render_of_unquoted hv rfl]
    simp only [Literal.Legible, Bool.false_eq_true, if_false] at hv
    have hhead : text.toList.head? = (text.toList ++ tail).head? := by
      obtain ⟨c, r, hs⟩ := List.exists_cons_of_ne_nil hv.1
      rw [hs]
      rfl
    apply operator?_symbol
    · exact endsBefore_congr hhead (hends rfl)
    · exact absorbs_append hv.1 (habsorbs rfl) htail

theorem not_nameChar_of_blank {c : Char} (h : isBlank c = true) : isNameChar c = false := by
  have hunderscore : c ≠ '_' := by
    rintro rfl
    cases h
  have halphanumeric : isAlphanumeric c = false := by
    unfold isAlphanumeric
    split
    · next hascii =>
      simp only [isBlank, Bool.or_eq_true, Bool.and_eq_true, decide_eq_true_eq, beq_iff_eq,
        UInt32.le_iff_toNat_le, ← UInt32.toNat_inj, UInt32.lt_iff_toNat_lt,
        UInt32.reduceToNat] at h hascii
      have hcode : c.toNat = 9 ∨ c.toNat = 10 ∨ c.toNat = 11 ∨ c.toNat = 12 ∨ c.toNat = 13 ∨
          c.toNat = 32 := by
        change c.val.toNat = 9 ∨ c.val.toNat = 10 ∨ c.val.toNat = 11 ∨ c.val.toNat = 12 ∨
          c.val.toNat = 13 ∨ c.val.toNat = 32
        omega
      rw [← Char.ofNat_toNat c]
      rcases hcode with hcode | hcode | hcode | hcode | hcode | hcode <;> rw [hcode] <;> rfl
    · rw [h]
      rfl
  rw [isNameChar, halphanumeric, beq_eq_false_iff_ne.2 hunderscore]
  rfl

theorem not_blank_of_nameChar {c : Char} (h : isNameChar c = true) : isBlank c = false := by
  by_contra hblank
  rw [not_nameChar_of_blank (by simpa using hblank)] at h
  cases h

/-- An operator does not start like a name or a bracket. -/
theorem head_of_operator? {op : Operator} {n : Nat} {s r : List Char}
    (h : operator? s = some (op, n, r)) :
    ∃ c t, s = c :: t ∧ isNameChar c = false ∧ c ≠ '[' := by
  have hsymbol {c : Char} (hc : c ∈ ['=', '!', '>', '<']) : isNameChar c = false ∧ c ≠ '[' := by
    simp only [List.mem_cons, List.not_mem_nil, or_false] at hc
    rcases hc with rfl | rfl | rfl | rfl <;> decide
  rcases eq_of_operator? h with ⟨c, hc, rfl⟩ | ⟨hop, -⟩
  · exact ⟨c, r, rfl, hsymbol (mem_of_ofSymbol? hc)⟩
  · cases s with
    | nil => cases hop
    | cons c t => exact ⟨c, t, rfl, hsymbol (mem_of_ofSymbol? hop)⟩

theorem ne_bracket_of_name {c : Char} (h : isNameChar c = true) :
    c ≠ '[' ∧ c ≠ ']' ∧ c ≠ '!' ∧ c ≠ '"' := by
  refine ⟨?_, ?_, ?_, ?_⟩ <;> rintro rfl <;> exact absurd h (by decide)

/-- A name starts a condition, if it is not a negation with a bracket glued to it. -/
theorem next_of_name {c : Char} {r : List Char} (hname : isNameChar c = true)
    (hrest : ((c :: r).dropWhile isNameChar).head? ≠ some '[') :
    next depth c r = condition depth (c :: r) := by
  have hglued : (c == 'N' && ['O', 'T', '['].isPrefixOf r) = false := by
    by_contra hglued
    simp only [Bool.not_eq_false, Bool.and_eq_true, beq_iff_eq,
      List.isPrefixOf_iff_prefix] at hglued
    obtain ⟨rfl, r', rfl⟩ := hglued
    exact hrest rfl
  obtain ⟨hopening, hclosing, hbang, hquote⟩ := ne_bracket_of_name hname
  simp only [next, hglued, beq_eq_false_iff_ne.2 hopening, beq_eq_false_iff_ne.2 hclosing,
    beq_eq_false_iff_ne.2 hbang, beq_eq_false_iff_ne.2 hquote, Bool.false_and, Bool.false_eq_true,
    if_false]

/-- A value goes on where there is neither a blank nor a bracket that could close a group. -/
theorem bareText_of_unstopped {inSet started : Bool} {s : List Char}
    (hs : ∀ c ∈ s, isBlank c = false ∧ (depth = 0 ∨ c ≠ ']')) :
    bareText depth inSet started s = (s, []) := by
  induction s generalizing inSet started with
  | nil => rfl
  | cons c r ih =>
    obtain ⟨hblank, hcloses⟩ := hs c List.mem_cons_self
    have hstop : stops depth inSet started c = false := by
      rcases hcloses with rfl | hbracket
      · simp [stops, hblank]
      · simp [stops, hblank, hbracket]
    obtain ⟨inSet', hstep⟩ := bareText_of_not_stops hstop
    rw [hstep, ih fun d hd => hs d (List.mem_cons_of_mem _ hd)]

theorem bareText_of_name {inSet started : Bool} {name : List Char}
    (hname : ∀ c ∈ name, isNameChar c = true) :
    bareText depth inSet started name = (name, []) := by
  apply bareText_of_unstopped
  intro c hc
  have hc := hname c hc
  exact ⟨not_blank_of_nameChar hc, .inr (ne_bracket_of_name hc).2.1⟩

/-- A word without an operator behind it. -/
theorem next_word {c : Char} {r : List Char} (hname : ∀ d ∈ c :: r, isNameChar d = true)
    {tail : List Char} (htail : atBoundary tail = true) :
    next depth c (r ++ tail) =
      if c :: r == ['O', 'R'] then .ok (.alternative, tail)
      else if c :: r == ['N', 'O', 'T'] then
        if nextVisible tail == some '[' then .ok (.negation, tail) else .error (0, .looseNegation)
      else .ok (.bare ⟨String.ofList (c :: r), false⟩, tail) := by
  -- a blank ends the word and is no bracket that could be glued to it
  have hstop : tail.head?.all (!isNameChar ·) = true ∧ tail.head? ≠ some '[' := by
    cases tail with
    | nil => exact ⟨rfl, fun h => (nomatch h)⟩
    | cons d t =>
      have hd : isBlank d = true := htail
      refine ⟨by simp [not_nameChar_of_blank hd], ?_⟩
      intro hhead
      cases hhead
      cases hd
  obtain ⟨htake, hdrop⟩ := span_append hname hstop.1
  have htext : bareText depth false false (c :: r ++ tail) = (c :: r, tail) :=
    bareText_append (bareText_of_name hname) htail
  rw [List.cons_append] at htake hdrop htext
  rw [next_of_name (hname c List.mem_cons_self) (by rw [hdrop]; exact hstop.2)]
  unfold condition
  simp only [htake, hdrop, List.isEmpty_cons, Bool.false_eq_true, if_false,
    operator?_of_boundary htail, htext]

/-- A condition is a name, an operator and a value. -/
theorem next_condition {field : String} (hfield : IsName field) {s rest tail : List Char}
    {op : Operator} {n : Nat} (hop : operator? s = some (op, n, rest)) {v : Literal}
    (hvalue : ∀ width, valueOf depth field op width rest = .ok (v, tail)) :
    ∃ c r, field.toList = c :: r ∧ isBlank c = false ∧
      next depth c (r ++ s) = .ok (.named field op v, tail) := by
  obtain ⟨hne, hname⟩ := hfield
  obtain ⟨d, t, hs, hd, hbracket⟩ := head_of_operator? hop
  have hstop : s.head?.all (!isNameChar ·) = true := by simp [hs, hd]
  obtain ⟨htake, hdrop⟩ := span_append hname hstop
  obtain ⟨c, r, hchars⟩ :=
    List.exists_cons_of_ne_nil fun h => hne (String.toList_eq_nil_iff.1 h)
  have hc : isNameChar c = true := hname c (by simp [hchars])
  refine ⟨c, r, hchars, not_blank_of_nameChar hc, ?_⟩
  rw [hchars, List.cons_append] at htake hdrop
  rw [next_of_name hc (by rw [hdrop, hs]; simpa using hbracket)]
  unfold condition
  simp only [htake, hdrop, List.isEmpty_cons, Bool.false_eq_true, if_false, hop]
  rw [← hchars, String.ofList_toList, hvalue]
  rfl

theorem next_named {field : String} {op : Operator} {v : Literal}
    (h : (Token.named field op v).Printable depth) {tail : List Char}
    (htail : atBoundary tail = true) :
    ∃ c r, (Token.named field op v).written.toList = c :: r ∧ isBlank c = false ∧
      next depth c (r ++ tail) = .ok (.named field op v, tail) := by
  obtain ⟨⟨hhead, hname, hv, hends⟩, habsorbs⟩ := h
  have hfield : IsName field := by
    refine ⟨?_, hname⟩
    rintro rfl
    cases hhead
  obtain ⟨n, hop⟩ := operator?_render hv hends habsorbs htail
  obtain ⟨c, r, hchars, hblank, hnext⟩ :=
    next_condition hfield hop fun width => valueOf_render hv htail
  refine ⟨c, r ++ (op.symbol.toList ++ v.render.toList), ?_, hblank, ?_⟩
  · simp only [written, String.toList_append, hchars, List.cons_append, List.append_assoc]
  · rw [List.append_assoc, List.append_assoc]
    exact hnext

/-- A word can be the value of any condition. -/
theorem printable_of_word {field text : String} {op : Operator} {c : Char} {r : List Char}
    (hhead : field.toList.head?.any (!isBlank ·) = true)
    (hname : ∀ d ∈ field.toList, isNameChar d = true) (htext : text.toList = c :: r)
    (hword : ∀ d ∈ c :: r, isNameChar d = true) :
    (Token.named field op ⟨text, false⟩).Printable depth := by
  have hc := hword c List.mem_cons_self
  obtain ⟨-, hclosing, -, hquote⟩ := ne_bracket_of_name hc
  have hsign : c ≠ '=' ∧ c ≠ '>' ∧ c ≠ '+' ∧ c ≠ '-' := by
    refine ⟨?_, ?_, ?_, ?_⟩ <;> rintro rfl <;> exact absurd hc (by decide)
  obtain ⟨heq, hgt, hplus, hminus⟩ := hsign
  have hlegible : Literal.Legible depth ⟨text, false⟩ := by
    simp only [Literal.Legible, Bool.false_eq_true, if_false, htext]
    refine ⟨List.cons_ne_nil _ _, ?_, ?_, bareText_of_name hword⟩
    · simpa using hquote
    · simp [closesGroup, hclosing]
  refine ⟨⟨hhead, hname, hlegible, fun _ => ?_⟩, fun _ => ?_⟩
  · rw [htext]
    cases op <;> simp [Operator.EndsBefore, heq, hgt]
  · rw [htext]
    unfold Operator.absorbs
    grind

/-- A token reads back as it is written, up to the next blank. -/
theorem next_written {t : Token} (ht : t.Printable depth) {tail : List Char}
    (htail : atBoundary tail = true) (hnegation : t = .negation → nextVisible tail = some '[') :
    ∃ c r, t.written.toList = c :: r ∧ isBlank c = false ∧
      next depth c (r ++ tail) = .ok (t, tail) := by
  cases t with
  | opening =>
    refine ⟨'[', [], rfl, rfl, ?_⟩
    have hopens : opensGroup tail = true := by
      rw [opensGroup, htail, Bool.true_or, Bool.true_or, Bool.true_or]
    simp [next, hopens]
  | closing => exact ⟨']', [], rfl, rfl, rfl⟩
  | negation =>
    refine ⟨'N', ['O', 'T'], rfl, rfl, ?_⟩
    rw [next_word (List.all_eq_true.1 rfl) htail, hnegation rfl]
    rfl
  | alternative =>
    refine ⟨'O', ['R'], rfl, rfl, ?_⟩
    rw [next_word (List.all_eq_true.1 rfl) htail]
    rfl
  | named field op v => exact next_named ht htail
  | bare v => exact ht.elim

end Token

end TorrentQuery
