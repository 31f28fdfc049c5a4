import Mathlib.Data.List.Forall2
import TorrentQuery.Proofs.Query.Scanning
import TorrentQuery.Query.Arguments

namespace TorrentQuery

open Text

def isFieldChar (c : Char) : Bool := isAlphabetic c || isDecimalDigit c || c == '_'

namespace Arguments

/-- What an argument is a condition on. -/
inductive StandsFor : String → Cond → Prop
  /-- Words without an operator are a value. -/
  | words {arg : String} : ' ' ∈ arg.toList → (∀ c ∈ arg.toList, c ∉ ['=', '<', '>', '"']) →
      StandsFor arg (.bare ⟨arg, true⟩)
  /-- A pattern with words in it is the value of its field. -/
  | pattern {field body suffix : String} {op : Operator} : field ≠ "" →
      (∀ c ∈ field.toList, isFieldChar c = true) → op ∈ [.eq, .ne] →
      ' ' ∈ body.toList → '"' ∉ body.toList → '\n' ∉ body.toList → suffix ∈ ["", "i"] →
      StandsFor (field ++ op.symbol ++ ("/" ++ body ++ "/" ++ suffix))
        (.named field op ⟨"/" ++ body ++ "/" ++ suffix, true⟩)
  /-- An argument without blanks is the condition that it is read as. -/
  | condition {arg field : String} {op : Operator} {v : Literal} :
      (∀ c ∈ arg.toList, isBlank c = false) → Stmt.read arg = .ok [[.named field op v]] →
      StandsFor arg (.named field op v)

end Arguments

theorem of_isFieldChar {c : Char} (hascii : ¬c.val < 128) (h : isFieldChar c = true) :
    isBlank c = false ∧ (isAlphabetic c = true ∨ category c = .nd) := by
  rw [isFieldChar, isDecimalDigit, if_neg hascii, Bool.or_eq_true, Bool.or_eq_true] at h
  rcases h with (halpha | hdigit) | hunderscore
  · refine ⟨?_, .inl halpha⟩
    rw [isAlphabetic, if_neg hascii] at halpha
    simp_all
  · exact ⟨by simp_all, .inr (by simp_all)⟩
  · obtain rfl := eq_of_beq hunderscore
    exact absurd (by decide) hascii

theorem isNameChar_of_isFieldChar {c : Char} (h : isFieldChar c = true) : isNameChar c = true := by
  unfold isNameChar isAlphanumeric
  by_cases hascii : c.val < 128
  · unfold isFieldChar isDecimalDigit at h
    simp_all [isAlphabetic, Char.isAlphanum]
  · obtain ⟨hblank, hkind⟩ := of_isFieldChar hascii h
    have hkind : (isAlphabetic c || (category c).isNumber) = true := by
      rcases hkind with hkind | hkind
      · rw [hkind, Bool.true_or]
      · rw [hkind]
        exact Bool.or_true _
    rw [if_neg hascii, hblank, hkind]
    rfl

theorem isWordChar_of_isFieldChar {c : Char} (h : isFieldChar c = true) : isWordChar c = true := by
  by_cases hascii : c.val < 128
  · simp_all [isFieldChar, isDecimalDigit, isWordChar, isAlphabetic, Char.isAlphanum]
  · obtain ⟨hblank, hkind⟩ := of_isFieldChar hascii h
    rw [isWordChar, if_neg hascii]
    rcases hkind with hkind | hkind <;> simp [hblank, hkind]

namespace Token

variable {depth : Nat} {s tail : List Char}

/-- An operator with its value is not changed by what stands behind the value. -/
theorem operator?_append {op : Operator} {n : Nat} {r : List Char}
    (h : operator? s = some (op, n, r)) (hr : r ≠ []) (htail : atBoundary tail = true) :
    operator? (s ++ tail) = some (op, n, r ++ tail) := by
  match s with
  | [] => cases h
  | [c] =>
    -- nothing is left for the value
    rcases eq_of_operator? h with ⟨d, -, heq⟩ | ⟨-, rfl⟩
    · cases heq
      exact absurd rfl hr
    · exact absurd rfl hr
  | c :: d :: rest =>
    have hquote : ((rest ++ tail).head? == some '"') = (rest.head? == some '"') := by
      cases rest with
      | cons => rfl
      | nil =>
        cases tail with
        | nil => rfl
        | cons e tail =>
          have he : e ≠ '"' := by
            rintro rfl
            cases htail
          simp [he]
    have hsingle (h : operator?.single (c :: d :: rest) = some (op, n, r)) :
        operator?.single (c :: d :: (rest ++ tail)) = some (op, n, r ++ tail) := by
      obtain ⟨op', hop, heq⟩ := Option.map_eq_some_iff.1 h
      cases heq
      exact Option.map_eq_some_iff.2 ⟨op, hop, rfl⟩
    unfold operator? at h ⊢
    simp only [List.cons_append, List.take_succ_cons, List.take_zero, List.drop_succ_cons,
      List.drop_zero, hquote] at h ⊢
    cases hpair : Operator.ofSymbol? [c, d] with
    | none =>
      rw [hpair] at h
      exact hsingle h
    | some op' =>
      rw [hpair] at h
      dsimp only at h ⊢
      split at h
      · next hwhole =>
        cases h
        rw [if_pos hwhole]
      · next hwhole =>
        rw [if_neg hwhole]
        exact hsingle h

theorem valueOf_append {field : String} {op : Operator} {width : Nat} {v : Literal}
    (h : valueOf depth field op width s = .ok (v, [])) (htail : atBoundary tail = true)
    (width' : Nat) : valueOf depth field op width' (s ++ tail) = .ok (v, tail) := by
  have hwhole := eq_append_of_valueOf h
  rw [List.append_nil] at hwhole
  rw [hwhole]
  exact valueOf_render (legible_of_valueOf h).1 htail

/-- A named condition is a name, an operator and a value. -/
theorem of_condition_named {field : String} {op : Operator} {v : Literal} {rest : List Char}
    (h : condition depth s = .ok (.named field op v, rest)) :
    IsName field ∧ ∃ r n value width, s = field.toList ++ r ∧ operator? r = some (op, n, value) ∧
      valueOf depth field op width value = .ok (v, rest) := by
  unfold condition at h
  dsimp only at h
  split at h
  · next op' n r hop =>
    split at hop
    · cases hop
    · next hword =>
      cases hv : valueOf depth (String.ofList (s.takeWhile isNameChar)) op'
          ((s.takeWhile isNameChar).length + n) r with
      | error e =>
        rw [hv] at h
        cases h
      | ok p =>
        rw [hv] at h
        cases h
        refine ⟨⟨?_, ?_⟩, s.dropWhile isNameChar, n, r, _, ?_, hop, hv⟩
        · rintro hempty
          exact hword (List.isEmpty_iff.2 (by simpa using congrArg String.toList hempty))
        · rw [String.toList_ofList]
          exact List.all_eq_true.1 List.all_takeWhile
        · rw [String.toList_ofList, List.takeWhile_append_dropWhile]
  · split at h
    · cases h
    · split at h
      · split at h <;> cases h
      · cases h

theorem condition_of_next_named {c : Char} {r rest : List Char} {field : String} {op : Operator}
    {v : Literal} (h : next depth c r = .ok (.named field op v, rest)) :
    condition depth (c :: r) = .ok (.named field op v, rest) := by
  unfold next at h
  split at h
  · cases h
  split at h
  · cases h
  split at h
  · cases h
  split at h
  · cases h
  split at h
  · cases hq : quotedValue depth r with
    | error e =>
      rw [hq] at h
      cases h
    | ok p =>
      rw [hq] at h
      cases h
  · exact h

/-- The first token of a text that starts with no blank. -/
theorem of_scanFrom_cons {position : Nat} {c : Char} {r : List Char} {ls : List Lexeme}
    (hblank : isBlank c = false) (h : scanFrom depth position (c :: r) = .ok ls) :
    ∃ t rest later ls', next depth c r = .ok (t, rest) ∧ ls = ⟨t, position⟩ :: ls' ∧
      scanFrom (depthAfter depth t) later rest = .ok ls' := by
  cases hnext : next depth c r with
  | error e =>
    rw [scanFrom, dif_neg (by simp [hblank])] at h
    split at h
    · cases h
    · next hok =>
      rw [hnext] at hok
      cases hok
  | ok p =>
    obtain ⟨t, rest⟩ := p
    rw [scanFrom_next hblank hnext] at h
    cases hrest : scanFrom (depthAfter depth t)
        (position + ((c :: r).length - rest.length)) rest with
    | error e =>
      rw [hrest] at h
      cases h
    | ok ls' =>
      rw [hrest] at h
      cases h
      exact ⟨t, rest, _, ls', rfl, rfl, hrest⟩

/-- A text without blanks that is a single token. -/
theorem next_of_scanFrom {position : Nat} {l : Lexeme}
    (hs : ∀ c ∈ s, isBlank c = false) (h : scanFrom depth position s = .ok [l]) :
    ∃ c r, s = c :: r ∧ next depth c r = .ok (l.token, []) := by
  cases s with
  | nil =>
    rw [scanFrom] at h
    cases h
  | cons c r =>
    obtain ⟨t, rest, later, ls', hnext, hls, hrest⟩ := of_scanFrom_cons (hs c List.mem_cons_self) h
    cases hls
    cases rest with
    | nil => exact ⟨c, r, rfl, hnext⟩
    | cons d rest =>
      -- a second token would have to follow
      have hd : d ∈ c :: r := (suffix_of_next hnext).subset List.mem_cons_self
      obtain ⟨_, _, _, _, -, hls, -⟩ := of_scanFrom_cons (hs d hd) hrest
      cases hls

end Token

namespace Arguments

section Pattern

variable {field body suffix : List Char}

/-- The body of a pattern is what stands between its slashes, whichever of its ends is tried. -/
theorem before?_suffix (body : List Char) (hsuffix : suffix ∈ [[], ['i']]) :
    (before? ['/', 'i'] (body ++ '/' :: suffix)).or (before? ['/'] (body ++ '/' :: suffix)) =
      some body := by
  rcases List.mem_pair.1 hsuffix with rfl | rfl
  · have hplain : before? ['/', 'i'] (body ++ ['/']) = none := by
      simp [before?, after?]
    rw [hplain, before?_append]
    rfl
  · rw [before?_append]
    rfl

/-- A pattern is taken apart behind its operator. -/
theorem patternValue?_pattern {op : Operator} (hfield : ∀ c ∈ field, isFieldChar c = true)
    (hop : op ∈ [.eq, .ne]) (hbody : '\n' ∉ body) (hsuffix : suffix ∈ [[], ['i']]) :
    patternValue? (field ++ (op.symbol.toList ++ '/' :: (body ++ '/' :: suffix))) =
      some (field ++ op.symbol.toList, '/' :: (body ++ '/' :: suffix)) := by
  have hword : ∀ c ∈ field, isWordChar c = true :=
    fun c hc => isWordChar_of_isFieldChar (hfield c hc)
  have hafter : after? ['/'] ('/' :: (body ++ '/' :: suffix)) = some (body ++ '/' :: suffix) :=
    after?_append ['/'] _
  have hlines : body.contains '\n' = false := by simpa using hbody
  have hsymbol : op.symbol.toList = ['='] ∨ op.symbol.toList = ['!', '='] := by
    rcases List.mem_pair.1 hop with rfl | rfl
    · exact .inl rfl
    · exact .inr rfl
  have hstop : (op.symbol.toList ++ '/' :: (body ++ '/' :: suffix)).head?.all (!isWordChar ·) =
      true := by
    rcases hsymbol with hsymbol | hsymbol <;> rw [hsymbol] <;> rfl
  obtain ⟨htake, hdrop⟩ := span_append hword hstop
  unfold patternValue?
  simp only [htake, hdrop]
  rcases hsymbol with hsymbol | hsymbol <;>
    simp only [hsymbol, List.cons_append, List.nil_append, hafter, Option.bind_some,
      before?_suffix body hsuffix, hlines, Bool.false_eq_true, if_false]

end Pattern

section Quoted

open Token

variable {tail : List Char} {ts : List Token}

theorem scans_words {arg : String} (hspace : ' ' ∈ arg.toList)
    (harg : ∀ c ∈ arg.toList, c ∉ ['=', '<', '>', '"']) (htail : atBoundary tail = true)
    (hts : Scans 0 tail ts) : Scans 0 ((quote arg).toList ++ tail) (.bare ⟨arg, true⟩ :: ts) := by
  have hquote : quote arg = "\"" ++ arg ++ "\"" := by
    have hoperator : arg.toList.any (fun c => c == '=' || c == '>' || c == '<') = false := by
      rw [List.any_eq_false]
      intro c hc
      have hc := harg c hc
      simp only [List.mem_cons, List.not_mem_nil, or_false, not_or] at hc
      simp [hc]
    have hhead : arg.toList.head? ≠ some '"' := fun h => harg '"' (List.mem_of_head? h) (by decide)
    simp [quote, hspace, hoperator, hhead]
  have hread : quotedValue 0 (arg.toList ++ '"' :: tail) = .ok (⟨arg, true⟩, tail) :=
    quotedValue_text (fun h => harg '"' h (by decide)) (endsValue_of_boundary htail)
  have hnext : next 0 '"' (arg.toList ++ '"' :: tail) = .ok (.bare ⟨arg, true⟩, tail) := by
    simp only [next, hread]
    rfl
  have hscans := scans_cons (c := '"') rfl hnext hts
  rw [hquote, String.toList_append, String.toList_append, List.append_assoc, List.append_assoc]
  exact hscans

/-- The value of a pattern is put in quotes. -/
theorem quote_pattern {field body suffix : String} {op : Operator}
    (hfield : ∀ c ∈ field.toList, isFieldChar c = true) (hop : op ∈ [.eq, .ne])
    (hspace : ' ' ∈ body.toList) (hlines : '\n' ∉ body.toList) (hsuffix : suffix ∈ ["", "i"]) :
    quote (field ++ op.symbol ++ ("/" ++ body ++ "/" ++ suffix)) =
      field ++ op.symbol ++ "\"" ++ ("/" ++ body ++ "/" ++ suffix) ++ "\"" := by
  have hsuffix : suffix.toList ∈ [[], ['i']] := by
    rcases List.mem_pair.1 hsuffix with rfl | rfl <;> decide
  have harg : (field ++ op.symbol ++ ("/" ++ body ++ "/" ++ suffix)).toList =
      field.toList ++ (op.symbol.toList ++ '/' :: (body.toList ++ '/' :: suffix.toList)) := by
    simp [String.toList_append]
  have hmem : '=' ∈ op.symbol.toList := by
    rcases List.mem_pair.1 hop with rfl | rfl <;> decide
  have hoperator : (field.toList ++ (op.symbol.toList ++
      '/' :: (body.toList ++ '/' :: suffix.toList))).any
        (fun c => c == '=' || c == '>' || c == '<') = true :=
    List.any_eq_true.2 ⟨'=', List.mem_append_right _ (List.mem_append_left _ hmem), rfl⟩
  unfold quote
  simp only [harg, patternValue?_pattern hfield hop hlines hsuffix, hoperator]
  rw [if_neg (by simp [hspace]), if_neg (by simp)]
  apply String.toList_injective
  simp [String.toList_append]

theorem scans_pattern {field body suffix : String} {op : Operator} (hne : field ≠ "")
    (hfield : ∀ c ∈ field.toList, isFieldChar c = true) (hop : op ∈ [.eq, .ne])
    (hspace : ' ' ∈ body.toList) (hquotes : '"' ∉ body.toList) (hlines : '\n' ∉ body.toList)
    (hsuffix : suffix ∈ ["", "i"]) (htail : atBoundary tail = true) (hts : Scans 0 tail ts) :
    Scans 0 ((quote (field ++ op.symbol ++ ("/" ++ body ++ "/" ++ suffix))).toList ++ tail)
      (.named field op ⟨"/" ++ body ++ "/" ++ suffix, true⟩ :: ts) := by
  rw [quote_pattern hfield hop hspace hlines hsuffix]
  have hvalue : '"' ∉ ("/" ++ body ++ "/" ++ suffix).toList := by
    rcases List.mem_pair.1 hsuffix with rfl | rfl <;> simp [hquotes]
  generalize "/" ++ body ++ "/" ++ suffix = value at hvalue ⊢
  have hname : IsName field := ⟨hne, fun c hc => isNameChar_of_isFieldChar (hfield c hc)⟩
  have hsymbol (s : List Char) :
      ∃ n, operator? (op.symbol.toList ++ '"' :: s) = some (op, n, '"' :: s) := by
    rcases List.mem_pair.1 hop with rfl | rfl <;> exact operator?_symbol trivial rfl
  obtain ⟨n, hoperator⟩ := hsymbol (value.toList ++ '"' :: tail)
  have hscans := Token.scans_condition hname hoperator
    (fun _ => valueOf_quoted hvalue (endsValue_of_boundary htail)) hts
  simpa [String.toList_append] using hscans

theorem scans_unquoted {arg field : String} {op : Operator} {v : Literal}
    (harg : ∀ c ∈ arg.toList, isBlank c = false)
    (hread : Stmt.read arg = .ok [[.named field op v]]) (htail : atBoundary tail = true)
    (hts : Scans 0 tail ts) :
    Scans 0 ((quote arg).toList ++ tail) (.named field op v :: ts) := by
  have hquote : quote arg = arg := by
    have hspace : ' ' ∉ arg.toList := fun h => Bool.noConfusion (harg ' ' h)
    simp [quote, hspace]
  obtain ⟨ls, hscan⟩ : ∃ ls, scan arg = .ok ls := by
    cases hscan : scan arg with
    | ok ls => exact ⟨ls, rfl⟩
    | error e =>
      rw [Stmt.read, hscan] at hread
      cases hread
  have htokens := ((Stmt.read_eq_ok_iff hscan).1 hread).2
  obtain ⟨l, rfl, hl⟩ := List.map_eq_singleton_iff.1 htokens.symm
  obtain ⟨c, r, hchars, hnext⟩ := next_of_scanFrom harg hscan
  rw [hl] at hnext
  obtain ⟨hname, s, n, value, width, hwhole, hop, hv⟩ :=
    of_condition_named (condition_of_next_named hnext)
  have hvalue : value ≠ [] := by
    rintro rfl
    cases hv
  rw [hquote, hchars, hwhole, List.append_assoc]
  exact Token.scans_condition hname (operator?_append hop hvalue htail) (valueOf_append hv htail)
    hts

/-- A quoted argument consists of its condition, in front of anything that starts with a blank. -/
theorem scans_quote {arg : String} {c : Cond} (h : StandsFor arg c) (htail : atBoundary tail = true)
    (hts : Scans 0 tail ts) : Scans 0 ((quote arg).toList ++ tail) (c.tokens ++ ts) := by
  cases h with
  | words hspace harg => exact scans_words hspace harg htail hts
  | pattern hne hfield hop hspace hquotes hlines hsuffix =>
    exact scans_pattern hne hfield hop hspace hquotes hlines hsuffix htail hts
  | condition harg hread => exact scans_unquoted harg hread htail hts

theorem scans_join {args : List String} {cs : List Cond} (h : List.Forall₂ StandsFor args cs) :
    Scans 0 (join args).toList (Cond.tokensOfAll cs) := by
  induction h with
  | nil => exact scans_nil
  | cons hfirst hrest ih =>
    rw [Cond.tokensOfAll]
    cases hrest with
    | nil =>
      have hscans : Scans 0 ((quote _).toList ++ []) _ := scans_quote hfirst rfl scans_nil
      simpa [join, joinWith, Cond.tokensOfAll] using hscans
    | cons hsecond hrest =>
      have hscans := scans_quote hfirst rfl ih.space
      simpa [join, joinWith, String.toList_append] using hscans

end Quoted

theorem full_of_standsFor {args : List String} {cs : List Cond} (hne : args ≠ [])
    (h : List.Forall₂ StandsFor args cs) : Stmt.Full [cs] := by
  have heach : Cond.EachOfAll (fun _ _ => True) 0 cs := by
    clear hne
    induction h with
    | nil => trivial
    | cons hfirst _ ih =>
      refine ⟨?_, ih⟩
      cases hfirst <;> trivial
  have hcs : cs ≠ [] := by
    rintro rfl
    exact hne (List.forall₂_nil_right_iff.1 h)
  exact ⟨List.cons_ne_nil _ _, hcs, heach, trivial⟩

/-- Each argument stays one condition. -/
theorem read_join {args : List String} {cs : List Cond} (hne : args ≠ [])
    (h : List.Forall₂ StandsFor args cs) : Stmt.read (join args) = .ok [cs] :=
  Stmt.read_of_scans (full_of_standsFor hne h)
    (by rw [Cond.tokensOfStmt]; exact scans_join h)

theorem read_join_three :
    Stmt.read (join ["arch linux", "message!=/not registered/i", "name=[ARCH]*"]) =
      .ok [[.bare ⟨"arch linux", true⟩, .named "message" .ne ⟨"/not registered/i", true⟩,
        .named "name" .eq ⟨"[ARCH]*", false⟩]] := by
  have hwords : StandsFor "arch linux" (.bare ⟨"arch linux", true⟩) :=
    .words (by decide) (by simp)
  have hpattern : StandsFor
      ("message" ++ Operator.ne.symbol ++ ("/" ++ "not registered" ++ "/" ++ "i"))
      (.named "message" .ne ⟨"/" ++ "not registered" ++ "/" ++ "i", true⟩) :=
    .pattern (by decide) (List.all_eq_true.1 rfl) (by decide) (by decide) (by decide) (by decide)
      (by decide)
  have hread : Stmt.read "name=[ARCH]*" = .ok [[.named "name" .eq ⟨"[ARCH]*", false⟩]] := by
    apply Stmt.read_of_scans
    · exact ⟨by simp, by simp, ⟨trivial, trivial⟩, trivial⟩
    · exact Token.scans_cons (c := 'n') (r := "ame=[ARCH]*".toList) rfl rfl Token.scans_nil
  have hcondition : StandsFor "name=[ARCH]*" (.named "name" .eq ⟨"[ARCH]*", false⟩) :=
    .condition (by simp; decide) hread
  exact read_join (List.cons_ne_nil _ _)
    (.cons hwords (.cons hpattern (.cons hcondition .nil)))

end Arguments

end TorrentQuery
