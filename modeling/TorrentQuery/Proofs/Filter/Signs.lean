import TorrentQuery.Proofs.Filter.Compilation
import TorrentQuery.Proofs.Query.Written

namespace TorrentQuery

open Number Text

inductive Operator.OfSign : Char → Operator → Prop
  | plus : OfSign '+' .ge
  | minus : OfSign '-' .le

namespace Catalogue

theorem isName_of_core : ∀ f ∈ coreFields, IsName f.name := by
  have hcore : ∀ f ∈ coreFields, f.name ≠ "" ∧ f.name.toList.all isNameChar = true := by decide
  exact fun f hf => ⟨(hcore f hf).1, List.all_eq_true.1 (hcore f hf).2⟩

/-- Only the commands for the number of files and for the size have amounts as answers. -/
theorem suffix_of_amount {name suffix : String} {f : Field}
    (h : command name suffix = .ok (some f)) (hkind : f.filter.isNumeric = true) :
    suffix.toList = "size_files".toList ∨ suffix.toList = "size_bytes".toList := by
  -- an underscore in a command says that points have not been put in
  have hplain {s : List Char} (hunderscore : '_' ∈ s)
      (heq : (commandName suffix).toList = "d.".toList ++ s) : suffix.toList = s := by
    rcases toList_commandName suffix with hsuffix | ⟨-, hpoints⟩
    · exact List.append_cancel_left (hsuffix.symm.trans heq)
    · rw [← List.append_cancel_left (hpoints.symm.trans heq), List.mem_map] at hunderscore
      obtain ⟨c, -, hc⟩ := hunderscore
      split at hc
      · cases hc
      · next hne => exact absurd (beq_iff_eq.2 hc) hne
  unfold command at h
  split at h
  · cases h
  · dsimp only at h
    split at h
    · next heq => exact .inl (hplain (by decide) (congrArg String.toList heq))
    · next heq => exact .inr (hplain (by decide) (congrArg String.toList heq))
    · cases h
      cases hkind

/-- The names of all fields of amounts can be written in conditions. -/
theorem isName_of_amount {name : String} {f : Field} (hf : registry.denotes name = .ok (some f))
    (hkind : f.filter.isNumeric = true) : IsName name := by
  unfold Registry.denotes at hf
  split at hf
  · next hget =>
    cases hf
    rw [← Registry.name_of_get? hget]
    exact isName_of_core f (List.mem_of_find?_eq_some hget)
  · obtain ⟨g, hg, suffix, hname, hmade⟩ := Registry.of_generateFrom hf
    simp only [registry, generators, List.mem_cons, List.not_mem_nil, or_false] at hg
    rcases hg with rfl | rfl | rfl | rfl | rfl | rfl | rfl
    · obtain ⟨key, -, rfl⟩ := Option.map_eq_some_iff.1 (Except.ok.inj hmade)
      cases hkind
    · simp only [kind] at hmade
      split at hmade
      · cases hmade
      · split at hmade
        · cases hmade
        · cases hmade
          cases hkind
    · simp only [release] at hmade
      split at hmade
      · cases hmade
      · cases hmade
        cases hkind
    · have hshort : ∀ s ∈ ["size_files".toList, "size_bytes".toList],
          ("d_".toList ++ s).all isNameChar = true := by decide
      have hall := hshort suffix.toList (by simpa using suffix_of_amount hmade hkind)
      rw [← hname] at hall
      refine ⟨?_, List.all_eq_true.1 hall⟩
      rintro rfl
      cases hname
    all_goals
      simp only [partCommand] at hmade
      split at hmade
      · cases hmade
      · cases hmade
        cases hkind

end Catalogue

namespace Token

/-- Outside groups any value without blanks and quotes can be read. -/
theorem legible_of_visible {v : String} (hne : v ≠ "")
    (hv : ∀ c ∈ v.toList, isBlank c = false ∧ c ≠ '"') : Literal.Legible 0 ⟨v, false⟩ := by
  simp only [Literal.Legible, Bool.false_eq_true, if_false]
  refine ⟨fun h => hne (String.toList_eq_nil_iff.1 h), fun h => ?_, rfl,
    bareText_of_unstopped fun c hc => ⟨(hv c hc).1, .inl rfl⟩⟩
  exact (hv '"' (List.mem_of_head? h)).2 rfl

end Token

namespace Stmt

/-- A text that is a single condition. -/
theorem read_condition {name text : String} (hname : IsName name) {s rest : List Char}
    (htext : text.toList = name.toList ++ s) {op : Operator} {n : Nat}
    (hop : Token.operator? s = some (op, n, rest)) {v : Literal}
    (hvalue : ∀ width, Token.valueOf 0 name op width rest = .ok (v, [])) :
    Stmt.read text = .ok [[.named name op v]] := by
  obtain ⟨c, r, hchars, hblank, hnext⟩ := Token.next_condition hname hop hvalue
  have hscan : Token.scan text = .ok [⟨.named name op v, 0⟩] := by
    unfold Token.scan
    rw [htext, hchars, List.cons_append, Token.scanFrom_next hblank hnext, Token.scanFrom]
    rfl
  unfold Stmt.read
  rw [hscan]
  rfl

/-- A value without quotes, behind an operator that does not go on in it. -/
theorem read_unquoted {name text : String} (hname : IsName name) {op : Operator} {v : String}
    (htext : text.toList = name.toList ++ (op.symbol.toList ++ v.toList))
    (hends : op.EndsBefore v.toList) (habsorbs : op.absorbs v.toList = false)
    (hlegible : Literal.Legible 0 ⟨v, false⟩) :
    Stmt.read text = .ok [[.named name op ⟨v, false⟩]] := by
  obtain ⟨n, hop⟩ := Token.operator?_symbol hends habsorbs
  refine read_condition hname htext hop fun width => ?_
  rw [← List.append_nil v.toList]
  exact Token.valueOf_unquoted hlegible rfl

end Stmt

namespace Filter

variable {α : Type} [Scalar α]

/-- Filters of one field with one test and one operator that is applied answer alike, however they
are written. -/
theorem alike_of_test {f g : Filter α} (hfield : f.field = g.field)
    (heffective : f.effective = g.effective) (htest : f.test = g.test) :
    (∀ {m : Type → Type} [Monad m] [MonadExceptOf QueryError m] (read : String → m (Value α)),
      f.eval read = g.eval read) ∧ f.preFilter = g.preFilter := by
  obtain ⟨field, op, effective, value, test⟩ := f
  obtain ⟨field', op', effective', value', test'⟩ := g
  cases hfield
  cases heffective
  cases htest
  exact ⟨fun _ => rfl, rfl⟩

end Filter

namespace Operator.OfSign

variable {sign : Char} {signed : Operator}

theorem visible (h : OfSign sign signed) : isBlank sign = false ∧ sign ≠ '"' := by
  cases h <;> decide

/-- A sign is left to the value unless a quote stands behind it. -/
theorem not_absorbed (h : OfSign sign signed) {s : List Char} (hs : s.head? ≠ some '"') :
    Operator.eq.absorbs (sign :: s) = false := by
  cases s with
  | nil => cases h <;> rfl
  | cons c r =>
    have hc : c ≠ '"' := fun hc => hs (congrArg some hc)
    cases h <;> simp [absorbs, hc]

theorem operator? (h : OfSign sign signed) {s : List Char} :
    Token.operator? ('=' :: sign :: '"' :: s) = some (signed, 2, '"' :: s) := by
  cases h <;> rfl

theorem splitSign (h : OfSign sign signed) {v : String} :
    Filter.splitSign .eq (String.ofList (sign :: v.toList)) = (signed, v) := by
  cases h <;> simp [Filter.splitSign]

/-- No second sign is split off. -/
theorem splitSign_signed (h : OfSign sign signed) {v : String} :
    Filter.splitSign signed v = (signed, v) := by
  cases h <;> rfl

end Operator.OfSign

namespace Matcher

variable {α : Type} [Scalar α] {now : α} {r : Registry} {name v : String} {field : Field}

theorem ofStmt_singleton (now : α) (c : Cond) : ofStmt now [[c]] = ofCond now c := by
  simp only [ofStmt, ofAlternatives, ofConds, pare, bind_assoc, pure_bind, bind_pure]

/-- A text that is a single condition becomes its filter. -/
theorem run_ofText {text : String} {op : Operator} {value : Literal}
    (hread : Stmt.read text = .ok [[.named name op value]])
    (hfield : ((Registry.resolve name).run.run r).1 = .ok field) :
    ((ofText now text).run.run r).1 = (Filter.ofCondition now field op value).map .leaf := by
  unfold ofText
  rw [hread]
  change ((ofStmt now [[.named name op value]]).run.run r).1 = _
  have hrun : ((condition now name op value).run.run r).1 =
      ((Leaf.named name op value).filter now r).map .leaf :=
    congrArg Prod.fst (run_condition r (.named name op value))
  rw [ofStmt_singleton, ofCond, hrun]
  simp only [Leaf.filter, Leaf.named, hfield]
  rfl

/-- Texts that cannot be told apart by what is made of them. Either they fail in the same way, or
they become filters that answer alike for all items and let the daemon check the same. -/
def Alike (now : α) (r : Registry) (texts : List String) : Prop :=
  (∃ e, ∀ text ∈ texts, ((ofText now text).run.run r).1 = .error e) ∨
  ∃ f : Filter α, ∀ text ∈ texts, ∃ g, ((ofText now text).run.run r).1 = .ok (.leaf g) ∧
    (∀ {m : Type → Type} [Monad m] [MonadExceptOf QueryError m] (read : String → m (Value α)),
      g.eval read = f.eval read) ∧ g.preFilter = f.preFilter

/-- Conditions on an amount are alike if they come to the same operator and value. -/
theorem alike_of_splitSign (hfield : ((Registry.resolve name).run.run r).1 = .ok field)
    (hkind : field.filter.isNumeric = true) {signed : Operator} {texts : List String}
    (htexts : ∀ text ∈ texts, ∃ op value, Stmt.read text = .ok [[.named name op value]] ∧
      Filter.splitSign op value.text = (signed, v)) : Alike now r texts := by
  cases htest : Test.read now field.filter v with
  | error fault =>
    refine .inl ⟨.invalidValue field.name v fault, fun text ht => ?_⟩
    obtain ⟨op, value, hread, hsign⟩ := htexts text ht
    rw [run_ofText hread hfield, Filter.ofCondition_of_splitSign now hkind hsign, htest]
    rfl
  | ok test =>
    refine .inr ⟨⟨field, signed, test.effective signed, ⟨v, false⟩, test⟩, fun text ht => ?_⟩
    obtain ⟨op, value, hread, hsign⟩ := htexts text ht
    refine ⟨⟨field, op, test.effective signed, value, test⟩, ?_, Filter.alike_of_test rfl rfl rfl⟩
    rw [run_ofText hread hfield, Filter.ofCondition_of_splitSign now hkind hsign, htest]
    rfl

theorem alike_of_sign {sign : Char} {signed : Operator} (hsign : Operator.OfSign sign signed)
    (hfield : ((Registry.resolve name).run.run r).1 = .ok field)
    (hkind : field.filter.isNumeric = true) (hname : IsName name)
    (hne : v ≠ "") (hv : ∀ c ∈ v.toList, isBlank c = false ∧ c ≠ '"') {bare symbol quoted : String}
    (hbare : bare.toList = name.toList ++ '=' :: sign :: v.toList)
    (hsymbol : symbol.toList = name.toList ++ (signed.symbol.toList ++ v.toList))
    (hquoted : quoted.toList = name.toList ++ '=' :: sign :: '"' :: (v.toList ++ ['"'])) :
    Alike now r [bare, symbol, quoted] := by
  have hquote : '"' ∉ v.toList := fun h => (hv _ h).2 rfl
  -- the sign as a part of the value
  have hwhole : (String.ofList (sign :: v.toList)).toList = sign :: v.toList :=
    String.toList_ofList
  have hreadBare : Stmt.read bare =
      .ok [[.named name .eq ⟨String.ofList (sign :: v.toList), false⟩]] := by
    apply Stmt.read_unquoted hname
    · rw [hwhole]
      exact hbare
    · trivial
    · rw [hwhole]
      exact hsign.not_absorbed fun h => hquote (List.mem_of_head? h)
    · apply Token.legible_of_visible
      · intro h
        rw [h] at hwhole
        cases hwhole
      · rw [hwhole]
        exact List.forall_mem_cons.2 ⟨hsign.visible, hv⟩
  have hreadSymbol : Stmt.read symbol = .ok [[.named name signed ⟨v, false⟩]] := by
    refine Stmt.read_unquoted hname hsymbol ?_ ?_ (Token.legible_of_visible hne hv)
    · cases hsign <;> trivial
    · cases hsign <;> rfl
  -- the sign as a part of the operator
  have hreadQuoted : Stmt.read quoted = .ok [[.named name signed ⟨v, true⟩]] :=
    Stmt.read_condition hname hquoted hsign.operator? fun width =>
      Token.valueOf_quoted hquote rfl
  apply alike_of_splitSign hfield hkind
  simp only [List.mem_cons, List.not_mem_nil, or_false, forall_eq_or_imp, forall_eq]
  exact ⟨⟨_, _, hreadBare, hsign.splitSign⟩, ⟨_, _, hreadSymbol, hsign.splitSign_signed⟩,
    ⟨_, _, hreadQuoted, hsign.splitSign_signed⟩⟩

/-- The three ways of writing that an amount is at least or at most some value are alike. The name of
the field must be one that conditions can be written with, as for every amount in the catalogue. -/
theorem signs_alike (hfield : ((Registry.resolve name).run.run r).1 = .ok field)
    (hkind : field.filter.isNumeric = true)
    (hname : IsName name ∨ (Registry.runner Catalogue.registry.denotes).fits r)
    (hne : v ≠ "") (hv : ∀ c ∈ v.toList, isBlank c = false ∧ c ≠ '"') :
    Alike now r [name ++ "=+" ++ v, name ++ ">=" ++ v, name ++ "=+\"" ++ v ++ "\""] ∧
    Alike now r [name ++ "=-" ++ v, name ++ "<=" ++ v, name ++ "=-\"" ++ v ++ "\""] := by
  have hname : IsName name := by
    rcases hname with hname | hr
    · exact hname
    · exact Catalogue.isName_of_amount (Registry.denotes_of_resolve hr hfield) hkind
  constructor
  · apply alike_of_sign .plus hfield hkind hname hne hv <;> simp [Operator.symbol]
  · apply alike_of_sign .minus hfield hkind hname hne hv <;> simp [Operator.symbol]

theorem signs_alike_size :
    (∃ n : Matcher Float, ((ofText 0 "size=+10").run.run Catalogue.registry).1 = .ok n) ∧
    Alike (0 : Float) Catalogue.registry ["size=+10", "size>=10", "size=+\"10\""] ∧
    Alike (0 : Float) Catalogue.registry ["size=-10", "size<=10", "size=-\"10\""] := by
  have hfield : ((Registry.resolve "size").run.run Catalogue.registry).1 =
      .ok (Catalogue.keyed "size" .byteSize .byteSize "data size" "d.size_bytes=") := rfl
  have hvalue : "10".toList.all (fun c => !isBlank c && c != '"') = true := by decide
  refine ⟨?_, signs_alike (v := "10") hfield rfl (.inr ⟨Catalogue.registry_faithful, fun _ => rfl⟩)
    (by decide) fun c hc => by simpa using List.all_eq_true.1 hvalue c hc⟩
  have hread : Stmt.read "size=+10" = .ok [[.named "size" .eq ⟨"+10", false⟩]] := by with_unfolding_all rfl
  rw [run_ofText hread hfield]
  exact ⟨_, rfl⟩

end Matcher

end TorrentQuery
