import TorrentQuery.Proofs.Field.Denotation
import TorrentQuery.Proofs.Filter.Canonical
import TorrentQuery.Proofs.Filter.Kinds
import TorrentQuery.Proofs.Query.RoundTrip

namespace TorrentQuery

open Number Text

namespace Filter

variable {α : Type} [Scalar α] {now : α} {field : Field} {op : Operator} {v : Literal}
  {f : Filter α}

/-- The written form of a truth value is read as that truth value. -/
theorem ofCondition_flag (hkind : field.filter = .bool) (wanted : Bool) :
    ofCondition now field op ⟨if wanted then "yes" else "no", false⟩ =
      .ok ⟨field, op, op, ⟨if wanted then "yes" else "no", false⟩, .flag wanted⟩ := by
  have hread : Test.read now .bool (if wanted then "yes" else "no") = .ok (.flag wanted) := by
    cases wanted <;> rfl
  unfold ofCondition
  simp only [hkind, FilterKind.isNumeric, Bool.false_eq_true, if_false, hread]
  rfl

/-- A filter is the condition that its text shows. -/
theorem ofCondition_canonical (hf : ofCondition now field op v = .ok f) :
    ∃ v', ofCondition now field op v' = .ok f.canonical ∧
      f.render = field.name ++ op.symbol ++ v'.render ∧
      (v' = v ∨ v' = ⟨"yes", false⟩ ∨ v' = ⟨"no", false⟩) := by
  -- all but truth values are written as they were
  have hkeep (hcanonical : f.canonical = f)
      (hrender : f.render = field.name ++ op.symbol ++ v.render) :
      ∃ v', ofCondition now field op v' = .ok f.canonical ∧
        f.render = field.name ++ op.symbol ++ v'.render ∧
        (v' = v ∨ v' = ⟨"yes", false⟩ ∨ v' = ⟨"no", false⟩) :=
    ⟨v, by rw [hcanonical, hf], hrender, .inl rfl⟩
  obtain ⟨-, s, hread⟩ := of_ofCondition hf
  have hparts := hf
  unfold ofCondition at hparts
  simp only at hparts
  split at hparts
  · next test htest =>
    cases hparts
    cases test with
    | flag wanted =>
      have hkind := Test.bool_of_read_flag hread
      refine ⟨⟨if wanted then "yes" else "no", false⟩, ?_, ?_, ?_⟩
      · rw [ofCondition_flag hkind]
        simp only [hkind, FilterKind.isNumeric, Bool.false_eq_true, if_false]
        rfl
      · cases wanted <;> rfl
      · cases wanted
        · exact .inr (.inr rfl)
        · exact .inr (.inl rfl)
    | _ => exact hkeep rfl rfl
  · cases hparts

end Filter

namespace Matcher

variable {α : Type}

theorem render_pare (ms : List (Matcher α)) :
    (pare .all ms).render = joinWith " " (render.renderAll ms) ∧
      (pare .any ms).render = joinWith " OR " (render.renderAll ms) := by
  match ms with
  | [] => exact ⟨rfl, rfl⟩
  | [m] => exact ⟨String.intercalate_singleton.symm, String.intercalate_singleton.symm⟩
  | _ :: _ :: _ => exact ⟨rfl, rfl⟩

variable [Scalar α]

section Denotation

variable (stands : String → Except QueryError (Option Field)) (now : α)

def KeepsNames : Prop := ∀ name f, stands name = .ok (some f) → f.name = name

def condition? (name : String) (op : Operator) (v : Literal) : Option (Matcher α) :=
  ((stands name).toOption.bind id).bind fun field =>
    (Filter.ofCondition now field op v).toOption.map .leaf

mutual

def ofCond? : Cond → Option (Matcher α)
  | .named field op v => condition? stands now field op v
  | .bare v => condition? stands now "name" .eq v
  | .group negated body => (ofAlternatives? body).map fun ms => .group negated (pare .any ms)

def ofConds? : List Cond → Option (List (Matcher α))
  | [] => some []
  | c :: r => (ofCond? c).bind fun m => (ofConds? r).map (m :: ·)

def ofAlternatives? : List (List Cond) → Option (List (Matcher α))
  | [] => some []
  | cs :: r => (ofConds? cs).bind fun ms => (ofAlternatives? r).map (pare .all ms :: ·)

end

theorem settled_condition (name : String) (op : Operator) (v : Literal) :
    Settled (Registry.runner stands) (condition now name op v)
      (condition? stands now name op v) := by
  apply Registry.settled_resolve.bind
  intro field _
  cases Filter.ofCondition now field op v with
  | ok f => exact Settled.pure _
  | error e => exact Settled.throw _

mutual

theorem settled_ofCond (c : Cond) :
    Settled (Registry.runner stands) (ofCond now c) (ofCond? stands now c) := by
  cases c with
  | named field op v => exact settled_condition stands now field op v
  | bare v => exact settled_condition stands now "name" .eq v
  | group negated body => exact (settled_ofAlternatives body).map _

theorem settled_ofConds (cs : List Cond) :
    Settled (Registry.runner stands) (ofConds now cs) (ofConds? stands now cs) := by
  cases cs with
  | nil => exact Settled.pure []
  | cons c r => exact (settled_ofCond c).bind fun m _ => (settled_ofConds r).map (m :: ·)

theorem settled_ofAlternatives (s : List (List Cond)) :
    Settled (Registry.runner stands) (ofAlternatives now s) (ofAlternatives? stands now s) := by
  cases s with
  | nil => exact Settled.pure []
  | cons cs r => exact (settled_ofConds cs).bind fun ms _ => (settled_ofAlternatives r).map (_ :: ·)

end

theorem settled_ofText {text : String} {s : Stmt} (hread : Stmt.read text = .ok s) :
    Settled (Registry.runner stands) (ofText now text)
      ((ofAlternatives? stands now s).map (pare .any)) := by
  unfold ofText
  rw [hread]
  exact (settled_ofAlternatives stands now s).map _

end Denotation

section Display

variable {stands : String → Except QueryError (Option Field)} {now : α}

theorem condition_display (hstands : KeepsNames stands) {depth : Nat} {name : String}
    {op : Operator} {v : Literal} (hv : (Token.named name op v).Printable depth) {m : Matcher α}
    (hm : condition? stands now name op v = some m) :
    ∃ v', (Token.named name op v').Printable depth ∧
      (Token.named name op v').written = m.render ∧
      condition? stands now name op v' = some m.canonical := by
  obtain ⟨field, hfield, hm⟩ := Option.bind_eq_some_iff.1 hm
  obtain ⟨f, hf, rfl⟩ := Option.map_eq_some_iff.1 hm
  obtain ⟨found, hfound, rfl⟩ := Option.bind_eq_some_iff.1 hfield
  obtain ⟨v', hv', hrender, hsame⟩ := Filter.ofCondition_canonical (eq_ok_of_toOption hf)
  have hname := hstands name field (eq_ok_of_toOption hfound)
  refine ⟨v', ?_, ?_, ?_⟩
  · rcases hsame with rfl | rfl | rfl
    · exact hv
    · exact Token.printable_of_word hv.1.1 hv.1.2.1 rfl (List.all_eq_true.1 rfl)
    · exact Token.printable_of_word hv.1.1 hv.1.2.1 rfl (List.all_eq_true.1 rfl)
  · rw [Token.written, ← hname]
    exact hrender.symm
  · simp only [condition?, hfound, Option.bind_some, id_eq, hv']
    rfl

mutual

theorem ofCond_display (hstands : KeepsNames stands) {depth : Nat} {c : Cond}
    (hc : c.Each Token.Legible depth) (hseparable : ∀ t ∈ c.tokens, t.Separable) {m : Matcher α}
    (hm : ofCond? stands now c = some m) :
    ∃ c', Cond.Each Token.Printable depth c' ∧ Token.text c'.tokens = m.render ∧
      ofCond? stands now c' = some m.canonical := by
  cases c with
  | named field op v =>
    obtain ⟨v', hprintable, hwritten, hm'⟩ :=
      condition_display hstands ⟨hc, hseparable _ List.mem_cons_self⟩ hm
    exact ⟨.named field op v', hprintable, (Token.text_singleton _).trans hwritten, hm'⟩
  | bare v =>
    -- written out as a condition on the name
    have hlegible : (Token.named "name" .eq v).Legible depth :=
      ⟨by decide, List.all_eq_true.1 rfl, hc, fun _ => trivial⟩
    have hname : (Token.named "name" .eq v).Separable := hseparable (.bare v) List.mem_cons_self
    obtain ⟨v', hprintable, hwritten, hm'⟩ := condition_display hstands ⟨hlegible, hname⟩ hm
    exact ⟨.named "name" .eq v', hprintable, (Token.text_singleton _).trans hwritten, hm'⟩
  | group negated body =>
    obtain ⟨ms, hms, rfl⟩ := Option.map_eq_some_iff.1 hm
    have hbody : ∀ t ∈ Cond.tokensOfStmt body, t.Separable := by
      intro t ht
      apply hseparable
      simp [Cond.tokens, ht]
    obtain ⟨s, hlength, hs, htext, hs'⟩ := ofAlternatives_display hstands hc.2 hbody hms
    have hne : s ≠ [] := by
      rintro rfl
      exact hc.1 (List.length_eq_zero_iff.1 hlength.symm)
    refine ⟨.group negated s, ⟨hne, hs⟩, ?_, ?_⟩
    · rw [Cond.text_group negated (Cond.tokensOfStmt_ne_nil hs hne), Cond.text_tokensOfStmt hs,
        htext, render, (render_pare ms).2]
    · rw [ofCond?, hs', canonical, (canonical_pare ms).2]
      rfl

theorem ofConds_display (hstands : KeepsNames stands) {depth : Nat} {cs : List Cond}
    (hcs : Cond.EachOfAll Token.Legible depth cs)
    (hseparable : ∀ t ∈ Cond.tokensOfAll cs, t.Separable) {ms : List (Matcher α)}
    (hms : ofConds? stands now cs = some ms) :
    ∃ cs' : List Cond, cs'.length = cs.length ∧ Cond.EachOfAll Token.Printable depth cs' ∧
      (cs'.map fun c => Token.text c.tokens) = render.renderAll ms ∧
      ofConds? stands now cs' = some (canonical.canonicalAll ms) := by
  cases cs with
  | nil =>
    cases hms
    exact ⟨[], rfl, trivial, rfl, rfl⟩
  | cons c r =>
    obtain ⟨m, hm, hms⟩ := Option.bind_eq_some_iff.1 hms
    obtain ⟨rest, hrest, rfl⟩ := Option.map_eq_some_iff.1 hms
    obtain ⟨hfirst, hothers⟩ := List.forall_mem_append.1 hseparable
    obtain ⟨c', hc', htext, hm'⟩ := ofCond_display hstands hcs.1 hfirst hm
    obtain ⟨r', hlength, hr', htexts, hrest'⟩ := ofConds_display hstands hcs.2 hothers hrest
    refine ⟨c' :: r', congrArg Nat.succ hlength, ⟨hc', hr'⟩, ?_, ?_⟩
    · rw [List.map_cons, htext, htexts, render.renderAll]
    · rw [ofConds?, hm', hrest']
      rfl

theorem ofAlternatives_display (hstands : KeepsNames stands) {depth : Nat}
    {s : List (List Cond)} (hs : Cond.EachOfStmt Token.Legible depth s)
    (hseparable : ∀ t ∈ Cond.tokensOfStmt s, t.Separable) {ms : List (Matcher α)}
    (hms : ofAlternatives? stands now s = some ms) :
    ∃ s' : List (List Cond), s'.length = s.length ∧ Cond.EachOfStmt Token.Printable depth s' ∧
      (s'.map fun cs => Token.text (Cond.tokensOfAll cs)) = render.renderAll ms ∧
      ofAlternatives? stands now s' = some (canonical.canonicalAll ms) := by
  cases s with
  | nil =>
    cases hms
    exact ⟨[], rfl, trivial, rfl, rfl⟩
  | cons cs r =>
    obtain ⟨first, hfirst, hms⟩ := Option.bind_eq_some_iff.1 hms
    obtain ⟨rest, hrest, rfl⟩ := Option.map_eq_some_iff.1 hms
    obtain ⟨hsubset, hsubset'⟩ := Cond.tokensOfStmt_cons_subset cs r
    obtain ⟨cs', hlength, hcs', htexts, hfirst'⟩ :=
      ofConds_display hstands hs.2.1 (fun t ht => hseparable t (hsubset ht)) hfirst
    obtain ⟨r', hlength', hr', htexts', hrest'⟩ :=
      ofAlternatives_display hstands hs.2.2 (fun t ht => hseparable t (hsubset' ht)) hrest
    have hne : cs' ≠ [] := by
      rintro rfl
      exact hs.1 (List.length_eq_zero_iff.1 hlength.symm)
    refine ⟨cs' :: r', congrArg Nat.succ hlength', ⟨hne, hcs', hr'⟩, ?_, ?_⟩
    · rw [List.map_cons, Cond.text_tokensOfAll, htexts, htexts', render.renderAll,
        (render_pare first).1]
    · rw [ofAlternatives?, hfirst', hrest', canonical.canonicalAll, (canonical_pare first).1]
      rfl

end

end Display

theorem settled_render {r r' : Registry} (hr : r.Faithful) {now : α} {text : String}
    {m : Matcher α} (hm : (ofText now text).run.run r = (.ok m, r'))
    (hseparable : ∀ s, Stmt.read text = .ok s → ∀ t ∈ Cond.tokensOfStmt s, t.Separable) :
    (Registry.runner r.denotes).fits r' ∧
      Settled (Registry.runner r.denotes) (ofText now m.render) (some m.canonical) := by
  cases hread : Stmt.read text with
  | error e =>
    unfold ofText at hm
    rw [hread] at hm
    cases hm
  | ok s =>
    obtain ⟨hne, hlegible⟩ := Stmt.legible_of_read hread
    have hrun : (Registry.runner r.denotes).run (ofText now text).run r = (.ok m, r') := hm
    obtain ⟨hsome, hfits⟩ := settled_ofText r.denotes now hread r ⟨hr, fun _ => rfl⟩
    rw [hrun] at hsome hfits
    obtain ⟨ms, hms, rfl⟩ := Option.map_eq_some_iff.1 hsome.symm
    obtain ⟨s', hlength, hprintable, htexts, hms'⟩ := ofAlternatives_display
      (fun _ _ => Registry.name_of_denotes hr) hlegible (hseparable s hread) hms
    have hne' : s' ≠ [] := by
      rintro rfl
      exact hne (List.length_eq_zero_iff.1 hlength.symm)
    have htext : (pare .any ms).render = Stmt.text s' := by
      rw [(render_pare ms).2, Stmt.text, Cond.text_tokensOfStmt hprintable, htexts]
    -- the text reads back as `s'`, and `s'` compiles to the canonical matcher
    have hback := settled_ofText r.denotes now (Stmt.read_text hne' hprintable)
    rw [hms', Option.map_some, ← (canonical_pare ms).2, ← htext] at hback
    exact ⟨hfits, hback⟩

/-- The text of a matcher reads back, before and after its fields have been entered, as a matcher of
the same text, which answers every item and filters for the daemon in the same way. -/
theorem ofText_render {r r' : Registry} (hr : r.Faithful) {now : α} {text : String} {m : Matcher α}
    (hm : (ofText now text).run.run r = (.ok m, r'))
    (hseparable : ∀ s, Stmt.read text = .ok s → ∀ t ∈ Cond.tokensOfStmt s, t.Separable) :
    ∃ m' : Matcher α, ((ofText now m.render).run.run r).1 = .ok m' ∧
      ((ofText now m.render).run.run r').1 = .ok m' ∧ m'.render = m.render ∧
      (∀ {μ : Type → Type} [Monad μ] [MonadExceptOf QueryError μ] (read : String → μ (Value α)),
        m'.eval read = m.eval read) ∧
      ∀ level, m'.preFilter level = m.preFilter level := by
  obtain ⟨hfits, hsettled⟩ := settled_render hr hm hseparable
  exact ⟨m.canonical, eq_ok_of_toOption (hsettled r ⟨hr, fun _ => rfl⟩).1,
    eq_ok_of_toOption (hsettled r' hfits).1, canonical_render m, fun read => canonical_eval read m,
    fun level => canonical_preFilter level m⟩

/-- `[is_active=t x]` is written as `[ is_active=yes name=x ]`. -/
theorem ofText_render_group :
    ∃ (m m' : Matcher Float) (r' : Registry),
      (ofText 0 "[is_active=t x]").run.run Catalogue.registry = (.ok m, r') ∧
      m.render = "[ is_active=yes name=x ]" ∧
      ((ofText 0 "[ is_active=yes name=x ]").run.run r').1 = .ok m' ∧
      m'.render = m.render ∧ m'.preFilter .safe = m.preFilter .safe := by
  have hclosing : Token.scanFrom 1 14 [']'] = .ok [⟨.closing, 14⟩] := by
    have hnext : Token.next 1 ']' [] = .ok (.closing, []) := rfl
    rw [Token.scanFrom_next rfl hnext, Token.scanFrom.eq_1]
    rfl
  have hname : Token.scanFrom 1 12 [' ', 'x', ']'] =
      .ok [⟨.bare ⟨"x", false⟩, 13⟩, ⟨.closing, 14⟩] := by
    have hnext : Token.next 1 'x' [']'] = .ok (.bare ⟨"x", false⟩, [']']) := rfl
    rw [Token.scanFrom_blank rfl, Token.scanFrom_next rfl hnext]
    exact congrArg (Except.map _) hclosing
  have hactive : Token.scanFrom 1 1 ('i' :: "s_active=t x]".toList) =
      .ok [⟨.named "is_active" .eq ⟨"t", false⟩, 1⟩, ⟨.bare ⟨"x", false⟩, 13⟩, ⟨.closing, 14⟩] := by
    have hnext : Token.next 1 'i' "s_active=t x]".toList =
        .ok (.named "is_active" .eq ⟨"t", false⟩, " x]".toList) := rfl
    rw [Token.scanFrom_next rfl hnext]
    exact congrArg (Except.map _) hname
  have hscan : Token.scan "[is_active=t x]" = .ok [⟨.opening, 0⟩,
      ⟨.named "is_active" .eq ⟨"t", false⟩, 1⟩, ⟨.bare ⟨"x", false⟩, 13⟩, ⟨.closing, 14⟩] := by
    have hnext : Token.next 0 '[' "is_active=t x]".toList =
        .ok (.opening, "is_active=t x]".toList) := rfl
    change Token.scanFrom 0 0 ('[' :: "is_active=t x]".toList) = _
    rw [Token.scanFrom_next rfl hnext]
    exact congrArg (Except.map _) hactive
  have hread : Stmt.read "[is_active=t x]" = .ok
      [[.group false [[.named "is_active" .eq ⟨"t", false⟩, .bare ⟨"x", false⟩]]]] := by
    unfold Stmt.read
    rw [hscan]
    rfl
  obtain ⟨m, r', hm, hrender⟩ : ∃ (m : Matcher Float) (r' : Registry),
      (ofText 0 "[is_active=t x]").run.run Catalogue.registry = (.ok m, r') ∧
        m.render = "[ is_active=yes name=x ]" := by
    unfold ofText
    rw [hread]
    exact ⟨_, _, rfl, rfl⟩
  have hseparable : ∀ s, Stmt.read "[is_active=t x]" = .ok s →
      ∀ t ∈ Cond.tokensOfStmt s, t.Separable := by
    intro s hs t ht
    rw [hread] at hs
    cases hs
    change t ∈ [.opening, .named "is_active" .eq ⟨"t", false⟩, .bare ⟨"x", false⟩, .closing] at ht
    simp only [List.mem_cons, List.not_mem_nil, or_false] at ht
    rcases ht with rfl | rfl | rfl | rfl
    · trivial
    · exact fun _ => rfl
    · exact fun _ => rfl
    · trivial
  obtain ⟨m', -, hm', hsame, -, hpre⟩ := ofText_render Catalogue.registry_faithful hm hseparable
  rw [hrender] at hm'
  exact ⟨m, m', r', hm, hrender, hm', hsame, hpre .safe⟩

end Matcher

end TorrentQuery
