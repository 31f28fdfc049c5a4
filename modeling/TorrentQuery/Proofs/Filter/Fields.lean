import TorrentQuery.Cli.Program
import TorrentQuery.Proofs.Filter.Display

namespace TorrentQuery

open Number Text

theorem mem_firstOccurrences {xs : List String} {x : String} :
    x ∈ firstOccurrences xs ↔ x ∈ xs := by
  have fold (seen : List String) :
      x ∈ xs.foldl (fun seen y => if y ∈ seen then seen else seen ++ [y]) seen ↔
        x ∈ seen ∨ x ∈ xs := by
    induction xs generalizing seen with
    | nil => simp
    | cons y ys ih =>
      rw [List.foldl_cons, ih]
      split
      · next hy => grind
      · grind
  exact (fold []).trans (by simp)

theorem Stmt.mem_fields {s : Stmt} {name : String} :
    name ∈ s.fields ↔ name ∈ Cond.namesOfStmt s ∨ (s.hasBare = true ∧ name = "name") := by
  unfold fields
  split
  · next h =>
    obtain ⟨hbare, -⟩ := Bool.and_eq_true_iff.1 h
    rw [List.mem_cons, keys, mem_firstOccurrences, hbare]
    grind
  · next h =>
    have hname : s.hasBare = true → "name" ∈ s.keys := by
      intro hbare
      simpa [hbare] using h
    rw [keys, mem_firstOccurrences] at *
    grind

namespace Template

theorem isWordChar_of_name? {s rest : List Char} {name : String} (h : name? s = some (name, rest)) :
    ∀ c ∈ name.toList, isWordChar c = true := by
  unfold name? at h
  dsimp only at h
  split at h
  · cases h
    rw [String.toList_ofList]
    exact List.all_eq_true.1 List.all_takeWhile
  · cases h

theorem isWordChar_of_placeholder? {s rest : List Char} {name : String}
    (h : placeholder? s = some (name, rest)) : ∀ c ∈ name.toList, isWordChar c = true := by
  unfold placeholder? at h
  split at h
  · rcases Option.or_eq_some_iff.1 h with h | ⟨-, h⟩
    · exact isWordChar_of_name? h
    · exact isWordChar_of_name? h
  · exact isWordChar_of_name? h

/-- Placeholders are for names of word characters. -/
theorem isWordChar_of_mem_pieces {s name : String} (h : .field name ∈ pieces s) :
    ∀ c ∈ name.toList, isWordChar c = true := by
  unfold pieces at h
  generalize s.toList = cs at h
  generalize ([] : List Char) = run at h
  generalize s.length = fuel at h
  fun_induction piecesFrom fuel run cs with
  | case1 | case2 => simp at h
  | case3 run fuel t placed rest hplaced ih =>
    simp only [List.mem_cons, reduceCtorEq, false_or, Piece.field.injEq] at h
    rcases h with rfl | h
    · exact isWordChar_of_placeholder? hplaced
    · exact ih h
  | case4 | case5 => simp_all

end Template

namespace Matcher

variable {α : Type}

theorem filters_pare (ms : List (Matcher α)) :
    (pare .all ms).filters = filters.filtersOfAll ms ∧
      (pare .any ms).filters = filters.filtersOfAll ms := by
  match ms with
  | [] => exact ⟨rfl, rfl⟩
  | [m] => exact ⟨(List.append_nil _).symm, (List.append_nil _).symm⟩
  | _ :: _ :: _ => exact ⟨rfl, rfl⟩

/-- The filters are about the fields of some names, and about the name if there are bare values. -/
structure Covers (stands : String → Except QueryError (Option Field)) (fs : List (Filter α))
    (names : List String) (bare : Bool) : Prop where
  stands : ∀ f ∈ fs, stands f.field.name = .ok (some f.field)
  named : ∀ name, (∃ f ∈ fs, f.field.name = name) ↔ name ∈ names ∨ (bare = true ∧ name = "name")

variable {stands : String → Except QueryError (Option Field)}

theorem Covers.nil : Covers stands ([] : List (Filter α)) [] false :=
  ⟨List.forall_mem_nil _, fun name => by simp⟩

theorem Covers.append {fs fs' : List (Filter α)} {names names' : List String} {bare bare' : Bool}
    (h : Covers stands fs names bare) (h' : Covers stands fs' names' bare') :
    Covers stands (fs ++ fs') (names ++ names') (bare || bare') := by
  refine ⟨List.forall_mem_append.2 ⟨h.stands, h'.stands⟩, fun name => ?_⟩
  have hname := h.named name
  have hname' := h'.named name
  simp only [List.mem_append, Bool.or_eq_true]
  grind

variable [Scalar α] {now : α}

theorem covers_condition (hstands : KeepsNames stands) {name : String} {op : Operator} {v : Literal}
    {m : Matcher α} (hm : condition? stands now name op v = some m) :
    ∃ f, m = .leaf f ∧ f.field.name = name ∧ stands name = .ok (some f.field) ∧
      Filter.ofCondition now f.field op v = .ok f := by
  obtain ⟨field, hfield, hm⟩ := Option.bind_eq_some_iff.1 hm
  obtain ⟨f, hf, rfl⟩ := Option.map_eq_some_iff.1 hm
  obtain ⟨found, hfound, rfl⟩ := Option.bind_eq_some_iff.1 hfield
  have hdenoted := eq_ok_of_toOption hfound
  obtain ⟨rfl, -⟩ := Filter.of_ofCondition (eq_ok_of_toOption hf)
  exact ⟨f, rfl, hstands name _ hdenoted, hdenoted, eq_ok_of_toOption hf⟩

mutual

theorem covers_ofCond (hstands : KeepsNames stands) {c : Cond} {m : Matcher α}
    (hm : ofCond? stands now c = some m) : Covers stands m.filters c.names c.hasBare := by
  cases c with
  | named field op v =>
    obtain ⟨f, rfl, rfl, hf, -⟩ := covers_condition hstands hm
    refine ⟨List.forall_mem_singleton.2 hf, fun name => ?_⟩
    simp [filters, Cond.names, Cond.hasBare, eq_comm]
  | bare v =>
    obtain ⟨f, rfl, hname, hf, -⟩ := covers_condition hstands hm
    rw [← hname] at hf
    refine ⟨List.forall_mem_singleton.2 hf, fun name => ?_⟩
    simp [filters, Cond.names, Cond.hasBare, hname, eq_comm]
  | group negated body =>
    obtain ⟨ms, hms, rfl⟩ := Option.map_eq_some_iff.1 hm
    rw [filters, (filters_pare ms).2]
    exact covers_ofAlternatives hstands hms

theorem covers_ofConds (hstands : KeepsNames stands) {cs : List Cond} {ms : List (Matcher α)}
    (hms : ofConds? stands now cs = some ms) :
    Covers stands (filters.filtersOfAll ms) (Cond.namesOfAll cs) (Cond.anyHasBare cs) := by
  cases cs with
  | nil =>
    cases hms
    exact .nil
  | cons c r =>
    obtain ⟨m, hm, hms⟩ := Option.bind_eq_some_iff.1 hms
    obtain ⟨rest, hrest, rfl⟩ := Option.map_eq_some_iff.1 hms
    exact (covers_ofCond hstands hm).append (covers_ofConds hstands hrest)

theorem covers_ofAlternatives (hstands : KeepsNames stands) {s : List (List Cond)}
    {ms : List (Matcher α)} (hms : ofAlternatives? stands now s = some ms) :
    Covers stands (filters.filtersOfAll ms) (Cond.namesOfStmt s) (Cond.stmtHasBare s) := by
  cases s with
  | nil =>
    cases hms
    exact .nil
  | cons cs r =>
    obtain ⟨first, hfirst, hms⟩ := Option.bind_eq_some_iff.1 hms
    obtain ⟨rest, hrest, rfl⟩ := Option.map_eq_some_iff.1 hms
    rw [filters.filtersOfAll, (filters_pare first).1]
    exact (covers_ofConds hstands hfirst).append (covers_ofAlternatives hstands hrest)

end

/-- Conditions that are as `leaf` says make filters of which something holds. -/
structure Leaves (now : α) (leaf : Nat → Token → Prop) (holds : Filter α → Prop) : Prop where
  named : ∀ depth name op v f, leaf depth (.named name op v) → f.field.name = name →
    Filter.ofCondition now f.field op v = .ok f → holds f
  bare : ∀ depth v f, leaf depth (.bare v) → f.field.name = "name" →
    Filter.ofCondition now f.field .eq v = .ok f → holds f

section Leaves

variable {leaf : Nat → Token → Prop} {holds : Filter α → Prop}

mutual

/-- What every condition makes sure of for its own filter holds of all filters. -/
theorem filters_ofCond? (hstands : KeepsNames stands) (hleaf : Leaves now leaf holds) {depth : Nat}
    {c : Cond} {m : Matcher α} (hc : c.Each leaf depth) (hm : ofCond? stands now c = some m) :
    ∀ f ∈ m.filters, holds f := by
  cases c with
  | named field op v =>
    obtain ⟨f, rfl, hname, -, hf⟩ := covers_condition hstands hm
    exact List.forall_mem_singleton.2 (hleaf.named depth field op v f hc hname hf)
  | bare v =>
    obtain ⟨f, rfl, hname, -, hf⟩ := covers_condition hstands hm
    exact List.forall_mem_singleton.2 (hleaf.bare depth v f hc hname hf)
  | group negated body =>
    obtain ⟨ms, hms, rfl⟩ := Option.map_eq_some_iff.1 hm
    rw [filters, (filters_pare ms).2]
    exact filters_ofAlternatives? hstands hleaf hc.2 hms

theorem filters_ofConds? (hstands : KeepsNames stands) (hleaf : Leaves now leaf holds) {depth : Nat}
    {cs : List Cond} {ms : List (Matcher α)} (hcs : Cond.EachOfAll leaf depth cs)
    (hms : ofConds? stands now cs = some ms) :
    ∀ f ∈ filters.filtersOfAll ms, holds f := by
  cases cs with
  | nil =>
    cases hms
    exact List.forall_mem_nil _
  | cons c r =>
    obtain ⟨m, hm, hms⟩ := Option.bind_eq_some_iff.1 hms
    obtain ⟨rest, hrest, rfl⟩ := Option.map_eq_some_iff.1 hms
    exact List.forall_mem_append.2
      ⟨filters_ofCond? hstands hleaf hcs.1 hm, filters_ofConds? hstands hleaf hcs.2 hrest⟩

theorem filters_ofAlternatives? (hstands : KeepsNames stands) (hleaf : Leaves now leaf holds)
    {depth : Nat} {s : List (List Cond)} {ms : List (Matcher α)}
    (hs : Cond.EachOfStmt leaf depth s) (hms : ofAlternatives? stands now s = some ms) :
    ∀ f ∈ filters.filtersOfAll ms, holds f := by
  cases s with
  | nil =>
    cases hms
    exact List.forall_mem_nil _
  | cons cs r =>
    obtain ⟨first, hfirst, hms⟩ := Option.bind_eq_some_iff.1 hms
    obtain ⟨rest, hrest, rfl⟩ := Option.map_eq_some_iff.1 hms
    rw [filters.filtersOfAll, (filters_pare first).1]
    have hcs := filters_ofConds? hstands hleaf hs.2.1 hfirst
    exact List.forall_mem_append.2 ⟨hcs, filters_ofAlternatives? hstands hleaf hs.2.2 hrest⟩

end

end Leaves

/-- The names that come with a matcher are those of the fields that its filters are about. -/
theorem fields_of_compile (hstands : KeepsNames stands) {r : Registry}
    (hr : (Registry.runner stands).fits r) {filter : String} {m : Matcher α} {names : List String}
    (hcompile : (Cli.lookedUp (Cli.compile now filter) r).1 = .ok (m, names)) :
    (∀ f ∈ m.filters, stands f.field.name = .ok (some f.field)) ∧
      ∀ name, name ∈ names ↔ ∃ f ∈ m.filters, f.field.name = name := by
  unfold Cli.compile at hcompile
  split at hcompile
  · cases hcompile
  · next s _ =>
    have hsettled : Settled (Registry.runner stands) (Matcher.ofStmt now s) _ :=
      (settled_ofAlternatives stands now s).map (pare .any)
    obtain ⟨hx, -⟩ := (hsettled.map fun m => (m, s.fields)) r hr
    rw [map_eq_pure_bind] at hx
    change (Cli.lookedUp (Matcher.ofStmt now s >>= fun m => pure (m, s.fields)) r).1.toOption = _
      at hx
    rw [hcompile] at hx
    obtain ⟨m', hm', heq⟩ := Option.map_eq_some_iff.1 hx.symm
    cases heq
    obtain ⟨ms, hms, rfl⟩ := Option.map_eq_some_iff.1 hm'
    have hcovers := covers_ofAlternatives hstands hms
    rw [(filters_pare ms).2]
    exact ⟨hcovers.stands, fun name => Stmt.mem_fields.trans (hcovers.named name).symm⟩

end Matcher

end TorrentQuery
