import Mathlib.Data.List.Induction
import TorrentQuery.Proofs.Filter.Compilation

namespace TorrentQuery

open Number

/-- The texts `ys` are those of `xs`, each once, in the order in which `xs` comes to them. -/
structure FirstUses (xs ys : List String) : Prop where
  mem_iff : ∀ x, x ∈ ys ↔ x ∈ xs
  ordered : ys.Pairwise fun a b => xs.idxOf a < xs.idxOf b

theorem FirstUses.nodup {xs ys : List String} (h : FirstUses xs ys) : ys.Nodup := by
  refine h.ordered.imp fun hlt heq => ?_
  rw [heq] at hlt
  exact Nat.lt_irrefl _ hlt

theorem firstOccurrences_append_singleton (xs : List String) (x : String) :
    firstOccurrences (xs ++ [x]) =
      if x ∈ xs then firstOccurrences xs else firstOccurrences xs ++ [x] := by
  have hfold : firstOccurrences (xs ++ [x]) = if x ∈ firstOccurrences xs then firstOccurrences xs
      else firstOccurrences xs ++ [x] := List.foldl_append
  simpa only [mem_firstOccurrences] using hfold

theorem firstUses_firstOccurrences (xs : List String) : FirstUses xs (firstOccurrences xs) := by
  refine ⟨fun x => mem_firstOccurrences, ?_⟩
  induction xs using List.reverseRecOn with
  | nil => exact .nil
  | append_singleton xs x ih =>
    have hkept : (firstOccurrences xs).Pairwise
        fun a b => (xs ++ [x]).idxOf a < (xs ++ [x]).idxOf b := by
      refine ih.imp_of_mem fun ha hb hlt => ?_
      rwa [List.idxOf_append_of_mem (mem_firstOccurrences.1 ha),
        List.idxOf_append_of_mem (mem_firstOccurrences.1 hb)]
    rw [firstOccurrences_append_singleton]
    split
    · exact hkept
    · next hx =>
      refine List.pairwise_append.2 ⟨hkept, List.pairwise_singleton _ _, fun a ha b hb => ?_⟩
      -- the new text is found behind all others
      obtain rfl := List.mem_singleton.1 hb
      have ha := mem_firstOccurrences.1 ha
      rw [List.idxOf_append_of_mem ha, List.idxOf_append_of_notMem hx]
      exact Nat.lt_add_right _ (List.idxOf_lt_length_of_mem ha)

variable {α : Type} [Scalar α] {now : α}

/-- The filter was made of the condition. -/
def Leaf.Makes (now : α) (l : Leaf) (f : Filter α) : Prop :=
  f.field.name = l.name ∧ Filter.ofCondition now f.field l.operator l.value = .ok f

namespace Leaf

theorem makes_of_filter {r : Registry} (hr : r.Faithful) {l : Leaf} {f : Filter α}
    (h : l.filter now r = .ok f) : l.Makes now f := by
  unfold Leaf.filter at h
  cases hfield : ((Registry.resolve l.name).run.run r).1 with
  | error e =>
    rw [hfield] at h
    cases h
  | ok field =>
    rw [hfield] at h
    have hdenotes := Registry.denotes_of_resolve ⟨hr, fun _ => rfl⟩ hfield
    obtain ⟨rfl, -⟩ := Filter.of_ofCondition h
    exact ⟨Registry.name_of_denotes hr hdenotes, h⟩

theorem makes_of_filters {r : Registry} (hr : r.Faithful) {ls : List Leaf} {fs : List (Filter α)}
    (h : filters now r ls = fs.map .ok) : List.Forall₂ (Makes now) ls fs := by
  induction ls generalizing r fs with
  | nil =>
    obtain rfl := List.map_eq_nil_iff.1 h.symm
    exact .nil
  | cons l ls ih =>
    obtain ⟨f, fs, rfl, hf, hfs⟩ := List.map_eq_cons_iff.1 h.symm
    obtain ⟨-, hleft, -⟩ := settled_filter now ⟨hr, fun _ => rfl⟩ l
    exact .cons (makes_of_filter hr hf.symm) (ih hleft hfs.symm)

variable {ls : List Leaf} {fs : List (Filter α)}

theorem names_of_makes (h : List.Forall₂ (Makes now) ls fs) :
    fs.map (·.field.name) = ls.map (·.name) := by
  induction h with
  | nil => rfl
  | cons hf _ ih => rw [List.map_cons, List.map_cons, hf.1, ih]

/-- The names of the fields of those filters that were made of conditions with a written field. -/
def writtenNames (ls : List Leaf) (fs : List (Filter α)) : List String :=
  ((ls.zip fs).filter (·.1.written)).map (·.2.field.name)

theorem writtenNames_of_makes (h : List.Forall₂ (Makes now) ls fs) :
    writtenNames ls fs = (ls.filter (·.written)).map (·.name) := by
  induction h with
  | nil => rfl
  | cons hf _ ih =>
    unfold writtenNames at ih ⊢
    rw [List.zip_cons_cons, List.filter_cons, List.filter_cons]
    split
    · rw [List.map_cons, List.map_cons, hf.1, ih]
    · exact ih

end Leaf

namespace Stmt

theorem fields_eq (s : Stmt) : s.fields =
    if (∃ l ∈ s.leaves, l.written = false) ∧ "name" ∉ s.keys then "name" :: s.keys else s.keys := by
  simp only [fields, Bool.and_eq_true, Bool.not_eq_true', List.contains_eq_mem,
    decide_eq_false_iff_not, hasBare_iff]

theorem mem_fields_iff {s : Stmt} {name : String} :
    name ∈ s.fields ↔ ∃ l ∈ s.leaves, l.name = name := by
  have hlists := Cond.lists_leavesOfStmt s
  rw [mem_fields, ← hlists.written, hasBare_iff]
  constructor
  · rintro (h | ⟨⟨l, hl, hbare⟩, rfl⟩)
    · obtain ⟨l, hl, hname⟩ := List.mem_map.1 h
      exact ⟨l, (List.mem_filter.1 hl).1, hname⟩
    · exact ⟨l, hl, hlists.name_of_bare l hl hbare⟩
  · rintro ⟨l, hl, rfl⟩
    cases hwritten : l.written with
    | true => exact .inl (List.mem_map_of_mem (List.mem_filter.2 ⟨hl, hwritten⟩))
    | false => exact .inr ⟨⟨l, hl, hwritten⟩, hlists.name_of_bare l hl hwritten⟩

theorem nodup_fields (s : Stmt) : s.fields.Nodup := by
  have hkeys : s.keys.Nodup := (firstUses_firstOccurrences _).nodup
  rw [fields_eq]
  split
  · next hfront => exact List.nodup_cons.2 ⟨hfront.2, hkeys⟩
  · exact hkeys

/-- The fields that a filter reads are those of the matcher's filters, each once. They come in the
order in which the matcher asks about them, apart from what it makes of bare values; these put the
name in front, unless it is written in some condition. -/
theorem fields_follow_filters {r r' : Registry} (hr : r.Faithful) {text : String} {s : Stmt}
    {n : Matcher α} (hread : Stmt.read text = .ok s)
    (hcompile : (Matcher.ofText now text).run.run r = (.ok n, r')) :
    s.fields.Nodup ∧
    (∀ name, name ∈ s.fields ↔ name ∈ n.filters.map (·.field.name)) ∧
    ((∀ l ∈ s.leaves, l.written = true) → FirstUses (n.filters.map (·.field.name)) s.fields) ∧
    List.Forall₂ (Leaf.Makes now) s.leaves n.filters ∧
    ((∃ l ∈ s.leaves, l.written = false) →
      ∃ keys, FirstUses (Leaf.writtenNames s.leaves n.filters) keys ∧
        s.fields = if "name" ∈ keys then keys else "name" :: keys) := by
  have hcompiled : (Matcher.ofStmt now s).run.run r = (.ok n, r') := by
    unfold Matcher.ofText at hcompile
    rwa [hread] at hcompile
  have hmakes : List.Forall₂ (Leaf.Makes now) s.leaves n.filters := by
    apply Leaf.makes_of_filters hr
    exact ((Matcher.compiles_ofStmt now r s).of_ok (by rw [hcompiled])).filters
  have hkeys : FirstUses (Leaf.writtenNames s.leaves n.filters) s.keys := by
    rw [Leaf.writtenNames_of_makes hmakes, leaves, (Cond.lists_leavesOfStmt s).written]
    exact firstUses_firstOccurrences _
  refine ⟨s.nodup_fields, fun name => ?_, fun hwritten => ?_, hmakes, fun hbare => ?_⟩
  · rw [Leaf.names_of_makes hmakes, List.mem_map]
    exact mem_fields_iff
  · have hnone : ¬ ∃ l ∈ s.leaves, l.written = false := by
      rintro ⟨l, hl, hbare⟩
      rw [hwritten l hl] at hbare
      cases hbare
    rw [fields_eq, if_neg fun h => hnone h.1, Leaf.names_of_makes hmakes]
    rwa [Leaf.writtenNames_of_makes hmakes, List.filter_eq_self.2 hwritten] at hkeys
  · refine ⟨s.keys, hkeys, ?_⟩
    rw [fields_eq]
    by_cases hname : "name" ∈ s.keys
    · rw [if_neg fun h => h.2 hname, if_pos hname]
    · rw [if_pos ⟨hbare, hname⟩, if_neg hname]

theorem fields_follow_filters_bare_value :
    ∃ (s : Stmt) (n : Matcher Float) (r' : Registry),
      Stmt.read "hash=a x [ is_open=yes OR hash=b ]" = .ok s ∧
      (Matcher.ofText 0 "hash=a x [ is_open=yes OR hash=b ]").run.run Catalogue.registry =
        (.ok n, r') ∧
      n.filters.map (·.field.name) = ["hash", "name", "is_open", "hash"] ∧
      s.fields = ["name", "hash", "is_open"] ∧ s.fields.Nodup ∧
      ∃ keys, FirstUses (Leaf.writtenNames s.leaves n.filters) keys ∧
        s.fields = if "name" ∈ keys then keys else "name" :: keys := by
  obtain ⟨s, hread, hs⟩ : ∃ s, Stmt.read "hash=a x [ is_open=yes OR hash=b ]" = .ok s ∧
      s = [[.named "hash" .eq ⟨"a", false⟩, .bare ⟨"x", false⟩,
        .group false [[.named "is_open" .eq ⟨"yes", false⟩],
          [.named "hash" .eq ⟨"b", false⟩]]]] := ⟨_, by with_unfolding_all rfl, rfl⟩
  subst hs
  obtain ⟨n, r', hcompile, hnames⟩ : ∃ (n : Matcher Float) (r' : Registry),
      (Matcher.ofText 0 "hash=a x [ is_open=yes OR hash=b ]").run.run Catalogue.registry =
        (.ok n, r') ∧ n.filters.map (·.field.name) = ["hash", "name", "is_open", "hash"] := by
    unfold Matcher.ofText
    rw [hread]
    exact ⟨_, _, rfl, rfl⟩
  obtain ⟨hnodup, -, -, -, hbare⟩ :=
    fields_follow_filters Catalogue.registry_faithful hread hcompile
  exact ⟨_, n, r', hread, hcompile, hnames, rfl, hnodup,
    hbare ⟨.bare ⟨"x", false⟩, List.mem_cons_of_mem _ List.mem_cons_self, rfl⟩⟩

end Stmt

end TorrentQuery
