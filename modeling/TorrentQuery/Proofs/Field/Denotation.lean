import Mathlib.Data.List.Nodup
import TorrentQuery.Field.Catalogue
import TorrentQuery.Proofs.Settled

namespace TorrentQuery

open Text

theorem Text.eq_append_of_after? {start s rest : List Char} (h : after? start s = some rest) :
    s = start ++ rest := by
  unfold after? at h
  split at h
  · next hstart =>
    cases h
    exact (List.prefix_iff_eq_append.1 (List.isPrefixOf_iff_prefix.1 hstart)).symm
  · cases h

theorem Text.prefix_of_after? {start s : List Char} (h : (after? start s).isSome = true) :
    start <+: s := by
  obtain ⟨rest, hrest⟩ := Option.isSome_iff_exists.1 h
  exact ⟨rest, (eq_append_of_after? hrest).symm⟩

/-- A family makes fields of the names that it is asked for. -/
def Generator.Faithful (g : Generator) : Prop :=
  ∀ name suffix f, g.make name suffix = .ok (some f) → f.name = name

namespace Registry

variable {r : Registry} {name : String}

def Faithful (r : Registry) : Prop := ∀ g ∈ r.generators, g.Faithful

def denotes (r : Registry) (name : String) : Except QueryError (Option Field) :=
  match r.get? name with
  | some f => .ok (some f)
  | none => r.generate name

def afterLookup (r : Registry) (name : String) : Registry :=
  match r.get? name, r.generate name with
  | none, .ok (some f) => r.insert f
  | _, _ => r

theorem name_of_get? {f : Field} (h : r.get? name = some f) : f.name = name := by
  simpa using List.find?_some h

/-- A field is made by a family whose start the name has. -/
theorem of_generateFrom {gs : List Generator} {f : Field}
    (h : generateFrom name gs = .ok (some f)) :
    ∃ g ∈ gs, ∃ suffix, name.toList = g.start.toList ++ suffix.toList ∧
      g.make name suffix = .ok (some f) := by
  induction gs with
  | nil => cases h
  | cons g gs ih =>
    have hlater (h : generateFrom name gs = .ok (some f)) : ∃ g' ∈ g :: gs, ∃ suffix,
        name.toList = g'.start.toList ++ suffix.toList ∧
          g'.make name suffix = .ok (some f) := by
      obtain ⟨g', hg', hmade⟩ := ih h
      exact ⟨g', List.mem_cons_of_mem _ hg', hmade⟩
    unfold generateFrom at h
    split at h
    · exact hlater h
    · next hafter =>
      split at h
      · exact hlater h
      · refine ⟨g, List.mem_cons_self, _, ?_, h⟩
        rw [String.toList_ofList]
        exact eq_append_of_after? hafter

theorem name_of_generate (hr : r.Faithful) {f : Field} (h : r.generate name = .ok (some f)) :
    f.name = name := by
  obtain ⟨g, hg, suffix, -, hmade⟩ := of_generateFrom h
  exact hr g hg name suffix f hmade

theorem name_of_denotes (hr : r.Faithful) {f : Field} (h : r.denotes name = .ok (some f)) :
    f.name = name := by
  unfold denotes at h
  split at h
  · next hget =>
    cases h
    exact name_of_get? hget
  · exact name_of_generate hr h

theorem insert_generators (f : Field) : (r.insert f).generators = r.generators := by
  unfold insert
  split <;> rfl

theorem get?_insert (f : Field) :
    (r.insert f).get? name = (r.get? name).or (if f.name = name then some f else none) := by
  unfold insert
  split
  · next hget =>
    by_cases hname : f.name = name
    · rw [← hname, hget]
      rfl
    · rw [if_neg hname, Option.or_none]
  · simp [get?, List.find?_append, List.find?_singleton]

theorem afterLookup_generators : (r.afterLookup name).generators = r.generators := by
  unfold afterLookup
  split
  · exact insert_generators _
  · rfl

theorem Faithful.afterLookup (hr : r.Faithful) : (r.afterLookup name).Faithful := by
  intro g hg
  rw [afterLookup_generators] at hg
  exact hr g hg

theorem denotes_insert {f : Field} (hgen : r.generate f.name = .ok (some f)) (other : String) :
    (r.insert f).denotes other = r.denotes other := by
  unfold denotes generate
  rw [get?_insert, insert_generators]
  cases hother : r.get? other with
  | some g => rfl
  | none =>
    -- only the name of the entered field is found differently, where its family made it before
    by_cases hname : f.name = other
    · subst hname
      rw [if_pos rfl]
      exact hgen.symm
    · rw [if_neg hname]
      rfl

/-- Looking a name up changes nothing about what names stand for. -/
theorem denotes_afterLookup (hr : r.Faithful) (other : String) :
    (r.afterLookup name).denotes other = r.denotes other := by
  unfold afterLookup
  split
  · next f _ hgen =>
    obtain rfl := name_of_generate hr hgen
    exact denotes_insert hgen other
  · rfl

/-- A lookup tells what the name stands for. -/
theorem run_lookup (hr : r.Faithful) :
    (lookup name).run.run r = (r.denotes name, r.afterLookup name) := by
  have hread {β : Type} (f : Registry → Lookup β) : (get >>= f).run.run r = (f r).run.run r := rfl
  unfold lookup denotes afterLookup
  rw [hread]
  cases hget : r.get? name with
  | some f => rfl
  | none =>
    cases hgen : r.generate name with
    | error e => rfl
    | ok made =>
      cases made with
      | none => rfl
      | some f =>
        have hentered : r.entered f = f := by
          rw [entered, name_of_generate hr hgen, hget]
          rfl
        change (Except.ok (some (r.entered f)), r.insert f) = _
        rw [hentered]

def runner (stands : String → Except QueryError (Option Field)) :
    Runner (StateM Registry) Registry where
  run w r := w.run r
  fits r := r.Faithful ∧ ∀ name, r.denotes name = stands name
  run_pure _ _ := rfl
  run_bind _ _ _ := rfl

theorem settled_lookup {stands : String → Except QueryError (Option Field)} :
    Settled (runner stands) (lookup name) (stands name).toOption := by
  intro r hr
  obtain ⟨hfaithful, hstands⟩ := hr
  change ((lookup name).run.run r).1.toOption = _ ∧ (runner stands).fits ((lookup name).run.run r).2
  rw [run_lookup hfaithful, hstands]
  refine ⟨rfl, hfaithful.afterLookup, fun other => ?_⟩
  rw [denotes_afterLookup hfaithful, hstands]

theorem settled_resolve {stands : String → Except QueryError (Option Field)} :
    Settled (runner stands) (resolve name) ((stands name).toOption.bind id) := by
  apply settled_lookup.bind
  intro found _
  cases found with
  | none =>
    intro r hr
    exact ⟨rfl, hr⟩
  | some f => exact Settled.pure f

theorem denotes_of_resolve {stands : String → Except QueryError (Option Field)}
    (hr : (runner stands).fits r) {f : Field}
    (hf : ((resolve name).run.run r).1 = .ok f) : stands name = .ok (some f) := by
  have hresolve : Settled (runner stands) (resolve name) _ := settled_resolve
  obtain ⟨hfound, -⟩ := hresolve r hr
  have hsome : (stands name).toOption.bind id = some f := by
    rw [← hfound]
    exact congrArg Except.toOption hf
  obtain ⟨found, hstands, rfl⟩ := Option.bind_eq_some_iff.1 hsome
  exact eq_ok_of_toOption hstands

end Registry

namespace Catalogue

theorem registry_faithful : registry.Faithful := by
  have hcustom : (Generator.mk "custom" custom).Faithful := by
    intro name suffix f h
    obtain ⟨key, -, rfl⟩ := Option.map_eq_some_iff.1 (Except.ok.inj h)
    rfl
  have hkind : (Generator.mk "kind_" kind).Faithful := by
    intro name suffix f h
    simp only [kind] at h
    split at h
    · cases h
    · split at h
      · cases h
      · cases h
        rfl
  have hrelease : (Generator.mk "guessit_" release).Faithful := by
    intro name suffix f h
    simp only [release] at h
    split at h
    · cases h
    · cases h
      rfl
  have hcommand : (Generator.mk "d_" command).Faithful := by
    intro name suffix f h
    simp only [command] at h
    split at h
    · cases h
    · cases h
      rfl
  have hpart (start part : String) :
      (Generator.mk start (partCommand part)).Faithful := by
    intro name suffix f h
    simp only [partCommand] at h
    split at h
    · cases h
    · cases h
      rfl
  intro g hg
  simp only [registry, generators, List.mem_cons, List.not_mem_nil,
    or_false] at hg
  rcases hg with rfl | rfl | rfl | rfl | rfl | rfl | rfl
  exacts [hcustom, hkind, hrelease, hcommand, hpart _ _, hpart _ _, hpart _ _]

theorem denotes_of_core {name : String} {f : Field} (h : core? name = some f) :
    registry.denotes name = .ok (some f) := by
  unfold Registry.denotes
  rw [show registry.get? name = some f from h]

theorem toList_commandName (suffix : String) :
    (commandName suffix).toList = "d.".toList ++ suffix.toList ∨
      "d." ++ suffix ∈ dottedCommands ∧ (commandName suffix).toList =
        "d.".toList ++ suffix.toList.map fun c => if c == '_' then '.' else c := by
  unfold commandName
  dsimp only
  split
  · next hdotted => exact .inr ⟨by simpa using hdotted, by simp⟩
  · exact .inl String.toList_append

/-- A name that starts as those of a family do stands for a field of that family. -/
theorem made_by_family {g : Generator} (hg : g ∈ generators) {name : String}
    (hname : g.start.toList <+: name.toList) {f : Field}
    (hf : registry.denotes name = .ok (some f)) : ∃ suffix, g.make name suffix = .ok (some f) := by
  -- families are told apart by the first letter, and no other field starts like one of them
  have hstarts : ∀ g ∈ generators, g.start.toList ≠ [] := by decide
  have hletters : (generators.map (·.start.toList.head?)).Nodup := by decide
  have hcore : ∀ g ∈ generators, ∀ f ∈ coreFields, ¬ g.start.toList <+: f.name.toList := by decide
  have hhead {g : Generator} (hg : g ∈ generators) (h : g.start.toList <+: name.toList) :
      g.start.toList.head? = name.toList.head? := by
    obtain ⟨rest, hrest⟩ := h
    rw [← hrest, List.head?_append, List.head?_eq_some_head (hstarts g hg), Option.some_or]
  unfold Registry.denotes at hf
  split at hf
  · next hget =>
    cases hf
    rw [← Registry.name_of_get? hget] at hname
    exact absurd hname (hcore g hg f (List.mem_of_find?_eq_some hget))
  · obtain ⟨g', hg', suffix, hstart, hmade⟩ := Registry.of_generateFrom hf
    obtain rfl : g = g' := List.inj_on_of_nodup_map hletters hg hg'
      ((hhead hg hname).trans (hhead hg' ⟨_, hstart.symm⟩).symm)
    exact ⟨suffix, hmade⟩

theorem requires_of_release {name : String} {f : Field}
    (hname : "guessit_".toList <+: name.toList) (hf : registry.denotes name = .ok (some f)) :
    f.requires = ["d.name="] := by
  have hfamily : (⟨"guessit_", release⟩ : Generator) ∈ generators := by simp [generators]
  obtain ⟨suffix, hmade⟩ := made_by_family hfamily hname hf
  simp only [release] at hmade
  split at hmade
  · cases hmade
  · cases hmade
    rfl

theorem requires_of_kind {name : String} {f : Field} (hname : "kind_".toList <+: name.toList)
    (hf : registry.denotes name = .ok (some f)) : f.requires = ["d.custom=kind"] := by
  have hfamily : (⟨"kind_", kind⟩ : Generator) ∈ generators := by simp [generators]
  obtain ⟨suffix, hmade⟩ := made_by_family hfamily hname hf
  simp only [kind] at hmade
  split at hmade
  · cases hmade
  · split at hmade
    · cases hmade
    · cases hmade
      rfl

end Catalogue

end TorrentQuery
