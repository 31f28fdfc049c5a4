import TorrentQuery.Proofs.Filter.Soundness

namespace TorrentQuery

open Number

namespace Command

mutual

def parts : Command → List Command
  | .call name args => [.call name args]
  | .not c => .not c :: c.parts
  | .and cs => .and cs :: partsOfAll cs
  | .or cs => .or cs :: partsOfAll cs

def partsOfAll : List Command → List Command
  | [] => []
  | c :: r => c.parts ++ partsOfAll r

end

theorem mem_partsOfAll {cs : List Command} {d : Command} :
    d ∈ partsOfAll cs ↔ ∃ c ∈ cs, d ∈ c.parts := by
  induction cs with
  | nil => simp [partsOfAll]
  | cons c cs ih => simp [partsOfAll, ih]

/-- A single call, or the negation of one. -/
inductive Elementary : Command → Prop where
  | call (name : String) (args : List Arg) : Elementary (.call name args)
  | not (name : String) (args : List Arg) : Elementary (.not (.call name args))

/-- No negation stands directly around another one. -/
def Reduced (c : Command) : Prop := ∀ d, .not (.not d) ∉ c.parts

theorem Elementary.negate {c : Command} (h : c.Elementary) : c.negate.Elementary := by
  cases h with
  | call name args => exact .not name args
  | not name args => exact .call name args

theorem Elementary.reduced {c : Command} (h : c.Elementary) : c.Reduced := by
  intro d hd
  cases h <;> simp [parts] at hd

theorem Reduced.negate {c : Command} (h : c.Reduced) : c.negate.Reduced := by
  intro d hd
  cases c with
  | not c => exact h d (List.mem_cons_of_mem _ hd)
  | call | and | or =>
    -- the new negation is around none, and below it nothing has changed
    rcases List.mem_cons.1 hd with he | hd
    · cases he
    · exact h d hd

theorem reduced_and {cs : List Command} (h : ∀ c ∈ cs, c.Reduced) : (Command.and cs).Reduced := by
  intro d hd
  rcases List.mem_cons.1 hd with he | hd
  · cases he
  · obtain ⟨c, hc, hmem⟩ := mem_partsOfAll.1 hd
    exact h c hc d hmem

theorem reduced_or {cs : List Command} (h : ∀ c ∈ cs, c.Reduced) : (Command.or cs).Reduced := by
  intro d hd
  rcases List.mem_cons.1 hd with he | hd
  · cases he
  · obtain ⟨c, hc, hmem⟩ := mem_partsOfAll.1 hd
    exact h c hc d hmem

end Command

namespace PreFilter

open Command

theorem negate_eq_some {p q : PreFilter} (h : p.negate = some q) :
    p.exact = true ∧ q = ⟨p.command.negate, true⟩ := by
  unfold negate at h
  split at h
  · next hx =>
    cases h
    exact ⟨hx, rfl⟩
  · cases h

theorem reduced_combine {join : List Command → Command} {ps : List PreFilter} {p : PreFilter}
    (hjoin : ∀ cs : List Command, (∀ c ∈ cs, c.Reduced) → (join cs).Reduced)
    (h : ∀ q ∈ ps, q.command.Reduced) (hp : combine join ps = some p) : p.command.Reduced := by
  match ps, hp with
  | [_], hp =>
    cases hp
    exact h _ List.mem_cons_self
  | _ :: _ :: _, hp =>
    cases hp
    apply hjoin
    intro c hc
    obtain ⟨s, hs, rfl⟩ := List.mem_map.1 hc
    exact h s hs

/-- `q` holds for no more items than `p`, and is `p` itself where that is exact. -/
def Narrows (p q : PreFilter) : Prop :=
  (∀ call, q.command.holds call = true → p.command.holds call = true) ∧ (p.exact = true → q = p)

theorem Narrows.refl (p : PreFilter) : Narrows p p := ⟨fun _ h => h, fun _ => rfl⟩

end PreFilter

namespace Filter

open Command

variable {α : Type} [Scalar α] {key : String} {p : PreFilter}

theorem elementary_bind_negate {x : Option PreFilter}
    (hx : ∀ q, x = some q → q.command.Elementary) (hp : x.bind (·.negate) = some p) :
    p.command.Elementary := by
  obtain ⟨q, hq, hn⟩ := Option.bind_eq_some_iff.1 hp
  obtain ⟨-, rfl⟩ := PreFilter.negate_eq_some hn
  exact (hx q hq).negate

theorem elementary_numberPreFilter {scaled : α} {op : Operator}
    (hp : numberPreFilter scaled op key = some p) : p.command.Elementary := by
  have hequal {q : PreFilter} (hq : numberPreFilter scaled .eq key = some q) :
      q.command.Elementary := by
    obtain ⟨n, -, rfl⟩ := Option.map_eq_some_iff.1 hq
    exact .call _ _
  cases op with
  | eq => exact hequal hp
  | ne => exact elementary_bind_negate (fun _ => hequal) hp
  | gt | ge | lt | le =>
    cases hp
    exact .call _ _

theorem elementary_sizePreFilter {bytes : Nat} {op : Operator}
    (hp : sizePreFilter bytes op key = some p) : p.command.Elementary := by
  unfold sizePreFilter at hp
  split at hp
  · cases hp
  · cases op with
    | ne =>
      cases hp
      exact .not _ _
    | le =>
      simp only [Option.ite_none_left_eq_some] at hp
      cases hp.2
      exact .call _ _
    | eq | gt | ge | lt =>
      cases hp
      exact .call _ _

theorem elementary_timePreFilter {threshold : α} {op : Operator}
    (hp : timePreFilter threshold op key = some p) : p.command.Elementary := by
  unfold timePreFilter at hp
  split at hp
  · cases hp
  · cases op with
    | eq | ne => cases hp
    | gt | ge | lt | le =>
      cases hp
      exact .call _ _

theorem elementary_containsNeedle {needle : String}
    (hp : PreFilter.containsNeedle key needle = some p) : p.command.Elementary := by
  unfold PreFilter.containsNeedle at hp
  split at hp
  · cases hp
    exact .call _ _
  · cases hp

omit [Scalar α] in
theorem elementary_equalPreFilter {test : Test α} (hp : equalPreFilter test key = some p) :
    p.command.Elementary := by
  cases test with
  | flag wanted =>
    cases hp
    exact .call _ _
  | tags tag exact =>
    cases exact with
    | none => exact elementary_containsNeedle hp
    | some wanted =>
      simp only [equalPreFilter, tagsPreFilter, Option.ite_none_left_eq_some] at hp
      exact elementary_containsNeedle hp.2
  | pattern q =>
    cases q with
    | empty =>
      cases hp
      exact .call _ _
    | nonEmpty =>
      cases hp
      exact .not _ _
    | regex source r =>
      obtain ⟨needle, -, hn⟩ := Option.bind_eq_some_iff.1 hp
      exact elementary_containsNeedle hn
    | glob source g => exact elementary_containsNeedle hp
    | always | template => cases hp
  | number | size | time | duration | files => cases hp

/-- A filter hands over one call or its negation, whatever its kind and operator. -/
theorem elementary_preFilter {f : Filter α} (hp : f.preFilter = some p) :
    p.command.Elementary := by
  obtain ⟨key, -, hp⟩ := Option.bind_eq_some_iff.1 hp
  cases htest : f.test with
  | number x =>
    rw [htest] at hp
    exact elementary_numberPreFilter hp
  | size n =>
    rw [htest] at hp
    exact elementary_sizePreFilter hp
  | time | duration =>
    rw [htest] at hp
    exact elementary_timePreFilter hp
  | flag | tags | pattern | files =>
    rw [htest] at hp
    cases hop : f.effective with
    | eq =>
      rw [hop] at hp
      exact elementary_equalPreFilter hp
    | ne =>
      rw [hop] at hp
      exact elementary_bind_negate (fun _ => elementary_equalPreFilter) hp
    | gt | ge | lt | le =>
      rw [hop] at hp
      cases hp

end Filter

namespace Matcher

open Command PreFilter

variable {α : Type} [Scalar α] {ms : List (Matcher α)} {p : PreFilter}

/-- A condition for alternatives comes from conditions for each of them. -/
theorem preFilter_any {level : Level} (hp : (any ms).preFilter level = some p) :
    ¬(level = .safe ∧ 1 < ms.length) ∧
      ∃ qs, ms.map (preFilter level) = qs.map some ∧ anyOf qs = some p := by
  rw [preFilter, preFilters_eq] at hp
  split at hp
  · cases hp
  · next hlevel =>
    obtain ⟨qs, hqs, hq⟩ := Option.bind_eq_some_iff.1 hp
    simp only [Bool.or_eq_true, Bool.and_eq_true, decide_eq_true_eq, not_or] at hlevel
    exact ⟨hlevel.2, qs, mapM_id_eq_some hqs, hq⟩

/-- At the safe level there are no alternatives, only one way to match. -/
theorem preFilter_any_safe (hp : (any ms).preFilter .safe = some p) :
    ∃ m, ms = [m] ∧ m.preFilter .safe = some p := by
  obtain ⟨hone, qs, hqs, hp⟩ := preFilter_any hp
  match ms with
  | [] =>
    obtain rfl : qs = [] := by simpa using hqs.symm
    cases hp
  | [m] =>
    obtain ⟨q, rfl, hq⟩ := List.map_eq_singleton_iff.1 hqs.symm
    cases hp
    exact ⟨m, rfl, hq.symm⟩
  | _ :: _ :: _ => exact absurd ⟨rfl, by simp⟩ hone

theorem preFilter_any_singleton {m : Matcher α} {q : PreFilter}
    (hq : m.preFilter .aggressive = some q) : (any [m]).preFilter .aggressive = some q := by
  simp [preFilter, preFilters, hq, anyOf, combine]

theorem elementary_safe : (m : Matcher α) → {p : PreFilter} → m.preFilter .safe = some p →
    p.command.Elementary
  | .leaf f, p, hp => by
    rw [preFilter, if_neg (by decide)] at hp
    exact Filter.elementary_preFilter hp
  | .all ms, p, hp => by
    rw [preFilter, preFilters_eq] at hp
    obtain ⟨q, hq, hc, -⟩ := safest_eq_some hp
    obtain ⟨m, hm, hmq⟩ := List.mem_map.1 hq
    rw [hc]
    exact elementary_safe m hmq
  | .any ms, p, hp => by
    obtain ⟨m, rfl, hm⟩ := preFilter_any_safe hp
    exact elementary_safe m hm
  | .group false m, p, hp => elementary_safe m hp
  | .group true m, p, hp =>
    Filter.elementary_bind_negate (fun _ hq => elementary_safe m hq) hp

theorem reduced_preFilter (level : Level) : (m : Matcher α) → {p : PreFilter} →
    m.preFilter level = some p → p.command.Reduced
  | .leaf f, p, hp => by
    rw [preFilter] at hp
    split at hp
    · cases hp
    · exact (Filter.elementary_preFilter hp).reduced
  | .all ms, p, hp => by
    cases level with
    | off =>
      rw [preFilter] at hp
      cases hp
    | safe => exact (elementary_safe _ hp).reduced
    | aggressive =>
      rw [preFilter, preFilters_eq] at hp
      obtain ⟨q, hq, rfl⟩ := Option.map_eq_some_iff.1 hp
      apply reduced_combine (fun _ => reduced_and) ?_ hq
      intro r hr
      obtain ⟨m, hm, hmr⟩ : ∃ m ∈ ms, m.preFilter .aggressive = some r := by simpa using hr
      exact reduced_preFilter .aggressive m hmr
  | .any ms, p, hp => by
    obtain ⟨-, qs, hqs, hq⟩ := preFilter_any hp
    apply reduced_combine (fun _ => reduced_or) ?_ hq
    intro r hr
    have hmem := List.mem_map_of_mem (f := some) hr
    rw [← hqs] at hmem
    obtain ⟨m, hm, hmr⟩ := List.mem_map.1 hmem
    exact reduced_preFilter level m hmr
  | .group false m, p, hp => reduced_preFilter level m hp
  | .group true m, p, hp => by
    obtain ⟨q, hq, hn⟩ := Option.bind_eq_some_iff.1 hp
    obtain ⟨-, rfl⟩ := negate_eq_some hn
    exact (reduced_preFilter level m hq).negate

/-- One condition of several is narrowed by all of them together. -/
theorem narrows_all
    (h : ∀ m ∈ ms, ∀ p, m.preFilter .safe = some p →
      ∃ q, m.preFilter .aggressive = some q ∧ Narrows p q)
    (hp : (all ms).preFilter .safe = some p) :
    ∃ q, (all ms).preFilter .aggressive = some q ∧ Narrows p q := by
  rw [preFilter, preFilters_eq] at hp
  rw [preFilter, preFilters_eq]
  obtain ⟨r, hr, hc, hx⟩ := safest_eq_some hp
  obtain ⟨m, hm, hmr⟩ := List.mem_map.1 hr
  obtain ⟨s, hs, hholds, hsame⟩ := h m hm r hmr
  have hmem : s ∈ (ms.map (preFilter .aggressive)).filterMap id := by
    simpa using ⟨m, hm, hs⟩
  obtain ⟨q, hq⟩ : ∃ q, allOf ((ms.map (preFilter .aggressive)).filterMap id) = some q := by
    match (ms.map (preFilter .aggressive)).filterMap id, hmem with
    | [q], _ => exact ⟨q, rfl⟩
    | _ :: _ :: _, _ => exact ⟨_, rfl⟩
  refine ⟨_, by rw [conjunction, hq]; rfl, ?_, ?_⟩
  · intro call hall
    rw [hc]
    exact hholds call ((allOf_holds hq).1 hall s hmem)
  · intro hpx
    -- exact, so this was the only condition there is
    obtain ⟨hrx, hone⟩ := hx hpx
    obtain ⟨n, rfl, -⟩ := List.map_eq_singleton_iff.1 hone
    obtain rfl := List.mem_singleton.1 hm
    obtain rfl := hsame hrx
    have hqs : q = s := by simpa [hs, allOf, combine] using hq.symm
    obtain ⟨command, exact⟩ := p
    simp_all

theorem aggressive_narrows : (m : Matcher α) → {p : PreFilter} → m.preFilter .safe = some p →
    ∃ q, m.preFilter .aggressive = some q ∧ Narrows p q
  | .leaf f, p, hp => by
    rw [preFilter, if_neg (by decide)] at hp ⊢
    exact ⟨p, hp, .refl p⟩
  | .all ms, p, hp => narrows_all (fun m _ _ hm => aggressive_narrows m hm) hp
  | .any ms, p, hp => by
    obtain ⟨m, rfl, hm⟩ := preFilter_any_safe hp
    obtain ⟨q, hq, hn⟩ := aggressive_narrows m hm
    exact ⟨q, preFilter_any_singleton hq, hn⟩
  | .group false m, p, hp => aggressive_narrows m hp
  | .group true m, p, hp => by
    obtain ⟨q, hq, hn⟩ := Option.bind_eq_some_iff.1 hp
    obtain ⟨r, hr, -, hsame⟩ := aggressive_narrows m hq
    -- only an exact condition is negated, and that one is the same at both levels
    obtain rfl := hsame (negate_eq_some hn).1
    exact ⟨p, Option.bind_eq_some_iff.2 ⟨r, hr, hn⟩, .refl p⟩

/-- Whatever the calls of the daemon mean: a safe condition is a single call or a negated one, the
aggressive level has one that holds for no more items, the same one where it is exact, and no
condition negates a negation. -/
theorem preFilter_levels (m : Matcher α) :
    (∀ p, m.preFilter .safe = some p → p.command.Elementary ∧
      ∃ q, m.preFilter .aggressive = some q ∧
        (∀ call, q.command.holds call = true → p.command.holds call = true) ∧
        (p.exact = true → q = p)) ∧
    ∀ level p, m.preFilter level = some p → p.command.Reduced :=
  ⟨fun _ hp => ⟨elementary_safe m hp, aggressive_narrows m hp⟩,
    fun level _ hp => reduced_preFilter level m hp⟩

/-- `[ is_private=yes OR is_open=yes ] NOT [ is_complete=no ]`: the safe level leaves the alternatives
out, the aggressive one does not. -/
theorem preFilter_levels_alternatives :
    let flag (name key : String) (wanted : Bool) : Matcher Float := .leaf (.ofFlag name key wanted)
    let m : Matcher Float := .all
      [.group false (.any [flag "is_private" "d.is_private=" true, flag "is_open" "d.is_open=" true]),
        .group true (flag "is_complete" "d.complete=" false)]
    let safe : Command := .not (.compare "equal" "d.complete=" 0)
    ∃ p q, m.preFilter .safe = some p ∧ p.command = safe ∧ safe.Elementary ∧
      m.preFilter .aggressive = some q ∧ q.command.Reduced ∧
      ∀ call, q.command.holds call = true → safe.holds call = true := by
  intro flag m safe
  have hlevels := preFilter_levels m
  obtain ⟨helementary, q, hq, hnarrow, -⟩ := hlevels.1 ⟨safe, false⟩ rfl
  exact ⟨⟨safe, false⟩, q, rfl, rfl, helementary, hq, hlevels.2 .aggressive q hq, hnarrow⟩

end Matcher

end TorrentQuery
