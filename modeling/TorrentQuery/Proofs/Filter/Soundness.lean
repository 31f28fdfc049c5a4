import Mathlib.Tactic.Common
import TorrentQuery.Filter.Matcher
import TorrentQuery.Proofs.Daemon.Meaning

namespace TorrentQuery

open Number

/-- A condition holds wherever the answer is yes. An exact one holds nowhere else. -/
structure PreFilter.Sound (call : String → List Arg → Bool) (p : PreFilter)
    (answer : Except QueryError Bool) : Prop where
  superset : answer = .ok true → p.command.holds call = true
  exact : p.exact = true → ∀ b, answer = .ok b → p.command.holds call = b

namespace PreFilter

variable {call : String → List Arg → Bool}

theorem ofExact_sound {c : Command} {answer : Except QueryError Bool}
    (h : ∀ b, answer = .ok b → c.holds call = b) : (ofExact c).Sound call answer :=
  ⟨h true, fun _ => h⟩

theorem ofSuperset_sound {c : Command} {answer : Except QueryError Bool}
    (h : answer = .ok true → c.holds call = true) : (ofSuperset c).Sound call answer :=
  ⟨h, fun hx => by cases hx⟩

/-- Only exact conditions have a negation, which is exact again. -/
theorem negate_sound {p q : PreFilter} {a b : Except QueryError Bool} (hp : p.Sound call a)
    (hq : p.negate = some q) (hab : ∀ x, b = .ok x → a = .ok !x) : q.Sound call b := by
  have hx : p.exact = true := by
    by_contra hx
    simp [negate, hx] at hq
  rw [negate, if_pos hx] at hq
  cases hq
  apply ofExact_sound
  intro x h
  rw [Command.holds_negate, hp.exact hx _ (hab x h), Bool.not_not]

/-- Joined conditions hold as the command that joins them does, one alone as it is. -/
theorem combine_holds {join : List Command → Command} {ps : List PreFilter} {p : PreFilter}
    (hp : combine join ps = some p)
    (hone : ∀ c : Command, (join [c]).holds call = c.holds call) :
    p.command.holds call = (join (ps.map (·.command))).holds call := by
  match ps, hp with
  | [q], hp =>
    cases hp
    exact (hone _).symm
  | _ :: _ :: _, hp =>
    cases hp
    rfl

theorem combine_exact {join : List Command → Command} {ps : List PreFilter} {p : PreFilter}
    (hp : combine join ps = some p) : p.exact = ps.all (·.exact) := by
  match ps, hp with
  | [q], hp =>
    cases hp
    simp
  | _ :: _ :: _, hp =>
    cases hp
    rfl

theorem allOf_holds {ps : List PreFilter} {p : PreFilter} (hp : allOf ps = some p) :
    p.command.holds call = true ↔ ∀ q ∈ ps, q.command.holds call = true := by
  rw [combine_holds hp fun c => by simp [Command.holds, Command.allHold]]
  simp [Command.holds, Command.allHold_iff]

theorem anyOf_holds {ps : List PreFilter} {p : PreFilter} (hp : anyOf ps = some p) :
    p.command.holds call = true ↔ ∃ q ∈ ps, q.command.holds call = true := by
  rw [combine_holds hp fun c => by simp [Command.holds, Command.anyHolds]]
  simp [Command.holds, Command.anyHolds_iff]

end PreFilter

namespace Matcher

variable {α : Type} [Scalar α] {read : String → Except QueryError (Value α)}

theorem evalAll_cons_ok {m : Matcher α} {ms : List (Matcher α)} {b : Bool}
    (h : evalAll read (m :: ms) = .ok b) :
    m.eval read = .ok true ∧ evalAll read ms = .ok b ∨ m.eval read = .ok false ∧ b = false := by
  rw [evalAll] at h
  cases hm : m.eval read with
  | error e =>
    rw [hm] at h
    cases h
  | ok a =>
    rw [hm] at h
    cases a with
    | true => exact .inl ⟨rfl, h⟩
    | false =>
      cases h
      exact .inr ⟨rfl, rfl⟩

theorem evalAny_cons_ok {m : Matcher α} {ms : List (Matcher α)} {b : Bool}
    (h : evalAny read (m :: ms) = .ok b) :
    m.eval read = .ok true ∧ b = true ∨ m.eval read = .ok false ∧ evalAny read ms = .ok b := by
  rw [evalAny] at h
  cases hm : m.eval read with
  | error e =>
    rw [hm] at h
    cases h
  | ok a =>
    rw [hm] at h
    cases a with
    | true =>
      cases h
      exact .inl ⟨rfl, rfl⟩
    | false => exact .inr ⟨rfl, h⟩

theorem evalAll_ok_true {ms : List (Matcher α)} (h : evalAll read ms = .ok true) :
    ∀ m ∈ ms, m.eval read = .ok true := by
  induction ms with
  | nil => simp
  | cons m ms ih =>
    rcases evalAll_cons_ok h with ⟨hm, hms⟩ | ⟨-, hb⟩
    · exact List.forall_mem_cons.2 ⟨hm, ih hms⟩
    · cases hb

theorem evalAll_ok_false {ms : List (Matcher α)} (h : evalAll read ms = .ok false) :
    ∃ m ∈ ms, m.eval read = .ok false := by
  induction ms with
  | nil => cases h
  | cons m ms ih =>
    rcases evalAll_cons_ok h with ⟨-, hms⟩ | ⟨hm, -⟩
    · obtain ⟨n, hn, hf⟩ := ih hms
      exact ⟨n, List.mem_cons_of_mem _ hn, hf⟩
    · exact ⟨m, List.mem_cons_self, hm⟩

theorem evalAny_ok_true {ms : List (Matcher α)} (h : evalAny read ms = .ok true) :
    ∃ m ∈ ms, m.eval read = .ok true := by
  induction ms with
  | nil => cases h
  | cons m ms ih =>
    rcases evalAny_cons_ok h with ⟨hm, -⟩ | ⟨-, hms⟩
    · exact ⟨m, List.mem_cons_self, hm⟩
    · obtain ⟨n, hn, ht⟩ := ih hms
      exact ⟨n, List.mem_cons_of_mem _ hn, ht⟩

theorem evalAny_ok_false {ms : List (Matcher α)} (h : evalAny read ms = .ok false) :
    ∀ m ∈ ms, m.eval read = .ok false := by
  induction ms with
  | nil => simp
  | cons m ms ih =>
    rcases evalAny_cons_ok h with ⟨-, hb⟩ | ⟨hm, hms⟩
    · cases hb
    · exact List.forall_mem_cons.2 ⟨hm, ih hms⟩

end Matcher

section

variable {α : Type} [Scalar α] {call : String → List Arg → Bool}
  {read : String → Except QueryError (Value α)}

/-- The condition of a filter is sound for the filter's own answer. -/
def Filter.Sound (call : String → List Arg → Bool) (read : String → Except QueryError (Value α))
    (f : Filter α) : Prop := ∀ p, f.preFilter = some p → p.Sound call (f.eval read)

namespace Matcher

def Sound (call : String → List Arg → Bool) (read : String → Except QueryError (Value α))
    (level : Level) (m : Matcher α) : Prop :=
  ∀ p, m.preFilter level = some p → p.Sound call (m.eval read)

theorem preFilters_eq (level : Level) (ms : List (Matcher α)) :
    preFilters level ms = ms.map (preFilter level) := by
  induction ms with
  | nil => rfl
  | cons m ms ih => rw [preFilters, ih, List.map_cons]

/-- The one condition that is sent at the safe level comes from one of the matchers, and is exact
only if there is no other. -/
theorem safest_eq_some {parts : List (Option PreFilter)} {p : PreFilter}
    (h : safest parts = some p) :
    ∃ q, some q ∈ parts ∧ p.command = q.command ∧
      (p.exact = true → q.exact = true ∧ parts = [some q]) := by
  simp only [safest, Option.map_eq_some_iff] at h
  obtain ⟨q, hq, rfl⟩ := h
  have hmem : some q ∈ parts := by
    have hknown : q ∈ parts.filterMap id := by
      rcases Option.or_eq_some_iff.1 hq with hf | ⟨-, hh⟩
      · exact List.mem_of_find?_eq_some hf
      · exact List.mem_of_head? hh
    simpa using hknown
  refine ⟨q, hmem, rfl, ?_⟩
  intro hx
  simp only [Bool.and_eq_true, beq_iff_eq] at hx
  obtain ⟨a, rfl⟩ := List.length_eq_one_iff.1 hx.2
  exact ⟨hx.1, by rw [List.mem_singleton.1 hmem]⟩

theorem all_sound_safe {ms : List (Matcher α)}
    (h : ∀ m ∈ ms, m.Sound call read .safe) : (all ms).Sound call read .safe := by
  intro p hp
  rw [preFilter, preFilters_eq] at hp
  obtain ⟨q, hq, hc, hx⟩ := safest_eq_some hp
  obtain ⟨m, hm, hmq⟩ := List.mem_map.1 hq
  have hs := h m hm q hmq
  constructor
  · intro ht
    rw [eval] at ht
    rw [hc]
    exact hs.superset (evalAll_ok_true ht m hm)
  · intro hpx b hb
    -- exact, so there is no other member and its answer is the whole answer
    obtain ⟨hqx, hone⟩ := hx hpx
    obtain ⟨n, rfl, -⟩ := List.map_eq_singleton_iff.1 hone
    obtain rfl := List.mem_singleton.1 hm
    rw [hc]
    apply hs.exact hqx
    rw [eval] at hb
    cases b with
    | true => exact evalAll_ok_true hb m hm
    | false =>
      obtain ⟨n, hn, hf⟩ := evalAll_ok_false hb
      rwa [List.mem_singleton.1 hn] at hf

theorem all_sound_aggressive {ms : List (Matcher α)}
    (h : ∀ m ∈ ms, m.Sound call read .aggressive) : (all ms).Sound call read .aggressive := by
  intro p hp
  rw [preFilter, preFilters_eq] at hp
  simp only [conjunction, Option.map_eq_some_iff] at hp
  obtain ⟨q, hq, rfl⟩ := hp
  have hknown {r : PreFilter} (hr : r ∈ (ms.map (preFilter .aggressive)).filterMap id) :
      ∃ m ∈ ms, m.preFilter .aggressive = some r := by simpa using hr
  constructor
  · intro ht
    rw [eval] at ht
    apply (PreFilter.allOf_holds hq).2
    intro r hr
    obtain ⟨m, hm, hmr⟩ := hknown hr
    exact (h m hm r hmr).superset (evalAll_ok_true ht m hm)
  · intro hx b hb
    rw [eval] at hb
    simp only [Bool.and_eq_true, PreFilter.combine_exact hq, List.all_eq_true] at hx
    obtain ⟨hexact, hsome⟩ := hx
    cases b with
    | true =>
      apply (PreFilter.allOf_holds hq).2
      intro r hr
      obtain ⟨m, hm, hmr⟩ := hknown hr
      exact (h m hm r hmr).superset (evalAll_ok_true hb m hm)
    | false =>
      -- the member that says no has a condition, which is exact and says no as well
      obtain ⟨m, hm, hf⟩ := evalAll_ok_false hb
      obtain ⟨r, hmr⟩ := Option.isSome_iff_exists.1 (hsome _ (List.mem_map_of_mem hm))
      have hr : r ∈ (ms.map (preFilter .aggressive)).filterMap id := by
        simpa using ⟨m, hm, hmr⟩
      rw [← Bool.not_eq_true, PreFilter.allOf_holds hq]
      intro hall
      have hno := (h m hm r hmr).exact (hexact r hr) false hf
      rw [hall r hr] at hno
      cases hno

theorem mapM_id_eq_some {parts : List (Option PreFilter)} {qs : List PreFilter}
    (h : parts.mapM id = some qs) : parts = qs.map some := by
  induction parts generalizing qs with
  | nil =>
    simp only [List.mapM_nil, Option.pure_def, Option.some.injEq] at h
    rw [← h, List.map_nil]
  | cons part parts ih =>
    simp only [List.mapM_cons, id_eq, Option.bind_eq_bind, Option.bind_eq_some_iff,
      Option.pure_def, Option.some.injEq] at h
    obtain ⟨q, rfl, rest, hrest, rfl⟩ := h
    rw [ih hrest, List.map_cons]

theorem any_sound {level : Level} {ms : List (Matcher α)}
    (h : ∀ m ∈ ms, m.Sound call read level) : (any ms).Sound call read level := by
  intro p hp
  rw [preFilter, preFilters_eq] at hp
  split at hp
  · cases hp
  obtain ⟨qs, hqs, hq⟩ := Option.bind_eq_some_iff.1 hp
  -- every member has a condition, and there are no others
  have hparts := mapM_id_eq_some hqs
  have hofMatcher {m : Matcher α} (hm : m ∈ ms) : ∃ q ∈ qs, m.preFilter level = some q := by
    have hmem := List.mem_map_of_mem (f := preFilter level) hm
    rw [hparts, List.mem_map] at hmem
    obtain ⟨q, hq, he⟩ := hmem
    exact ⟨q, hq, he.symm⟩
  have hofPart {q : PreFilter} (hq : q ∈ qs) : ∃ m ∈ ms, m.preFilter level = some q := by
    have hmem := List.mem_map_of_mem (f := some) hq
    rw [← hparts] at hmem
    exact List.mem_map.1 hmem
  have hyes (ht : (any ms).eval read = .ok true) : p.command.holds call = true := by
    rw [eval] at ht
    obtain ⟨m, hm, hmt⟩ := evalAny_ok_true ht
    obtain ⟨q, hqm, hmq⟩ := hofMatcher hm
    exact (PreFilter.anyOf_holds hq).2 ⟨q, hqm, (h m hm q hmq).superset hmt⟩
  refine ⟨hyes, ?_⟩
  intro hx b hb
  cases b with
  | true => exact hyes hb
  | false =>
    rw [eval] at hb
    rw [PreFilter.combine_exact hq, List.all_eq_true] at hx
    rw [← Bool.not_eq_true, PreFilter.anyOf_holds hq]
    -- a condition that holds would be exact for a member that says no
    rintro ⟨q, hqm, hc⟩
    obtain ⟨m, hm, hmq⟩ := hofPart hqm
    rw [(h m hm q hmq).exact (hx q hqm) false (evalAny_ok_false hb m hm)] at hc
    cases hc

theorem eval_group {invert : Bool} {m : Matcher α} {b : Bool}
    (h : (group invert m).eval read = .ok b) : m.eval read = .ok (b != invert) := by
  rw [eval] at h
  cases hm : m.eval read with
  | error e =>
    rw [hm] at h
    cases h
  | ok a =>
    rw [hm] at h
    cases h
    cases a <;> cases invert <;> rfl

theorem group_sound {level : Level} {invert : Bool} {m : Matcher α}
    (h : m.Sound call read level) : (group invert m).Sound call read level := by
  intro p hp
  rw [preFilter] at hp
  cases invert with
  | false =>
    have hs := h p hp
    constructor
    · intro ht
      exact hs.superset (eval_group ht)
    · intro hx b hb
      apply hs.exact hx
      simpa using eval_group hb
  | true =>
    obtain ⟨q, hq, hn⟩ := Option.bind_eq_some_iff.1 hp
    exact PreFilter.negate_sound (h q hq) hn fun x hx => by simpa using eval_group hx

omit [Scalar α] in
theorem mem_filtersOfAll {ms : List (Matcher α)} {f : Filter α} :
    f ∈ filters.filtersOfAll ms ↔ ∃ m ∈ ms, f ∈ m.filters := by
  induction ms with
  | nil => simp [filters.filtersOfAll]
  | cons m ms ih => simp [filters.filtersOfAll, ih]

theorem sound_of_filters (level : Level) :
    (m : Matcher α) → (∀ f ∈ m.filters, f.Sound call read) → m.Sound call read level
  | .leaf f, h => by
    intro p hp
    rw [preFilter] at hp
    split at hp
    · cases hp
    · rw [eval]
      exact h f (by simp [filters]) p hp
  | .all ms, h => by
    have hms : ∀ m ∈ ms, m.Sound call read level := fun m hm =>
      sound_of_filters level m fun f hf => h f (mem_filtersOfAll.2 ⟨m, hm, hf⟩)
    cases level with
    | off =>
      intro p hp
      rw [preFilter] at hp
      cases hp
    | safe => exact all_sound_safe hms
    | aggressive => exact all_sound_aggressive hms
  | .any ms, h => any_sound fun m hm =>
      sound_of_filters level m fun f hf => h f (mem_filtersOfAll.2 ⟨m, hm, hf⟩)
  | .group invert m, h => group_sound (sound_of_filters level m h)

/-- Whatever the calls of the daemon mean: if the condition of each filter holds wherever the filter
says yes, and those that are exact hold nowhere else, then the same is true of the whole matcher. -/
theorem preFilter_never_excludes (level : Level) (m : Matcher α)
    (hf : ∀ f ∈ m.filters, ∀ p, f.preFilter = some p →
      (f.eval read = .ok true → p.command.holds call = true) ∧
        (p.exact = true → ∀ b, f.eval read = .ok b → p.command.holds call = b))
    (p : PreFilter) (hp : m.preFilter level = some p) :
    (m.eval read = .ok true → p.command.holds call = true) ∧
      (p.exact = true → ∀ b, m.eval read = .ok b → p.command.holds call = b) := by
  have hs := sound_of_filters level m (fun f hm p hp => ⟨(hf f hm p hp).1, (hf f hm p hp).2⟩) p hp
  exact ⟨hs.superset, hs.exact⟩

end Matcher

end

def Filter.ofFlag (name key : String) (wanted : Bool) : Filter Float :=
  ⟨{ name, type := .bool, filter := .bool, key := some key }, .eq, .eq,
    ⟨if wanted then "yes" else "no", false⟩, .flag wanted⟩

/-- `NOT [ is_complete=yes is_private=no ]` for an item that is complete and private. -/
theorem Matcher.preFilter_never_excludes_negation :
    let m : Matcher Float := .group true (.all [.leaf (.ofFlag "is_complete" "d.complete=" true),
      .leaf (.ofFlag "is_private" "d.is_private=" false)])
    let read : String → Except QueryError (Value Float) := fun _ => .ok (.bool true)
    ∃ p, m.preFilter .aggressive = some p ∧ p.exact = true ∧ m.eval read = .ok true ∧
      p.command.holds (Texts.answer fun _ => "1") = true := by
  intro m read
  refine ⟨_, rfl, rfl, rfl, ?_⟩
  have hleaves : ∀ f ∈ m.filters, ∀ p, f.preFilter = some p →
      (f.eval read = .ok true → p.command.holds (Texts.answer fun _ => "1") = true) ∧
        (p.exact = true → ∀ b, f.eval read = .ok b →
          p.command.holds (Texts.answer fun _ => "1") = b) := by
    intro f hf p hp
    have hf' : f = .ofFlag "is_complete" "d.complete=" true ∨
        f = .ofFlag "is_private" "d.is_private=" false := by
      simpa [m, Matcher.filters, Matcher.filters.filtersOfAll] using hf
    rcases hf' with rfl | rfl
    · cases hp
      refine ⟨fun _ => by decide, fun _ b hb => ?_⟩
      have hyes : Except.ok (ε := QueryError) true = .ok b := hb
      cases hyes
      decide
    · cases hp
      have hno {b : Bool}
          (hb : (Filter.ofFlag "is_private" "d.is_private=" false).eval read = .ok b) :
          Except.ok (ε := QueryError) false = .ok b := hb
      refine ⟨fun ht => (nomatch hno ht), fun _ b hb => ?_⟩
      cases b with
      | true => nomatch hno hb
      | false => decide
  exact (Matcher.preFilter_never_excludes .aggressive m hleaves _ rfl).1 rfl

end TorrentQuery
