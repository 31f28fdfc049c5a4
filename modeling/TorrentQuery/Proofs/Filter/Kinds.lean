import Mathlib.Tactic.Common
import TorrentQuery.Filter.Basic

namespace TorrentQuery

open Number

variable {α : Type}

namespace Test

def isMoment (test : Test α) (x : α) : Prop :=
  (∃ relative notNull, test = .time x relative notNull) ∨ test = .duration x

def kinds : Test α → List FilterKind
  | .flag _ => [.bool]
  | .number _ => [.float]
  | .size _ => [.byteSize]
  | .time _ _ _ | .duration _ => [.time, .timeNotNull, .duration]
  | .tags _ _ => [.taggedAs]
  | .pattern _ => [.pattern]
  | .files _ => [.files]

variable {s : String} {test : Test α}

theorem flag_of_readFlag (h : readFlag s = .ok test) : ∃ wanted, test = .flag wanted := by
  unfold readFlag at h
  split at h <;> first | exact ⟨_, (Except.ok.inj h).symm⟩ | cases h

theorem size_of_readSize (h : readSize s = .ok test) : ∃ n, test = .size n := by
  unfold readSize at h
  split at h
  · exact ⟨_, (Except.ok.inj h).symm⟩
  · cases h

theorem tags_of_readTags : ∃ tag exact, readTags s = (.tags tag exact : Test α) := by
  unfold readTags
  split
  · exact ⟨_, _, rfl⟩
  · split <;> exact ⟨_, _, rfl⟩

theorem eq_of_map_ok {r : Except ValueFault Int} {make : Int → Test α} (h : r.map make = .ok test) :
    ∃ t, test = make t := by
  cases r with
  | error e => cases h
  | ok t => exact ⟨t, (Except.ok.inj h).symm⟩

variable [Scalar α] {now : α}

theorem pattern_of_read (h : read now .pattern s = .ok test) : ∃ q, test = .pattern q := by
  simp only [Test.read] at h
  split at h
  · exact ⟨_, (Except.ok.inj h).symm⟩
  · cases h

theorem number_of_readNumber (h : readNumber s = .ok test) : ∃ x, test = .number x := by
  unfold readNumber at h
  split at h
  · split at h
    · exact ⟨_, (Except.ok.inj h).symm⟩
    · cases h
  · cases h

theorem time_of_readTime {notNull : Bool} (h : readTime now notNull s = .ok test) :
    ∃ x relative, test = .time x relative notNull := by
  unfold readTime at h
  split at h
  · exact ⟨_, _, (Except.ok.inj h).symm⟩
  · obtain ⟨t, rfl⟩ := eq_of_map_ok h
    exact ⟨_, _, rfl⟩

theorem duration_of_readDuration (h : readDuration now s = .ok test) : ∃ x, test = .duration x := by
  unfold readDuration at h
  split at h
  · exact ⟨_, (Except.ok.inj h).symm⟩
  split at h
  · exact ⟨_, (Except.ok.inj h).symm⟩
  · obtain ⟨t, rfl⟩ := eq_of_map_ok h
    exact ⟨_, rfl⟩

theorem isMoment_of_readTime {notNull : Bool} (h : readTime now notNull s = .ok test) :
    ∃ x, test.isMoment x := by
  obtain ⟨x, relative, rfl⟩ := time_of_readTime h
  exact ⟨x, .inl ⟨relative, notNull, rfl⟩⟩

theorem isMoment_of_readDuration (h : readDuration now s = .ok test) :
    ∃ x, test.isMoment x := by
  obtain ⟨x, rfl⟩ := duration_of_readDuration h
  exact ⟨x, .inr rfl⟩

theorem mem_kinds_of_read {kind : FilterKind} (h : read now kind s = .ok test) :
    kind ∈ test.kinds := by
  have hmoment (kind : FilterKind) (hkind : kind ∈ [.time, .timeNotNull, .duration])
      (h : ∃ x, test.isMoment x) : kind ∈ test.kinds := by
    obtain ⟨x, ⟨_, _, rfl⟩ | rfl⟩ := h <;> exact hkind
  cases kind with
  | bool =>
    obtain ⟨_, rfl⟩ := flag_of_readFlag h
    exact List.mem_singleton_self _
  | pattern =>
    obtain ⟨_, rfl⟩ := pattern_of_read h
    exact List.mem_singleton_self _
  | files =>
    cases h
    exact List.mem_singleton_self _
  | taggedAs =>
    obtain ⟨_, _, htags⟩ := tags_of_readTags (α := α) (s := s)
    rw [read, htags] at h
    cases h
    exact List.mem_singleton_self _
  | float =>
    obtain ⟨_, rfl⟩ := number_of_readNumber h
    exact List.mem_singleton_self _
  | byteSize =>
    obtain ⟨_, rfl⟩ := size_of_readSize h
    exact List.mem_singleton_self _
  | time => exact hmoment _ (by decide) (isMoment_of_readTime h)
  | timeNotNull => exact hmoment _ (by decide) (isMoment_of_readTime h)
  | duration => exact hmoment _ (by decide) (isMoment_of_readDuration h)

/-- Amounts have a threshold. -/
theorem threshold_of_read {kind : FilterKind} (hkind : kind.isNumeric = true)
    (h : read now kind s = .ok test) : ∃ t, test.threshold? = some t := by
  cases kind with
  | pattern | files | taggedAs | bool => cases hkind
  | float =>
    obtain ⟨x, rfl⟩ := number_of_readNumber h
    exact ⟨x, rfl⟩
  | byteSize =>
    obtain ⟨n, rfl⟩ := size_of_readSize h
    exact ⟨_, rfl⟩
  | time | timeNotNull =>
    obtain ⟨x, relative, rfl⟩ := time_of_readTime h
    exact ⟨x, rfl⟩
  | duration =>
    obtain ⟨x, rfl⟩ := duration_of_readDuration h
    exact ⟨x, rfl⟩

/-- Only fields with truth values are asked for truth values. -/
theorem bool_of_read_flag {kind : FilterKind} {wanted : Bool}
    (h : read now kind s = .ok (.flag wanted)) : kind = .bool :=
  List.mem_singleton.1 (mem_kinds_of_read h)

/-- Placeholders are those of the value. -/
theorem pieces_of_read {kind : FilterKind} {pieces : List Template.Piece}
    (h : read now kind s = .ok (.pattern (.template pieces))) : pieces = Template.pieces s := by
  obtain rfl : kind = .pattern := List.mem_singleton.1 (mem_kinds_of_read h)
  simp only [Test.read] at h
  split at h
  · next p hp =>
    cases h
    unfold Pattern.read? at hp
    dsimp only at hp
    split at hp
    · cases hp
    split at hp
    · cases hp
    · cases hp
    · cases hp
    · obtain ⟨r, -, hr⟩ := Option.map_eq_some_iff.1 hp
      cases hr
    · split at hp
      · cases hp
        rfl
      · split at hp <;> cases hp
  · cases h

end Test

theorem Filter.of_ofCondition [Scalar α] {now : α} {field : Field} {op : Operator} {value : Literal}
    {f : Filter α} (hf : ofCondition now field op value = .ok f) :
    f.field = field ∧ ∃ s, Test.read now field.filter s = .ok f.test := by
  unfold ofCondition at hf
  simp only at hf
  split at hf
  · next test htest =>
    cases hf
    exact ⟨rfl, _, htest⟩
  · cases hf

/-- The filter of a condition on an amount, once the sign is split off. -/
theorem Filter.ofCondition_of_splitSign [Scalar α] (now : α) {field : Field}
    (hkind : field.filter.isNumeric = true) {op signed : Operator} {value : Literal} {text : String}
    (hsign : splitSign op value.text = (signed, text)) :
    ofCondition now field op value =
      ((Test.read now field.filter text).map fun test =>
        ⟨field, op, test.effective signed, value, test⟩).mapError
          (.invalidValue field.name text) := by
  cases htest : Test.read now field.filter text <;>
    simp only [ofCondition, hkind, if_true, hsign, htest, Except.map, Except.mapError]

end TorrentQuery
