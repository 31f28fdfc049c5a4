import TorrentQuery.Field.Catalogue
import TorrentQuery.Proofs.Filter.Kinds
import TorrentQuery.Proofs.Filter.Threshold

namespace TorrentQuery

open Number Text

theorem PreFilter.sound_of_error {call : String → List Arg → Bool} {p : PreFilter}
    {answer : Except QueryError Bool} {e : QueryError} (h : answer = .error e) :
    p.Sound call answer := by
  subst h
  exact ⟨fun h => (nomatch h), fun _ _ h => (nomatch h)⟩

/-- Patterns that only ask whether there is a text, or that the daemon is never asked about. -/
def Pattern.isPlain : Pattern → Bool
  | .regex _ _ | .glob _ _ => false
  | _ => true

namespace Filter

/-- Choosing again and again between the last choice and the next element leaves one of them. -/
theorem foldl_mem_of_choice {α : Type} {f : α → α → α} (hf : ∀ a b, f a b = a ∨ f a b = b)
    (best : α) (xs : List α) : xs.foldl f best ∈ best :: xs := by
  induction xs generalizing best with
  | nil => exact List.mem_cons_self
  | cons x xs ih =>
    rw [List.foldl_cons]
    rcases List.mem_cons.1 (ih (f best x)) with hb | hb
    · rw [hb]
      rcases hf best x with h | h
      · rw [h]
        exact List.mem_cons_self
      · rw [h]
        exact List.mem_cons_of_mem _ List.mem_cons_self
    · exact List.mem_cons_of_mem _ (List.mem_cons_of_mem _ hb)

theorem longest_mem {xs : List String} (hne : longest xs ≠ "") : longest xs ∈ xs := by
  have hfold := foldl_mem_of_choice
    (f := fun best x : String => if best.length ≤ x.length then x else best) (fun a b => by grind) ""
    xs
  exact (List.mem_cons.1 hfold).resolve_left hne

/-- A tag is a lower-cased word of the text that the tags were read from, where the daemon finds
it. -/
theorem holds_contains_of_mem {texts : Texts} {key text tag : String}
    (hascii : ∀ c ∈ tag.toList, c.val < 128) (htext : texts (Texts.keyOf ("$" ++ key)) = text)
    (htag : tag ∈ ((TextSet.ofList (wordsOf text)).map lowered).toList) :
    (Command.contains key tag).holds texts.answer = true := by
  rw [TextSet.map, TextSet.mem_ofList, List.mem_map] at htag
  obtain ⟨w, hw, rfl⟩ := htag
  rw [TextSet.mem_ofList, wordsOf, List.mem_map] at hw
  obtain ⟨cs, hcs, rfl⟩ := hw
  have hlowered : (lowered (String.ofList cs)).toList = lower cs := by
    rw [lowered, String.toList_ofList, String.toList_ofList]
  rw [hlowered] at hascii
  rw [Texts.holds_contains, htext, occursIn_iff_infix, hlowered, lower_lower_of_ascii hascii]
  exact lower_infix_of_ascii (infix_of_mem_words hcs) hascii

theorem containsNeedle_eq_some {key needle : String} {p : PreFilter}
    (hp : PreFilter.containsNeedle key needle = some p) :
    p = .ofSuperset (.contains key needle) ∧ needle ≠ "" ∧ ∀ c ∈ needle.toList, c.val < 128 := by
  unfold PreFilter.containsNeedle at hp
  split at hp
  · next h =>
    cases hp
    simp only [Bool.and_eq_true, Bool.not_eq_true', List.all_eq_true, decide_eq_true_eq] at h
    refine ⟨rfl, ?_, h.2⟩
    rintro rfl
    exact absurd h.1 (by decide)
  · cases hp

section Eval

variable {read : String → Except QueryError (Value ℚ)} {f : Filter ℚ} {v : Value ℚ}

theorem eval_of_read_error {e : QueryError} (h : read f.field.name = .error e) :
    ∃ e', f.eval read = .error e' := by
  obtain ⟨field, op, effective, value, test⟩ := f
  change read field.name = .error e at h
  cases test with
  | time x relative notNull => exact ⟨e, by rw [eval]; simp only [h]; rfl⟩
  | duration x => exact ⟨e, by rw [eval]; simp only [h]; rfl⟩
  | _ => cases effective <;> exact ⟨_, by simp only [eval, h]; rfl⟩

theorem eval_number {x : ℚ} (ht : f.test = .number x) (h : read f.field.name = .ok v) :
    f.eval read = .ok (f.effective.compare (v.number?.getD Scalar.zero) x) := by
  rw [← Operator.apply_ok]
  simp only [eval, ht, h]
  rfl

theorem eval_size {n : Nat} (ht : f.test = .size n) (h : read f.field.name = .ok v) :
    f.eval read = .ok (f.effective.compare (v.number?.getD Scalar.zero) ((n : Int) : ℚ)) := by
  rw [← Operator.apply_ok]
  simp only [eval, ht, h]
  rfl

/-- An unset time never has what a filter asks for. -/
theorem eval_moment {x : ℚ} (ht : f.test.isMoment x) (h : read f.field.name = .ok v) :
    ∃ b, f.eval read = .ok b ∧
      (b = true → f.effective.compare (v.number?.getD Scalar.zero) x = true) := by
  obtain ⟨relative, notNull, ht⟩ | ht := ht
  all_goals
    simp only [eval, ht, h]
    by_cases hu : f.test.unset v = true
    · rw [ht] at hu
      exact ⟨false, by simp [hu, bind, Except.bind, pure, Except.pure], fun h => (nomatch h)⟩
    · rw [ht] at hu
      exact ⟨_, by simp [hu, bind, Except.bind, pure, Except.pure], id⟩

/-- Tests that know no order are handed over for equality and, where they are exact, for its
negation. -/
theorem sound_of_equal {texts : Texts} {key : String} (hkey : f.field.key = some key)
    (ht : f.test.threshold? = none)
    (hs : ∀ p v, equalPreFilter f.test key = some p → read f.field.name = .ok v →
      p.Sound texts.answer (f.test.equal read v)) : f.Sound texts.answer read := by
  intro p hp
  cases hread : read f.field.name with
  | error e =>
    obtain ⟨e', he⟩ := eval_of_read_error hread
    exact PreFilter.sound_of_error he
  | ok v =>
    have hpre : (f.effective = .eq → f.preFilter = equalPreFilter f.test key) ∧
        (f.effective = .ne → f.preFilter = (equalPreFilter f.test key).bind (·.negate)) ∧
        (f.effective ≠ .eq → f.effective ≠ .ne → f.preFilter = none) := by
      simp only [preFilter, hkey]
      cases hf : f.test with
      | flag | tags | pattern | files => cases f.effective <;> simp
      | _ =>
        rw [hf] at ht
        cases ht
    have heval (hop : f.effective = .eq ∨ f.effective = .ne) : f.eval read =
        f.effective.apply (f.test.equal read v) (.error f.unsupported) := by
      cases hf : f.test with
      | flag | tags | pattern | files =>
        rcases hop with hop | hop <;> simp only [eval, hop, hf, hread] <;> rfl
      | _ =>
        rw [hf] at ht
        cases ht
    by_cases heq : f.effective = .eq
    · rw [hpre.1 heq] at hp
      rw [heval (.inl heq), heq]
      exact hs p v hp hread
    by_cases hne : f.effective = .ne
    · rw [hpre.2.1 hne] at hp
      obtain ⟨q, hq, hneg⟩ := Option.bind_eq_some_iff.1 hp
      apply PreFilter.negate_sound (hs q v hq hread) hneg
      intro b hb
      rw [heval (.inr hne), hne] at hb
      cases he : f.test.equal read v with
      | error e =>
        rw [he] at hb
        cases hb
      | ok a =>
        rw [he] at hb
        cases hb
        rw [Bool.not_not]
    · rw [hpre.2.2 heq hne] at hp
      cases hp

variable {texts : Texts} {key : String}

theorem flag_sound {wanted : Bool} {p : PreFilter}
    (hp : equalPreFilter (α := ℚ) (.flag wanted) key = some p)
    (hv : Texts.integer (texts (Texts.keyOf key)) = if v.truthy then 1 else 0) :
    p.Sound texts.answer ((Test.flag wanted).equal read v) := by
  cases hp
  have hfits : Fits64 (if wanted then 1 else 0) := by
    constructor <;> cases wanted <;> decide
  apply compare_sound rfl hfits
  rw [hv]
  cases v.truthy <;> cases wanted <;> decide

theorem tags_sound {tag : String} {exact : Option TextSet} {p : PreFilter}
    (hp : equalPreFilter (α := ℚ) (.tags tag exact) key = some p)
    (hv : v.toSet = .ofList (wordsOf (texts (Texts.keyOf ("$" ++ key))))) :
    p.Sound texts.answer ((Test.tags tag exact).equal read v) := by
  cases exact with
  | none =>
    obtain ⟨rfl, -, hascii⟩ := containsNeedle_eq_some hp
    apply PreFilter.ofSuperset_sound
    intro h
    apply holds_contains_of_mem hascii rfl
    have hmatch := Except.ok.inj h
    simpa [Test.matchesTags, TextSet.contains, hv] using hmatch
  | some wanted =>
    simp only [equalPreFilter, tagsPreFilter] at hp
    split at hp
    · cases hp
    obtain ⟨rfl, hne, hascii⟩ := containsNeedle_eq_some hp
    apply PreFilter.ofSuperset_sound
    intro h
    apply holds_contains_of_mem hascii rfl
    have hmatch := Except.ok.inj h
    simp only [Test.matchesTags, hv, beq_iff_eq] at hmatch
    rw [hmatch]
    exact longest_mem hne

theorem pattern_sound {q : Pattern} {p : PreFilter} (hq : q.isPlain = true)
    (hp : equalPreFilter (α := ℚ) (.pattern q) key = some p)
    (hv : v.render = texts (Texts.keyOf key)) :
    p.Sound texts.answer ((Test.pattern q).equal read v) := by
  cases q with
  | empty =>
    cases hp
    apply PreFilter.ofExact_sound
    intro b hb
    cases hb
    rw [Texts.holds_empty, hv]
  | nonEmpty =>
    cases hp
    apply PreFilter.ofSuperset_sound
    intro h
    rw [Command.holds_negate, Texts.holds_empty, ← hv]
    exact Except.ok.inj h
  | always => cases hp
  | template => cases hp
  | regex => cases hq
  | glob => cases hq

end Eval

end Filter

/-- What an item has as the value of a field, and the daemon as the text under its key, say the
same. -/
def Field.Agrees (field : Field) (v : Value ℚ) (text : String) : Prop :=
  match field.filter with
  | .bool => Texts.integer text = if v.truthy then 1 else 0
  | .float => 0 < field.scale ∧ v.number?.getD Scalar.zero = Texts.integer text / field.scale
  | .byteSize | .time | .timeNotNull | .duration => v.number?.getD Scalar.zero = Texts.integer text
  | .taggedAs => v.toSet = .ofList (wordsOf text)
  | .pattern => v.render = text
  | .files => True

namespace Filter

/-- Thresholds stay within 64 bits when they are scaled, or moved by the slack of times. -/
def InRange (f : Filter ℚ) : Prop :=
  match f.test with
  | .number x => Within64 (f.effective.widened (x * f.field.scale))
  | .time x _ _ | .duration x => Within64 (x - timeSlack) ∧ Within64 (x + timeSlack)
  | _ => True

section Amount

variable {read : String → Except QueryError (Value ℚ)} {f : Filter ℚ} {texts : Texts} {key : String}

theorem number_sound (hkey : f.field.key = some key) {x : ℚ} (ht : f.test = .number x)
    (hrange : f.InRange)
    (hv : ∀ v, read f.field.name = .ok v → 0 < f.field.scale ∧ v.number?.getD Scalar.zero =
      Texts.integer (texts (Texts.keyOf ("value=$" ++ key))) / f.field.scale) :
    f.Sound texts.answer read := by
  intro p hp
  cases hread : read f.field.name with
  | error e =>
    obtain ⟨e', he⟩ := eval_of_read_error hread
    exact PreFilter.sound_of_error he
  | ok v =>
    obtain ⟨hscale, hamount⟩ := hv v hread
    have hpos : (0 : ℚ) < f.field.scale := by exact_mod_cast hscale
    rw [eval_number ht hread, hamount, Operator.compare_div _ hpos]
    simp only [preFilter, hkey, ht] at hp
    rw [InRange, ht] at hrange
    exact numberPreFilter_sound hrange hp rfl

theorem size_sound (hkey : f.field.key = some key) {n : Nat} (ht : f.test = .size n)
    (hv : ∀ v, read f.field.name = .ok v →
      v.number?.getD Scalar.zero = Texts.integer (texts (Texts.keyOf key))) :
    f.Sound texts.answer read := by
  intro p hp
  cases hread : read f.field.name with
  | error e =>
    obtain ⟨e', he⟩ := eval_of_read_error hread
    exact PreFilter.sound_of_error he
  | ok v =>
    rw [eval_size ht hread, hv v hread]
    simp only [preFilter, hkey, ht] at hp
    exact sizePreFilter_sound hp rfl

theorem moment_sound (hkey : f.field.key = some key) {x : ℚ} (ht : f.test.isMoment x)
    (hrange : f.InRange)
    (hv : ∀ v, read f.field.name = .ok v → v.number?.getD Scalar.zero =
      Texts.integer (texts (Texts.keyOf ("value=$" ++ key)))) :
    f.Sound texts.answer read := by
  intro p hp
  cases hread : read f.field.name with
  | error e =>
    obtain ⟨e', he⟩ := eval_of_read_error hread
    exact PreFilter.sound_of_error he
  | ok v =>
    obtain ⟨b, heval, hb⟩ := eval_moment ht hread
    rw [hv v hread] at hb
    rw [heval]
    obtain ⟨relative, notNull, ht⟩ | ht := ht
    all_goals
      simp only [preFilter, hkey, ht] at hp
      simp only [InRange, ht] at hrange
      exact timePreFilter_sound hrange.1 hrange.2 hp rfl hb

end Amount

/-- What is known of a filter's field makes its condition sound, whatever its kind. -/
theorem sound_of_agrees {now : ℚ} {field : Field} {op : Operator} {value : Literal} {f : Filter ℚ}
    (hf : ofCondition now field op value = .ok f)
    (hplain : ∀ q, f.test = .pattern q → q.isPlain = true) (hrange : f.InRange)
    {read : String → Except QueryError (Value ℚ)} {texts : Texts}
    (hagrees : ∀ key, field.key = some key → ∀ v, read field.name = .ok v →
      ∀ a ∈ Arg.spellings key, field.Agrees v (texts (Texts.keyOf a))) :
    f.Sound texts.answer read := by
  obtain ⟨rfl, s, htest⟩ := of_ofCondition hf
  -- without a key nothing is sent
  intro p hp
  obtain ⟨key, hkey, -⟩ := Option.bind_eq_some_iff.1 hp
  revert p
  change f.Sound texts.answer read
  have hraw {v : Value ℚ} (hv : read f.field.name = .ok v) :=
    hagrees key hkey v hv key (by simp [Arg.spellings])
  have hdollar {v : Value ℚ} (hv : read f.field.name = .ok v) :=
    hagrees key hkey v hv ("$" ++ key) (by simp [Arg.spellings])
  have hvalue {v : Value ℚ} (hv : read f.field.name = .ok v) :=
    hagrees key hkey v hv ("value=$" ++ key) (by simp [Arg.spellings])
  unfold Field.Agrees at hraw hdollar hvalue
  cases hkind : f.field.filter with
  | pattern =>
    rw [hkind] at htest
    simp only [hkind] at hraw
    obtain ⟨q, hq⟩ := Test.pattern_of_read htest
    apply sound_of_equal hkey (by rw [hq]; rfl)
    intro p v hp hv
    rw [hq] at hp ⊢
    exact pattern_sound (hplain q hq) hp (hraw hv)
  | files =>
    rw [hkind] at htest
    have hq : f.test = .files (.ofText s) := (Except.ok.inj htest).symm
    apply sound_of_equal hkey (by rw [hq]; rfl)
    intro p v hp hv
    rw [hq] at hp
    cases hp
  | taggedAs =>
    rw [hkind] at htest
    simp only [hkind] at hdollar
    obtain ⟨tag, exact, htags⟩ := Test.tags_of_readTags (s := s)
    have hq : f.test = .tags tag exact := (Except.ok.inj htest).symm.trans htags
    apply sound_of_equal hkey (by rw [hq]; rfl)
    intro p v hp hv
    rw [hq] at hp ⊢
    exact tags_sound hp (hdollar hv)
  | bool =>
    simp only [hkind, Test.read] at htest
    simp only [hkind] at hraw
    obtain ⟨wanted, hq⟩ := Test.flag_of_readFlag htest
    apply sound_of_equal hkey (by rw [hq]; rfl)
    intro p v hp hv
    rw [hq] at hp ⊢
    exact flag_sound hp (hraw hv)
  | float =>
    simp only [hkind, Test.read] at htest
    simp only [hkind] at hvalue
    obtain ⟨x, hq⟩ := Test.number_of_readNumber htest
    exact number_sound hkey hq hrange fun v hv => hvalue hv
  | byteSize =>
    simp only [hkind, Test.read] at htest
    simp only [hkind] at hraw
    obtain ⟨n, hq⟩ := Test.size_of_readSize htest
    exact size_sound hkey hq fun v hv => hraw hv
  | time =>
    simp only [hkind, Test.read] at htest
    simp only [hkind] at hvalue
    obtain ⟨x, hq⟩ := Test.isMoment_of_readTime htest
    exact moment_sound hkey hq hrange fun v hv => hvalue hv
  | timeNotNull =>
    simp only [hkind, Test.read] at htest
    simp only [hkind] at hvalue
    obtain ⟨x, hq⟩ := Test.isMoment_of_readTime htest
    exact moment_sound hkey hq hrange fun v hv => hvalue hv
  | duration =>
    simp only [hkind, Test.read] at htest
    simp only [hkind] at hvalue
    obtain ⟨x, hq⟩ := Test.isMoment_of_readDuration htest
    exact moment_sound hkey hq hrange fun v hv => hvalue hv

/-- No condition of a single filter loses an item on which both sides agree, whatever the operator
and the value: signs, mirrored times, unset values and the rounding of thresholds are all accounted
for. -/
theorem ofCondition_never_excludes {now : ℚ} {field : Field} {op : Operator} {value : Literal}
    {f : Filter ℚ} (hf : ofCondition now field op value = .ok f)
    (hplain : ∀ q, f.test = .pattern q → q.isPlain = true) (hrange : f.InRange)
    {read : String → Except QueryError (Value ℚ)} {texts : Texts}
    (hagrees : ∀ key, field.key = some key → ∀ v, read field.name = .ok v →
      ∀ a ∈ Arg.spellings key, field.Agrees v (texts (Texts.keyOf a)))
    (p : PreFilter) (hp : f.preFilter = some p) :
    (f.eval read = .ok true → p.command.holds texts.answer = true) ∧
      (p.exact = true → ∀ b, f.eval read = .ok b → p.command.holds texts.answer = b) := by
  have hs := sound_of_agrees hf hplain hrange hagrees p hp
  exact ⟨hs.superset, hs.exact⟩

/-- `completed>2d`, asked at 1000000 of an item that was completed at 500000. -/
theorem ofCondition_never_excludes_two_days :
    let field := Catalogue.keyed "completed" .timestamp .timeNotNull "" "d.custom=tm_completed"
    let read : String → Except QueryError (Value ℚ) := fun _ => .ok (.int 500000)
    let texts : Texts := fun key => if key = "d.custom=tm_completed" then "500000" else ""
    ∃ f p, ofCondition (1000000 : ℚ) field .gt ⟨"2d", false⟩ = .ok f ∧ f.preFilter = some p ∧
      f.eval read = .ok true ∧ p.command.holds texts.answer = true := by
  intro field read texts
  let f : Filter ℚ := ⟨field, .gt, .lt, ⟨"2d", false⟩, .time (1000000 - (172800 : Int)) true true⟩
  have hf : ofCondition (1000000 : ℚ) field .gt ⟨"2d", false⟩ = .ok f := by
    simp only [ofCondition, Catalogue.keyed, FilterKind.isNumeric, Test.read, Test.readTime, field]
    rfl
  have hthreshold : (1000000 - (172800 : Int) : ℚ) = 827200 := by norm_num
  have hp : f.preFilter = some (.ofSuperset (.compareValue "less" "d.custom=tm_completed"
      (Scalar.trunc64 (827200 : ℚ) + timeSlack))) := by
    simp only [f, preFilter, timePreFilter, hthreshold]
    rfl
  have hrange : f.InRange := by
    simp only [InRange, f, hthreshold, Within64, timeSlack, maxInt64]
    norm_num
  have hagrees : ∀ key, field.key = some key → ∀ v, read field.name = .ok v →
      ∀ a ∈ Arg.spellings key, field.Agrees v (texts (Texts.keyOf a)) := by
    intro key hkey v hv a ha
    cases hkey
    cases hv
    have htext : texts (Texts.keyOf a) = "500000" := by
      rw [Texts.keyOf_of_mem_spellings rfl (by decide) ha]
      decide
    rw [htext]
    rfl
  have heval : f.eval read = .ok true := by
    simp only [eval, f, hthreshold]
    rfl
  have hplain : ∀ q, f.test = .pattern q → q.isPlain = true := by
    intro q hq
    cases hq
  exact ⟨f, _, hf, hp, heval,
    (ofCondition_never_excludes hf hplain hrange hagrees _ hp).1 heval⟩

end Filter

end TorrentQuery
