import TorrentQuery.Proofs.Filter.Leaf

namespace TorrentQuery

open Number

namespace Operator

/-- The answers of the six operators fit together, and just one of "less", "equal" and "greater"
is so. -/
structure Coherent (answer : Operator → Bool) : Prop where
  ne : answer .ne = !answer .eq
  ge : answer .ge = (answer .eq || answer .gt)
  le : answer .le = (answer .eq || !answer .gt)
  lt : answer .lt = (!answer .eq && !answer .gt)
  one : [Operator.lt, .eq, .gt].countP answer = 1

theorem coherent_compare (x t : ℚ) : Coherent (·.compare x t) := by
  rcases lt_trichotomy x t with h | rfl | h
  · constructor <;> simp [compare, h, h.ne, h.le, h.not_ge, h.not_gt]
  · constructor <;> simp [compare]
  · constructor <;> simp [compare, h, h.ne', h.le, h.not_ge, h.not_gt]

/-- Operators fit together as well when all of them are turned round. -/
theorem Coherent.mirrored {answer : Operator → Bool} (h : Coherent answer) :
    Coherent fun op => answer op.mirrored where
  ne := h.ne
  ge := by
    change answer .le = (answer .eq || answer .lt)
    rw [h.le, h.lt]
    cases answer .eq <;> rfl
  le := by
    change answer .ge = (answer .eq || !answer .lt)
    rw [h.ge, h.lt]
    cases answer .eq <;> simp
  lt := by
    change answer .gt = (!answer .eq && !answer .lt)
    have hone := h.one
    rw [List.countP_cons, List.countP_cons, List.countP_cons, h.lt] at hone
    rw [h.lt]
    cases heq : answer .eq <;> cases hgt : answer .gt <;> simp [heq, hgt] at hone ⊢
  one := by
    have hperm : [Operator.gt, .eq, .lt].Perm [.lt, .eq, .gt] := by decide
    exact (hperm.countP_eq answer).trans h.one

end Operator

def Value.amount (v : Value ℚ) : ℚ := v.number?.getD 0

/-- An amount that stands for an unset time or duration, and is not compared with a threshold other
than zero. -/
def FilterKind.Unset (kind : FilterKind) (x t : ℚ) : Prop :=
  (kind = .timeNotNull ∨ kind = .duration) ∧ x = 0 ∧ t ≠ 0

namespace Test

variable {now t : ℚ} {kind : FilterKind} {s : String} {test : Test ℚ}

theorem zero_eq : (Scalar.zero : ℚ) = 0 := Int.cast_zero

theorem unset_iff (hkind : kind.isNumeric = true) (h : read now kind s = .ok test)
    (ht : test.threshold? = some t) (v : Value ℚ) :
    test.unset v = true ↔ kind.Unset v.amount t := by
  have hset (hunset : test.unset v = false) (hkind : kind ≠ .timeNotNull ∧ kind ≠ .duration) :
      test.unset v = true ↔ kind.Unset v.amount t := by
    simp [FilterKind.Unset, hunset, hkind]
  cases kind with
  | pattern | files | taggedAs | bool => cases hkind
  | float =>
    change readNumber s = .ok test at h
    obtain ⟨x, rfl⟩ := number_of_readNumber h
    exact hset rfl (by decide)
  | byteSize =>
    obtain ⟨n, rfl⟩ := size_of_readSize h
    exact hset rfl (by decide)
  | time =>
    obtain ⟨x, relative, rfl⟩ := time_of_readTime h
    exact hset rfl (by decide)
  | timeNotNull =>
    obtain ⟨x, relative, rfl⟩ := time_of_readTime h
    cases ht
    simp [unset, FilterKind.Unset, Value.amount, zero_eq, and_comm]
  | duration =>
    obtain ⟨x, rfl⟩ := duration_of_readDuration h
    cases ht
    cases hv : v.number? <;>
      simp [unset, FilterKind.Unset, Value.amount, zero_eq, hv, and_comm]

end Test

namespace Filter

theorem splitSign_of_unsigned {op : Operator} {s : String}
    (h : ∀ c ∈ s.toList.head?, c ≠ '+' ∧ c ≠ '-') : splitSign op s = (op, s) := by
  unfold splitSign
  split
  · next hs => exact absurd rfl (h '+' (by rw [hs]; rfl)).1
  · next hs => exact absurd rfl (h '-' (by rw [hs]; rfl)).2
  · rfl

/-- An amount is compared with the threshold, unless it is unset. -/
theorem eval_amount {f : Filter ℚ} {t : ℚ} (ht : f.test.threshold? = some t)
    {read : String → Except QueryError (Value ℚ)} {v : Value ℚ} (hv : read f.field.name = .ok v) :
    f.eval read = .ok (!f.test.unset v && f.effective.compare v.amount t) := by
  generalize htest : f.test = test at ht ⊢
  cases test with
  | flag | tags | pattern | files => cases ht
  | number x =>
    cases ht
    rw [eval_number htest hv]
    rfl
  | size n =>
    cases ht
    rw [eval_size htest hv]
    rfl
  | time x relative notNull =>
    cases ht
    simp only [eval, htest, hv]
    cases hunset : (Test.time t relative notNull).unset v <;>
      simp [hunset, bind, Except.bind, pure, Except.pure, Value.amount, Test.zero_eq]
  | duration x =>
    cases ht
    simp only [eval, htest, hv]
    cases hunset : (Test.duration t).unset v <;>
      simp [hunset, bind, Except.bind, pure, Except.pure, Value.amount, Test.zero_eq]

theorem ofCondition_of_unsigned {now : ℚ} {field : Field} (hkind : field.filter.isNumeric = true)
    {v : Literal} (hsign : ∀ c ∈ v.text.toList.head?, c ≠ '+' ∧ c ≠ '-') {test : Test ℚ}
    (htest : Test.read now field.filter v.text = .ok test) (op : Operator) :
    ofCondition now field op v = .ok ⟨field, op, test.effective op, v, test⟩ := by
  rw [ofCondition_of_splitSign now hkind (splitSign_of_unsigned hsign), htest]
  rfl

theorem coherent_effective (test : Test ℚ) (x t : ℚ) :
    Operator.Coherent fun op => (test.effective op).compare x t := by
  have hplain := Operator.coherent_compare x t
  cases test with
  | time y relative notNull =>
    cases relative with
    | true => exact hplain.mirrored
    | false => exact hplain
  | flag | tags | number | size | duration | pattern | files => exact hplain

theorem effective_eq (test : Test ℚ) : test.effective .eq = .eq := by
  cases test with
  | time y relative notNull => cases relative <;> rfl
  | flag | tags | number | size | duration | pattern | files => rfl

/-- A value without a sign makes filters on an amount with all operators or with none. Where the
amount is unset, none of the filters answers yes; otherwise the answers follow from those for
equality and "greater". -/
theorem operators_coherent {now : ℚ} {field : Field} (hkind : field.filter.isNumeric = true)
    {v : Literal} (hsign : ∀ c ∈ v.text.toList.head?, c ≠ '+' ∧ c ≠ '-') {test : Test ℚ}
    (htest : Test.read now field.filter v.text = .ok test) :
    ∃ t, test.threshold? = some t ∧ ∃ filter : Operator → Filter ℚ,
      (∀ op, ofCondition now field op v = .ok (filter op) ∧ (filter op).test = test) ∧
      ∀ (read : String → Except QueryError (Value ℚ)) (value : Value ℚ),
        read field.name = .ok value → ∃ answer : Operator → Bool,
          (∀ op, (filter op).eval read = .ok (answer op)) ∧
          (field.filter.Unset value.amount t → ∀ op, answer op = false) ∧
          (¬ field.filter.Unset value.amount t →
            Operator.Coherent answer ∧ (answer .eq = true ↔ value.amount = t)) := by
  obtain ⟨t, ht⟩ := Test.threshold_of_read hkind htest
  refine ⟨t, ht, fun op => ⟨field, op, test.effective op, v, test⟩,
    fun op => ⟨ofCondition_of_unsigned hkind hsign htest op, rfl⟩, fun read value hread => ?_⟩
  have hunset := Test.unset_iff hkind htest ht value
  refine ⟨fun op => !test.unset value && (test.effective op).compare value.amount t,
    fun op => eval_amount ht hread, fun h op => ?_, fun h => ?_⟩
  · rw [hunset.2 h]
    rfl
  · have hset : test.unset value = false := Bool.eq_false_iff.2 fun hu => h (hunset.1 hu)
    simp only [hset, Bool.not_false, Bool.true_and]
    refine ⟨coherent_effective test value.amount t, ?_⟩
    rw [effective_eq]
    exact beq_iff_eq

/-- `completed` and `2d`, asked at 1000000 of an item that was not completed and of one that was
completed at 500000. -/
theorem operators_coherent_two_days :
    let field := Catalogue.keyed "completed" .timestamp .timeNotNull "" "d.custom=tm_completed"
    let read : ℤ → String → Except QueryError (Value ℚ) := fun n _ => .ok (.int n)
    ∃ filter : Operator → Filter ℚ,
      (∀ op, ofCondition (1000000 : ℚ) field op ⟨"2d", false⟩ = .ok (filter op)) ∧
      (∀ op, (filter op).eval (read 0) = .ok false) ∧
      ∃ answer, (∀ op, (filter op).eval (read 500000) = .ok (answer op)) ∧
        Operator.Coherent answer ∧ answer .eq = false := by
  intro field read
  have htest : Test.read (1000000 : ℚ) field.filter "2d" =
      .ok (.time (1000000 - (172800 : Int)) true true) := by
    simp only [Test.read, Catalogue.keyed, Test.readTime, field]
    rfl
  have hthreshold : (1000000 - (172800 : Int) : ℚ) = 827200 := by norm_num
  have hkind : field.filter.isNumeric = true := rfl
  have hsign : ∀ c ∈ "2d".toList.head?, c ≠ '+' ∧ c ≠ '-' := by
    intro c hc
    obtain rfl : '2' = c := Option.some.inj hc
    decide
  obtain ⟨t, ht, filter, hfilter, heval⟩ :=
    operators_coherent hkind (v := ⟨"2d", false⟩) hsign htest
  cases ht
  rw [hthreshold] at heval
  refine ⟨filter, fun op => (hfilter op).1, fun op => ?_, ?_⟩
  · obtain ⟨answer, hanswer, hunset, -⟩ := heval (read 0) (.int 0) rfl
    rw [hanswer op, hunset ⟨.inl rfl, Int.cast_zero, by norm_num⟩ op]
  · obtain ⟨answer, hanswer, -, hset⟩ := heval (read 500000) (.int 500000) rfl
    have hamount : (Value.int 500000 : Value ℚ).amount = 500000 := Int.cast_ofNat 500000
    rw [hamount] at hset
    have hcompared : ¬ field.filter.Unset 500000 827200 := fun h => by
      have := h.2.1
      norm_num at this
    obtain ⟨hcoherent, heq⟩ := hset hcompared
    refine ⟨answer, hanswer, hcoherent, Bool.eq_false_iff.2 fun h => ?_⟩
    have := heq.1 h
    norm_num at this

end Filter

end TorrentQuery
