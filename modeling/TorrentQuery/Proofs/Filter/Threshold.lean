import Mathlib.Tactic.Linarith
import Mathlib.Tactic.NormNum
import TorrentQuery.Filter.Basic
import TorrentQuery.Proofs.Filter.Soundness
import TorrentQuery.Proofs.Number.Exact

namespace TorrentQuery

open Number Text

namespace Operator

variable (op : Operator)

/-- The derived operators agree with a direct comparison. -/
theorem apply_ok (x y : ℚ) :
    op.apply (m := Except QueryError) (.ok (x == y)) (.ok (decide (y < x))) =
      .ok (op.compare x y) := by
  cases op with
  | eq => rfl
  | ne => rfl
  | gt => rfl
  | ge | lt | le =>
    rcases lt_trichotomy x y with h | rfl | h
    · simp [apply, compare, h, h.ne, h.le, h.not_ge, h.not_gt, pure, bind, Except.pure, Except.bind]
    · simp [apply, compare, pure, bind, Except.pure, Except.bind]
    · simp [apply, compare, h, h.ne', h.le, h.not_ge, h.not_gt, pure, bind, Except.pure,
        Except.bind]

theorem compare_div {d s x : ℚ} (hs : 0 < s) : op.compare (d / s) x = op.compare d (x * s) := by
  rw [Bool.eq_iff_iff]
  cases op with
  | eq => simp [compare, div_eq_iff hs.ne']
  | ne => simp [compare, div_eq_iff hs.ne']
  | gt => simp [compare, lt_div_iff₀ hs]
  | ge => simp [compare, le_div_iff₀ hs]
  | lt => simp [compare, div_lt_iff₀ hs]
  | le => simp [compare, div_le_iff₀ hs]

/-- A threshold as it is before it is rounded. -/
def widened (x : ℚ) : ℚ :=
  match op with
  | .ge => x - 1
  | .le => x + 1
  | _ => x

end Operator

namespace Filter

variable {texts : Texts} {key : String}

theorem whole_of_integral? {x : ℚ} (h : (integral? x).isSome = true) : ∃ n : Int, (n : ℚ) = x := by
  unfold integral? at h
  split at h
  · next hw => exact ⟨truncate x, truncate_eq_self (beq_iff_eq.1 hw)⟩
  · cases h

theorem integral?_eq_some {x : ℚ} {n : Int} (h : integral? x = some n) (hx : Within64 x) :
    (n : ℚ) = x := by
  unfold integral? at h
  split at h
  · next hw =>
    cases h
    change ((clamp64 (truncate x) : Int) : ℚ) = x
    rw [clamp64_of_fits (fits64_truncate hx), truncate_eq_self (beq_iff_eq.1 hw)]
  · cases h

/-- A comparison with a bound that the daemon reads as it was written. -/
theorem compareValue_sound {name : String} {r : Int → Int → Bool}
    (hr : Texts.relation? name = some r) {n : Int} (hn : Fits64 n) {exact b : Bool} {d : Int}
    (hd : d = Texts.integer (texts (Texts.keyOf ("value=$" ++ key))))
    (hb : b = true → r d n = true) (hx : exact = true → r d n = b) :
    (PreFilter.mk (.compareValue name key n) exact).Sound texts.answer (.ok b) := by
  subst hd
  constructor
  · intro ht
    cases ht
    exact (Texts.holds_compareValue hr hn).trans (hb rfl)
  · intro he c hc
    cases hc
    exact (Texts.holds_compareValue hr hn).trans (hx he)

/-- Whole thresholds are exact; others are rounded to the side that keeps every match. -/
theorem numberPreFilter_sound {s : ℚ} {op : Operator} {p : PreFilter} (hs : Within64 (op.widened s))
    (hp : numberPreFilter s op key = some p) {d : Int}
    (hd : d = Texts.integer (texts (Texts.keyOf ("value=$" ++ key)))) :
    p.Sound texts.answer (.ok (op.compare (d : ℚ) s)) := by
  have hone : Scalar.ofInt (α := ℚ) 1 = 1 := Int.cast_one
  have hfloor {y : ℚ} (hy : Within64 y) : Scalar.floor64 y = ⌊y⌋ :=
    clamp64_of_fits (fits64_floor hy)
  have hceil {y : ℚ} (hy : Within64 y) : Scalar.ceil64 y = ⌈y⌉ := clamp64_of_fits (fits64_ceil hy)
  have hequal {n : Int} (hn : integral? s = some n) (hw : Within64 s) :
      (PreFilter.mk (.compareValue "equal" key n) true).Sound texts.answer
        (.ok (Operator.eq.compare (d : ℚ) s)) := by
    have hcast := integral?_eq_some hn hw
    have hiff : (d == n) = Operator.eq.compare (d : ℚ) s := by
      rw [← hcast, Bool.eq_iff_iff]
      simp [Operator.compare]
    exact compareValue_sound rfl (fits64_of_cast (hcast ▸ hw)) hd (fun h => hiff.trans h)
      fun _ => hiff
  cases op with
  | eq =>
    obtain ⟨n, hn, rfl⟩ := Option.map_eq_some_iff.1 hp
    simp only [hn, Option.isSome_some]
    exact hequal hn hs
  | ne =>
    obtain ⟨q, hq, hneg⟩ := Option.bind_eq_some_iff.1 hp
    obtain ⟨n, hn, rfl⟩ := Option.map_eq_some_iff.1 hq
    simp only [hn, Option.isSome_some] at hneg
    apply PreFilter.negate_sound (hequal hn hs) hneg
    intro b hb
    cases hb
    simp [Operator.compare]
  | gt =>
    cases hp
    change Within64 s at hs
    simp only [hfloor hs]
    have hiff : decide (⌊s⌋ < d) = Operator.gt.compare (d : ℚ) s := by
      simp [Operator.compare, Int.floor_lt]
    exact compareValue_sound rfl (fits64_floor hs) hd (fun h => hiff.trans h) fun _ => hiff
  | lt =>
    cases hp
    change Within64 s at hs
    simp only [hceil hs]
    have hiff : decide (d < ⌈s⌉) = Operator.lt.compare (d : ℚ) s := by
      simp [Operator.compare, Int.lt_ceil]
    exact compareValue_sound rfl (fits64_ceil hs) hd (fun h => hiff.trans h) fun _ => hiff
  | ge =>
    cases hp
    change Within64 (s - 1) at hs
    simp only [hone, hfloor hs]
    refine compareValue_sound rfl (fits64_floor hs) hd ?_ ?_
    · intro h
      -- rounding `s - 1` down leaves all of `s ≤ d` above the bound
      have hle : s ≤ d := of_decide_eq_true h
      rw [decide_eq_true_iff, Int.floor_lt]
      linarith
    · intro hx
      -- between whole numbers, at least is more than one less
      obtain ⟨n, rfl⟩ := whole_of_integral? hx
      rw [Bool.eq_iff_iff, decide_eq_true_iff, Int.floor_lt, sub_lt_iff_lt_add]
      simp only [Operator.compare, decide_eq_true_eq]
      norm_cast
      exact Int.lt_add_one_iff
  | le =>
    cases hp
    change Within64 (s + 1) at hs
    simp only [hone, hceil hs]
    refine compareValue_sound rfl (fits64_ceil hs) hd ?_ ?_
    · intro h
      have hle : (d : ℚ) ≤ s := of_decide_eq_true h
      rw [decide_eq_true_iff, Int.lt_ceil]
      linarith
    · intro hx
      obtain ⟨n, rfl⟩ := whole_of_integral? hx
      rw [Bool.eq_iff_iff, decide_eq_true_iff, Int.lt_ceil]
      simp only [Operator.compare, decide_eq_true_eq]
      norm_cast
      exact Int.lt_add_one_iff

theorem compare_sound {name : String} {r : Int → Int → Bool} (hr : Texts.relation? name = some r)
    {n : Int} (hn : Fits64 n) {b : Bool}
    (hb : r (Texts.integer (texts (Texts.keyOf key))) n = true ↔ b = true) :
    (PreFilter.ofExact (.compare name key n)).Sound texts.answer (.ok b) := by
  apply PreFilter.ofExact_sound
  intro c hc
  cases hc
  exact (Texts.holds_compare hr hn).trans (Bool.eq_iff_iff.2 hb)

/-- Sizes are whole, so every condition on one is exact. -/
theorem sizePreFilter_sound {bytes : Nat} {op : Operator} {p : PreFilter}
    (hp : sizePreFilter bytes op key = some p) {d : Int}
    (hd : d = Texts.integer (texts (Texts.keyOf key))) :
    p.Sound texts.answer (.ok (op.compare (d : ℚ) ((bytes : Int) : ℚ))) := by
  unfold sizePreFilter at hp
  split at hp
  · cases hp
  have hfits : Fits64 bytes := by
    constructor <;> omega
  have hequal : (PreFilter.ofExact (.compare "equal" key bytes)).Sound texts.answer
      (.ok (Operator.eq.compare (d : ℚ) ((bytes : Int) : ℚ))) := by
    apply compare_sound rfl hfits
    simp only [Operator.compare, beq_iff_eq, ← hd]
    exact Int.cast_inj.symm
  cases op with
  | eq =>
    cases hp
    exact hequal
  | ne =>
    apply PreFilter.negate_sound hequal hp
    intro b hb
    cases hb
    simp [Operator.compare]
  | gt | lt =>
    cases hp
    apply compare_sound rfl hfits
    simp only [Operator.compare, decide_eq_true_eq, ← hd]
    exact Int.cast_lt.symm
  | ge =>
    cases hp
    apply compare_sound rfl (by constructor <;> omega)
    simp only [Operator.compare, decide_eq_true_eq, ← hd]
    exact Int.sub_one_lt_iff.trans Int.cast_le.symm
  | le =>
    simp only at hp
    split at hp
    · cases hp
    cases hp
    apply compare_sound rfl (by constructor <;> omega)
    simp only [Operator.compare, decide_eq_true_eq, ← hd]
    exact Int.lt_add_one_iff.trans Int.cast_le.symm

/-- The slack makes up for the fraction that is cut off a threshold. -/
theorem timePreFilter_sound {x : ℚ} {op : Operator} {p : PreFilter}
    (hlo : Within64 (x - timeSlack)) (hhi : Within64 (x + timeSlack))
    (hp : timePreFilter x op key = some p) {d : Int}
    (hd : d = Texts.integer (texts (Texts.keyOf ("value=$" ++ key)))) {b : Bool}
    (hb : b = true → op.compare (d : ℚ) x = true) : p.Sound texts.answer (.ok b) := by
  have hslack : (timeSlack : ℚ) = 86400 := by norm_num [timeSlack]
  have hx : Within64 x := by
    obtain ⟨hlo, -⟩ := hlo
    obtain ⟨-, hhi⟩ := hhi
    constructor <;> linarith
  have htrunc : Scalar.trunc64 x = truncate x := clamp64_of_fits (fits64_truncate hx)
  -- cutting off moves the threshold by less than a second, the slack by a day
  have hbelow := sub_one_lt_truncate x
  have habove := truncate_lt_add_one x
  unfold timePreFilter at hp
  simp only [htrunc] at hp
  split at hp
  · cases hp
  have hgreater (hle : b = true → x ≤ d) :
      (PreFilter.ofSuperset (.compareValue "greater" key (wrap64 (truncate x - timeSlack)))).Sound
        texts.answer (.ok b) := by
    have hfits : Fits64 (truncate x - timeSlack) := by
      apply fits64_of_near hlo
      · push_cast
        linarith
      · push_cast
        linarith
    rw [wrap64_of_fits hfits]
    refine compareValue_sound rfl hfits hd (fun h => ?_) fun h => (nomatch h)
    have hd := hle h
    rw [decide_eq_true_iff, ← Int.cast_lt (R := ℚ)]
    push_cast
    linarith
  have hless (hle : b = true → d ≤ x) :
      (PreFilter.ofSuperset (.compareValue "less" key (wrap64 (truncate x + timeSlack)))).Sound
        texts.answer (.ok b) := by
    have hfits : Fits64 (truncate x + timeSlack) := by
      apply fits64_of_near hhi
      · push_cast
        linarith
      · push_cast
        linarith
    rw [wrap64_of_fits hfits]
    refine compareValue_sound rfl hfits hd (fun h => ?_) fun h => (nomatch h)
    have hd := hle h
    rw [decide_eq_true_iff, ← Int.cast_lt (R := ℚ)]
    push_cast
    linarith
  cases op with
  | gt =>
    cases hp
    exact hgreater fun h => (of_decide_eq_true (hb h)).le
  | ge =>
    cases hp
    exact hgreater fun h => of_decide_eq_true (hb h)
  | lt =>
    cases hp
    exact hless fun h => (of_decide_eq_true (hb h)).le
  | le =>
    cases hp
    exact hless fun h => of_decide_eq_true (hb h)
  | eq => cases hp
  | ne => cases hp

end Filter

end TorrentQuery
