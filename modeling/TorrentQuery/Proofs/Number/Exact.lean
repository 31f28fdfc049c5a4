import Mathlib.Data.Rat.Floor
import Mathlib.Algebra.Order.Field.Rat
import Mathlib.Tactic.Linarith
import TorrentQuery.Number.Scalar
import TorrentQuery.Proofs.Number.Integer

namespace TorrentQuery.Number

def Decimal.toRat (d : Decimal) : ℚ :=
  (if d.negative then -1 else 1) * d.digits * (10 : ℚ) ^ d.exponent

def truncate (x : ℚ) : Int := if 0 ≤ x then ⌊x⌋ else ⌈x⌉

instance : Scalar ℚ where
  decLt := inferInstance
  decLe := inferInstance
  ofInt n := n
  finite _ := true
  whole x := x.den == 1
  floor64 x := clamp64 ⌊x⌋
  ceil64 x := clamp64 ⌈x⌉
  trunc64 x := clamp64 (truncate x)
  read? s := (Decimal.read? s.toList).map Decimal.toRat
  render := toString

def Within64 (x : ℚ) : Prop := -(maxInt64 : ℚ) - 1 ≤ x ∧ x ≤ maxInt64

theorem fits64_of_cast {n : Int} (h : Within64 n) : Fits64 n := by
  obtain ⟨hlo, hhi⟩ := h
  constructor
  · exact_mod_cast hlo
  · exact_mod_cast hhi

/-- Less than one away from such a number there are only integers of 64 bits. -/
theorem fits64_of_near {n : Int} {x : ℚ} (h : Within64 x) (hlo : x - 1 < n)
    (hhi : (n : ℚ) < x + 1) :
    Fits64 n := by
  obtain ⟨hmin, hmax⟩ := h
  have hlt : -(maxInt64 : Int) - 1 - 1 < n := by
    rw [← Int.cast_lt (R := ℚ)]
    push_cast
    linarith
  have hgt : n < (maxInt64 : Int) + 1 := by
    rw [← Int.cast_lt (R := ℚ)]
    push_cast
    linarith
  constructor <;> omega

theorem fits64_floor {x : ℚ} (h : Within64 x) : Fits64 ⌊x⌋ :=
  fits64_of_near h (Int.sub_one_lt_floor x) ((Int.floor_le x).trans_lt (lt_add_one x))

theorem fits64_ceil {x : ℚ} (h : Within64 x) : Fits64 ⌈x⌉ :=
  fits64_of_near h ((sub_one_lt x).trans_le (Int.le_ceil x)) (Int.ceil_lt_add_one x)

theorem truncate_eq_self {x : ℚ} (h : x.den = 1) : (truncate x : ℚ) = x := by
  rw [Rat.den_eq_one_iff] at h
  rw [← h]
  simp [truncate]

theorem sub_one_lt_truncate (x : ℚ) : x - 1 < truncate x := by
  unfold truncate
  split
  · exact Int.sub_one_lt_floor x
  · exact (sub_one_lt x).trans_le (Int.le_ceil x)

theorem truncate_lt_add_one (x : ℚ) : (truncate x : ℚ) < x + 1 := by
  unfold truncate
  split
  · exact (Int.floor_le x).trans_lt (lt_add_one x)
  · exact Int.ceil_lt_add_one x

theorem fits64_truncate {x : ℚ} (h : Within64 x) : Fits64 (truncate x) :=
  fits64_of_near h (sub_one_lt_truncate x) (truncate_lt_add_one x)

end TorrentQuery.Number
