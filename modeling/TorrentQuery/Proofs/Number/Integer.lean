import Mathlib.Tactic.Common
import TorrentQuery.Number.Bounded

namespace TorrentQuery.Number

def Fits64 (n : Int) : Prop := -(maxInt64 : Int) - 1 ≤ n ∧ n ≤ maxInt64

theorem clamp64_of_fits {n : Int} (h : Fits64 n) : clamp64 n = n := by
  obtain ⟨hlo, hhi⟩ := h
  unfold clamp64
  rw [if_neg (by simp only [maxInt64] at hlo; omega), if_neg (by omega)]

theorem wrap64_of_fits {n : Int} (h : Fits64 n) : wrap64 n = n := by
  obtain ⟨hlo, hhi⟩ := h
  simp only [maxInt64] at hlo hhi
  unfold wrap64
  omega

/-- A sum wraps around to the same integer whether or not its parts have done so before. -/
theorem wrap64_wrap64_add (m n : Int) : wrap64 (wrap64 m + n) = wrap64 (m + n) := by
  unfold wrap64
  omega

theorem le_ofDigitChars (s : List Char) (n : Nat) : n ≤ Nat.ofDigitChars 10 s n := by
  rw [Nat.ofDigitChars_eq_ofDigitChars_zero]
  have hpos : 0 < 10 ^ s.length := Nat.pow_pos (by decide)
  exact Nat.le_add_right_of_le (Nat.le_mul_of_pos_left n hpos)

theorem readDigits_of_le {bound n : Nat} {s : List Char} (hs : ∀ c ∈ s, c.isDigit = true)
    (hle : Nat.ofDigitChars 10 s n ≤ bound) :
    readDigits bound n s = .ok (Nat.ofDigitChars 10 s n) := by
  induction s generalizing n with
  | nil => simp [readDigits]
  | cons c r ih =>
    have hc : digitValue? c = some (c.toNat - '0'.toNat) := if_pos (hs c List.mem_cons_self)
    rw [Nat.ofDigitChars_cons] at hle ⊢
    have hstep := Nat.le_trans (le_ofDigitChars r _) hle
    simp only [readDigits, hc, if_pos hstep]
    exact ih (fun d hd => hs d (List.mem_cons_of_mem c hd)) hle

theorem readDigits_toDigits {bound n : Nat} (h : n ≤ bound) :
    readDigits bound 0 (Nat.toDigits 10 n) = .ok n := by
  have hs : ∀ c ∈ Nat.toDigits 10 n, c.isDigit = true :=
    fun c hc => Nat.isDigit_of_mem_toDigits (by decide) (by decide) hc
  rw [readDigits_of_le hs (by rwa [Nat.ofDigitChars_ten_toDigits]), Nat.ofDigitChars_ten_toDigits]

/-- The first character of a written number is a digit, so no sign is read off it. -/
theorem toDigits_eq_cons (n : Nat) : ∃ c r, Nat.toDigits 10 n = c :: r ∧ c.isDigit = true := by
  cases h : Nat.toDigits 10 n with
  | nil => exact absurd h Nat.toDigits_ne_nil
  | cons c r =>
    refine ⟨c, r, rfl, ?_⟩
    exact Nat.isDigit_of_mem_toDigits (b := 10) (n := n) (by decide) (by decide)
      (h ▸ List.mem_cons_self)

theorem readNat_toDigits {bound n : Nat} (h : n ≤ bound) :
    readNat bound (Nat.toDigits 10 n) = .ok n := by
  obtain ⟨c, r, hcr, hc⟩ := toDigits_eq_cons n
  have hread := readDigits_toDigits h
  rw [hcr] at hread ⊢
  have hplus : c ≠ '+' := by
    rintro rfl
    cases hc
  unfold readNat
  split
  · contradiction
  · next heq => exact absurd (List.cons.inj heq).1 hplus
  · next heq => exact absurd (List.cons.inj heq).1 hplus
  · exact hread

theorem readInt_toDigits {bound n : Nat} (h : n ≤ bound) :
    readInt bound (Nat.toDigits 10 n) = .ok n := by
  obtain ⟨c, r, hcr, hc⟩ := toDigits_eq_cons n
  have hread := readNat_toDigits h
  rw [hcr] at hread ⊢
  have hminus : c ≠ '-' := by
    rintro rfl
    cases hc
  unfold readInt
  split
  · next heq => exact absurd (List.cons.inj heq).1 hminus
  · next heq => exact absurd (List.cons.inj heq).1 hminus
  · rw [hread]
    rfl

theorem readInt_neg_toDigits {bound n : Nat} (h : n ≤ bound + 1) :
    readInt bound ('-' :: Nat.toDigits 10 n) = .ok (-n) := by
  obtain ⟨c, r, hcr, hc⟩ := toDigits_eq_cons n
  have hread := readDigits_toDigits h
  rw [hcr] at hread ⊢
  simp only [readInt, hread]

theorem toList_toString_ofNat (n : Nat) : (toString (Int.ofNat n)).toList = Nat.toDigits 10 n :=
  Nat.toList_repr

theorem toList_toString_negSucc (n : Nat) :
    (toString (Int.negSucc n)).toList = '-' :: Nat.toDigits 10 (n + 1) := by
  change ("-" ++ Nat.repr (n + 1)).toList = _
  rw [String.toList_append, Nat.toList_repr]
  rfl

theorem readInt_toString {n : Int} (h : Fits64 n) :
    readInt maxInt64 (toString n).toList = .ok n := by
  obtain ⟨hlo, hhi⟩ := h
  cases n with
  | ofNat n =>
    have hn : n ≤ maxInt64 := by simpa using hhi
    rw [toList_toString_ofNat, readInt_toDigits hn]
    rfl
  | negSucc n =>
    have hn : n + 1 ≤ maxInt64 + 1 := by omega
    rw [toList_toString_negSucc, readInt_neg_toDigits hn]
    rfl

end TorrentQuery.Number
