import Mathlib.Tactic.Common
import TorrentQuery.Text.Blank

namespace TorrentQuery.Text

variable {s : List Char} {c : Char}

theorem ascii_of_isAlphanum (h : c.isAlphanum = true) : c.val < 128 := by
  rcases Bool.or_eq_true_iff.1 h with h | h
  · rcases Bool.or_eq_true_iff.1 h with h | h
    · have hupper : c.val ≥ 'A'.val ∧ c.val ≤ 'Z'.val := of_decide_eq_true h
      exact UInt32.lt_of_le_of_lt hupper.2 (by decide)
    · have hlower : c.val ≤ 'z'.val := of_decide_eq_true (Bool.and_eq_true_iff.1 h).2
      exact UInt32.lt_of_le_of_lt hlower (by decide)
  · have hdigit : c.val ≤ '9'.val := of_decide_eq_true (Bool.and_eq_true_iff.1 h).2
    exact UInt32.lt_of_le_of_lt hdigit (by decide)

theorem isAlphanum_of_isAlpha (h : c.isAlpha = true) : c.isAlphanum = true := by
  rw [Char.isAlphanum, h, Bool.true_or]

theorem not_isDigit_of_isAlpha (h : c.isAlpha = true) : c.isDigit = false := by
  have hcodes : ∀ n < 128, (Char.ofNat n).isAlpha = true → (Char.ofNat n).isDigit = false := by
    decide
  have hlt : c.toNat < 128 :=
    UInt32.lt_iff_toNat_lt.1 (ascii_of_isAlphanum (isAlphanum_of_isAlpha h))
  simpa using hcodes c.toNat hlt (by simpa using h)

theorem not_isBlank_of_isAlphanum (h : c.isAlphanum = true) : isBlank c = false := by
  have hcodes : ∀ n < 128, (Char.ofNat n).isAlphanum = true → isBlank (Char.ofNat n) = false := by
    decide
  have hlt : c.toNat < 128 := UInt32.lt_iff_toNat_lt.1 (ascii_of_isAlphanum h)
  simpa using hcodes c.toNat hlt (by simpa using h)

theorem not_isBlank_of_isDigit (h : c.isDigit = true) : isBlank c = false :=
  not_isBlank_of_isAlphanum (by rw [Char.isAlphanum, h, Bool.or_true])

theorem trimStart_of_head (h : s.head?.all (!isBlank ·) = true) : trimStart s = s := by
  cases s with
  | nil => rfl
  | cons c r =>
    rw [trimStart, List.dropWhile_cons_of_neg]
    simpa using h

/-- A text that neither starts nor ends with white space. -/
theorem trim_of_ends (hhead : s.head?.all (!isBlank ·) = true)
    (hlast : s.getLast?.all (!isBlank ·) = true) : trim s = s := by
  have hend : trimStart s.reverse = s.reverse := by
    apply trimStart_of_head
    rwa [List.head?_reverse]
  rw [trim, trimStart_of_head hhead, trimEnd]
  change (trimStart s.reverse).reverse = s
  rw [hend, List.reverse_reverse]

theorem prefix_trimEnd (s : List Char) : trimEnd s <+: s := by
  rw [trimEnd, ← List.reverse_suffix, List.reverse_reverse]
  exact List.dropWhile_suffix _

/-- White space is trimmed off what stands behind a text that neither starts nor ends with it. -/
theorem trim_append_of_ends (hhead : s.head?.any (!isBlank ·) = true)
    (hlast : s.getLast?.any (!isBlank ·) = true) (r : List Char) : trim (s ++ r) = s ++ trimEnd r := by
  have hstart : trimStart (s ++ r) = s ++ r := by
    cases s with
    | nil => cases hhead
    | cons c s => exact trimStart_of_head hhead
  have hend : s.reverse.dropWhile isBlank = s.reverse := by
    apply trimStart_of_head
    rw [List.head?_reverse]
    cases hs : s.getLast? with
    | none => rfl
    | some c => simpa [hs] using hlast
  rw [trim, hstart, trimEnd, trimEnd, List.reverse_append, List.dropWhile_append]
  split
  · next hempty =>
    rw [hend, List.isEmpty_iff.1 hempty, List.reverse_reverse, List.reverse_nil, List.append_nil]
  · rw [List.reverse_append, List.reverse_reverse]

theorem trim_of_none (h : ∀ c ∈ s, isBlank c = false) : trim s = s := by
  apply trim_of_ends
  · rw [Option.all_eq_true]
    intro c hc
    simp [h c (List.mem_of_head? hc)]
  · rw [Option.all_eq_true]
    intro c hc
    simp [h c (List.mem_of_getLast? hc)]

theorem trim_cons (h : isBlank c = true) (s : List Char) : trim (c :: s) = trim s := by
  rw [trim, trimStart, List.dropWhile_cons_of_pos h]
  rfl

theorem trim_append (h : isBlank c = true) (s : List Char) : trim (s ++ [c]) = trim s := by
  rw [trim, trim, trimStart, List.dropWhile_append]
  split
  · next hempty =>
    rw [trimStart, List.isEmpty_iff.1 hempty, List.dropWhile_cons_of_pos h]
    rfl
  · rw [trimEnd, List.reverse_append, List.reverse_singleton, List.singleton_append,
      List.dropWhile_cons_of_pos h]
    rfl

end TorrentQuery.Text
