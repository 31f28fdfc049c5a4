import Mathlib.Data.Int.Order.Basic
import Mathlib.Data.List.Lex
import Mathlib.Logic.Function.Iterate
import Mathlib.Tactic.Common
import TorrentQuery.Filter.Moment

namespace TorrentQuery.Date

/-- A day of some month, in any year. -/
def Real (d : Date) : Prop :=
  1 ≤ d.month ∧ d.month ≤ 12 ∧ 1 ≤ d.day ∧ d.day ≤ daysInMonth d.year d.month

def next (d : Date) : Date :=
  if d.day < daysInMonth d.year d.month then ⟨d.year, d.month, d.day + 1⟩
  else if d.month < 12 then ⟨d.year, d.month + 1, 1⟩
  else ⟨d.year + 1, 1, 1⟩

def epoch : Date := ⟨1970, 1, 1⟩

/-- One day comes some days after another, or, if there are fewer than none, before it. -/
def Apart (a b : Date) (days : Int) : Prop := next^[days.toNat] a = next^[(-days).toNat] b

def fields (d : Date) : List Int := [d.year, d.month, d.day]

section Lengths

variable (year : Int) {month other : Nat}

theorem daysInMonth_bounds (month : Nat) :
    28 ≤ daysInMonth year month ∧ daysInMonth year month ≤ 31 := by
  unfold daysInMonth
  split
  · split <;> omega
  all_goals omega

theorem daysBeforeMonth_succ (h : 1 ≤ month) :
    daysBeforeMonth year (month + 1) = daysBeforeMonth year month + daysInMonth year month := by
  obtain ⟨m, rfl⟩ : ∃ m, month = m + 1 := ⟨month - 1, by omega⟩
  rw [daysBeforeMonth, daysBeforeMonth, Nat.add_sub_cancel, Nat.add_sub_cancel, List.range_succ,
    List.map_append, List.foldl_append]
  rfl

theorem daysBeforeMonth_le (hpos : 1 ≤ month) (h : month ≤ other) :
    daysBeforeMonth year month ≤ daysBeforeMonth year other := by
  induction other, h using Nat.le_induction with
  | base => exact Nat.le_refl _
  | succ m hm ih =>
    have hsucc := daysBeforeMonth_succ year (Nat.le_trans hpos hm)
    omega

theorem daysBeforeYear_succ :
    daysBeforeYear (year + 1) = daysBeforeYear year + daysBeforeMonth year 13 := by
  have hmonths : daysBeforeMonth year 13 = 337 + daysInMonth year 2 := by
    change 0 + 31 + daysInMonth year 2 + 31 + 30 + 31 + 30 + 31 + 31 + 30 + 31 + 30 + 31 = _
    omega
  have hleap : (daysInMonth year 2 : Int) = if isLeap year then 29 else 28 := by
    rw [daysInMonth]
    split <;> rfl
  rw [hmonths, Int.natCast_add, hleap, daysBeforeYear, daysBeforeYear]
  -- a year more passes a multiple of four, of a hundred or of four hundred just when it is one
  by_cases h : isLeap year = true
  · rw [if_pos h]
    rw [isLeap] at h
    simp at h
    omega
  · rw [if_neg h]
    rw [isLeap] at h
    simp at h
    omega

theorem daysBeforeYear_le {year other : Int} (h : year ≤ other) :
    daysBeforeYear year ≤ daysBeforeYear other := by
  simp only [daysBeforeYear]
  omega

end Lengths

section Numbers

variable {a b d : Date}

theorem next_real (h : d.Real) : d.next.Real := by
  obtain ⟨hmonth, hlast, hday, hend⟩ := h
  rw [next]
  split
  · next hlt => exact ⟨hmonth, hlast, Nat.le_add_left _ _, hlt⟩
  · split
    · next hlt =>
      have hbounds := daysInMonth_bounds d.year (d.month + 1)
      refine ⟨Nat.le_add_left _ _, hlt, Nat.le_refl _, ?_⟩
      change 1 ≤ daysInMonth d.year (d.month + 1)
      omega
    · have hbounds := daysInMonth_bounds (d.year + 1) 1
      refine ⟨Nat.le_refl _, Nat.le_add_left _ _, Nat.le_refl _, ?_⟩
      change 1 ≤ daysInMonth (d.year + 1) 1
      omega

/-- The day that follows has the number that follows. -/
theorem dayNumber_next (h : d.Real) : d.next.dayNumber = d.dayNumber + 1 := by
  obtain ⟨hmonth, hlast, hday, hend⟩ := h
  rw [next]
  split
  · next hlt =>
    simp only [dayNumber]
    omega
  · have hfull : d.day = daysInMonth d.year d.month := by omega
    have hsucc := daysBeforeMonth_succ d.year hmonth
    split
    · next hlt =>
      simp only [dayNumber]
      omega
    · next hlt =>
      have hdecember : d.month = 12 := by omega
      rw [hdecember] at hfull hsucc
      have hyear := daysBeforeYear_succ d.year
      rw [show 13 = 12 + 1 from rfl, hsucc] at hyear
      have hfirst : daysBeforeMonth (d.year + 1) 1 = 0 := rfl
      simp only [dayNumber, hdecember, hfirst]
      omega

theorem iterate_next (h : d.Real) (n : Nat) :
    (next^[n] d).Real ∧ (next^[n] d).dayNumber = d.dayNumber + n := by
  induction n with
  | zero => exact ⟨h, by simp⟩
  | succ n ih =>
    rw [Function.iterate_succ_apply']
    refine ⟨next_real ih.1, ?_⟩
    rw [dayNumber_next ih.1, ih.2]
    omega

/-- Days of a year up to some day of it. -/
theorem daysBeforeMonth_add_day_le (h : d.Real) :
    daysBeforeMonth d.year d.month + d.day ≤ daysBeforeMonth d.year 13 := by
  obtain ⟨hmonth, hlast, hday, hend⟩ := h
  have hsucc := daysBeforeMonth_succ d.year hmonth
  have hwithin : d.month + 1 ≤ 13 := by omega
  have hyear := daysBeforeMonth_le d.year (Nat.le_add_left 1 _) hwithin
  omega

/-- A later day has the greater number. -/
theorem dayNumber_lt (ha : a.Real) (hb : b.Real) (h : a.fields < b.fields) :
    a.dayNumber < b.dayNumber := by
  simp only [fields, List.cons_lt_cons_iff, List.not_lt_nil, and_false, or_false] at h
  rcases h with hyear | ⟨hyear, hmonth | ⟨hmonth, hday⟩⟩
  · have hsucc := daysBeforeYear_succ a.year
    have hlater : a.year + 1 ≤ b.year := by omega
    have hle := daysBeforeYear_le hlater
    have hend := daysBeforeMonth_add_day_le ha
    have hpos := hb.2.2.1
    simp only [dayNumber]
    omega
  · have hsucc := daysBeforeMonth_succ a.year ha.1
    have hlater : a.month + 1 ≤ b.month := by omega
    have hle := daysBeforeMonth_le a.year (Nat.le_add_left 1 _) hlater
    have hend := ha.2.2.2
    have hpos := hb.2.2.1
    simp only [dayNumber, ← hyear]
    omega
  · have hsame : a.month = b.month := by omega
    simp only [dayNumber, ← hyear, ← hsame]
    omega

theorem fields_inj : a.fields = b.fields ↔ a = b := by
  constructor
  · intro h
    cases a
    cases b
    simp only [fields, List.cons.injEq, Int.natCast_inj, and_true] at h
    rw [h.1, h.2.1, h.2.2]
  · intro h
    rw [h]

theorem eq_of_dayNumber_eq (ha : a.Real) (hb : b.Real) (h : a.dayNumber = b.dayNumber) : a = b := by
  rw [← fields_inj]
  rcases lt_trichotomy a.fields b.fields with hlt | heq | hgt
  · have := dayNumber_lt ha hb hlt
    omega
  · exact heq
  · have := dayNumber_lt hb ha hgt
    omega

/-- Numbers count the days between days. -/
theorem apart_iff (ha : a.Real) (hb : b.Real) {days : Int} :
    Apart a b days ↔ days = b.dayNumber - a.dayNumber := by
  obtain ⟨hra, hna⟩ := iterate_next ha days.toNat
  obtain ⟨hrb, hnb⟩ := iterate_next hb (-days).toNat
  constructor
  · intro h
    rw [Apart] at h
    rw [h, hnb] at hna
    omega
  · intro h
    apply eq_of_dayNumber_eq hra hrb
    omega

end Numbers

end TorrentQuery.Date
