import Mathlib.Tactic.Common
import TorrentQuery.Torrent.Activity

namespace TorrentQuery.Activity

open Number

/-- Whole numbers as an arithmetic; nothing is rounded or clamped. -/
local instance integers : Scalar Int where
  decLt := inferInstance
  decLe := inferInstance
  ofInt n := n
  finite _ := true
  whole _ := true
  floor64 n := n
  ceil64 n := n
  trunc64 n := n
  read? := String.toInt?
  render := toString

variable {start total a b c : Option Int} {resumed paused stop cut now : Int}

theorem getD_add : (add start resumed paused total).getD 0 =
    total.getD 0 + max 0 (paused - start.elim resumed (max resumed)) := by
  have hstart : start.elim resumed (Scalar.max resumed) = start.elim resumed (max resumed) := by
    cases start with
    | none => rfl
    | some s =>
      change (if resumed < s then s else resumed) = max resumed s
      split <;> omega
  rw [add, hstart]
  split
  · next hle =>
    have hle : paused ≤ start.elim resumed (max resumed) := hle
    omega
  · next hlt =>
    have hlt : ¬paused ≤ start.elim resumed (max resumed) := hlt
    change total.getD 0 + (paused - start.elim resumed (max resumed)) = _
    omega

theorem min_eq (x y : Int) : Scalar.min x y = min x y := by
  change (if y < x then y else x) = min x y
  split <;> omega

/-- A time of activity is cut in two. -/
theorem add_cut (hcut : cut ≤ now) (h : a.getD 0 + b.getD 0 = c.getD 0) (resumed paused : Int) :
    (add none resumed (Scalar.min paused cut) a).getD 0 +
        (add (some cut) resumed (Scalar.min paused now) b).getD 0 =
      (add none resumed (Scalar.min paused now) c).getD 0 := by
  simp only [getD_add, min_eq, Option.elim_none, Option.elim_some]
  omega

/-- Events are taken in the same pairs whatever the window is. -/
theorem sumFrom_cut (hcut : cut ≤ now) (h : a.getD 0 + b.getD 0 = c.getD 0)
    (events : List (Char × Int)) :
    (sumFrom none cut a events).getD 0 + (sumFrom (some cut) now b events).getD 0 =
      (sumFrom none now c events).getD 0 := by
  fun_induction sumFrom none cut a events generalizing b c with
  | case1 => exact h
  | case2 total kind time hkind =>
    -- what is still going on is cut like what ends now
    simp only [sumFrom, if_pos hkind]
    have hlast := add_cut hcut h time now
    rwa [min_eq, min_eq, Int.min_eq_right hcut, Int.min_self] at hlast
  | case3 total kind time hkind => simpa only [sumFrom, if_neg hkind] using h
  | case4 total kind time next paused r hpair ih =>
    simp only [sumFrom, if_pos hpair]
    exact ih (add_cut hcut h time paused)
  | case5 total kind time next paused r hpair ih =>
    simp only [sumFrom, if_neg hpair]
    exact ih h

theorem one_le_of_mem_add (h : ∀ n ∈ total, 1 ≤ n) :
    ∀ n ∈ add start resumed paused total, 1 ≤ n := by
  unfold add
  dsimp only
  split
  · exact h
  · next hlt =>
    intro n hn
    obtain rfl := Option.some.inj hn
    have hlt : ¬paused ≤ start.elim resumed (Scalar.max resumed) := hlt
    have htotal : 0 ≤ total.getD 0 := by
      cases total with
      | none => exact Int.le_refl 0
      | some n => exact Int.le_trans (by decide) (h n rfl)
    change 1 ≤ total.getD 0 + (paused - start.elim resumed (Scalar.max resumed))
    omega

theorem one_le_of_mem_sumFrom (h : ∀ n ∈ total, 1 ≤ n) (events : List (Char × Int)) :
    ∀ n ∈ sumFrom start stop total events, 1 ≤ n := by
  fun_induction sumFrom start stop total events with
  | case1 => exact h
  | case2 => exact one_le_of_mem_add h
  | case3 => exact h
  | case4 total kind time next paused r hpair ih => exact ih (one_le_of_mem_add h)
  | case5 total kind time next paused r hpair ih => exact ih h

theorem sum_eq (history : String) (start stop : Option Int) (now : Int) :
    sum history start stop now =
      sumFrom (start.filter (· ≠ 0)) ((stop.filter (· ≠ 0)).getD now) none (events history) := by
  have hgiven (x : Option Int) :
      (x.filter fun n => !(n == (Scalar.zero : Int))) = x.filter (· ≠ 0) := by
    cases x with
    | none => rfl
    | some n => simp [Option.filter, Scalar.zero, Scalar.ofInt]
  rw [sum]
  dsimp only
  rw [hgiven, hgiven]
  exact congrFun Option.map_id _

/-- The seconds of activity until some moment and those since then are the seconds of activity
altogether. Where there are any, there is one second at least. -/
theorem sum_until_add_sum_since (history : String) (hzero : 0 < cut) (hcut : cut ≤ now) :
    (sum history none (some cut) now).getD 0 + (sum history (some cut) none now).getD 0 =
      (sum history none none now).getD 0 ∧
    ∀ start stop : Option Int, ∀ n ∈ sum history start stop now, 1 ≤ n := by
  have hsome : (some cut).filter (· ≠ 0) = some cut := by
    rw [Option.filter_some, if_pos (by simpa using Int.ne_of_gt hzero)]
  constructor
  · simp only [sum_eq, hsome, Option.filter_none, Option.getD_none, Option.getD_some]
    exact sumFrom_cut hcut rfl (events history)
  · intro start stop
    rw [sum_eq]
    exact one_le_of_mem_sumFrom (by simp) (events history)

theorem sum_until_add_sum_since_late_pause :
    sum "R100P200R300P450" none (some (150 : Int)) 1000 = some 50 ∧
    sum "R100P200R300P450" (some (150 : Int)) none 1000 = some 200 ∧
    (50 : Int) + 200 = (sum "R100P200R300P450" none none (1000 : Int)).getD 0 := by
  have hleech : sum "R100P200R300P450" none (some (150 : Int)) 1000 = some 50 := by decide +kernel
  have hseed : sum "R100P200R300P450" (some (150 : Int)) none 1000 = some 200 := by decide +kernel
  refine ⟨hleech, hseed, ?_⟩
  have hcut : (sum "R100P200R300P450" none (some (150 : Int)) 1000).getD 0 +
      (sum "R100P200R300P450" (some (150 : Int)) none 1000).getD 0 =
        (sum "R100P200R300P450" none none (1000 : Int)).getD 0 :=
    (sum_until_add_sum_since "R100P200R300P450" (by decide) (by decide)).1
  rwa [hleech, hseed] at hcut

end TorrentQuery.Activity
