import TorrentQuery.Pattern.Regex.Basic
import TorrentQuery.Pattern.Regex.Reader
import TorrentQuery.Proofs.Text.Lower

namespace TorrentQuery

open Text

namespace Regex

/-- Whether an expression is a character in either case, repeated at least once or not at all. -/
def begins (c : Char) : Regex → Bool
  | .set s => s = .folded (.single c)
  | .times r least _ => 0 < least && r.begins c
  | _ => false

/-- Whether some characters are what the first of the parts stand for. Only the last of them may be
repeated. -/
def spells : List Char → List Regex → Bool
  | [], _ => true
  | [c], p :: _ => p.begins c
  | c :: cs, .set s :: ps => s = .folded (.single c) && spells cs ps
  | _, _ => false

def spellsWithin (cs : List Char) : List Regex → Bool
  | [] => spells cs []
  | p :: ps => spells cs (p :: ps) || spellsWithin cs ps

/-- Whether some characters are a literal part of the expression, outside of its groups. -/
def literal (cs : List Char) : Regex → Bool
  | .seq parts => spellsWithin cs parts
  | r => spellsWithin cs [r]

section Ends

variable {text : Array Char}

theorem advance_nil {step : List Nat → List Nat} (h : step [] = []) (n : Nat) :
    advance step n [] = [] := by
  induction n with
  | zero => rfl
  | succ n ih => rw [advance, h, ih]

theorem reach_nil {step : List Nat → List Nat} (h : step [] = []) (n : Nat) :
    reach step n [] [] = [] := by
  cases n with
  | zero => rfl
  | succ n => simp [reach, h]

mutual

/-- From nowhere nothing is reached. -/
theorem ends_nil (text : Array Char) : (r : Regex) → ends text r [] = []
  | .set _ => rfl
  | .place _ => rfl
  | .seq rs => endsSeq_nil text rs
  | .alt rs => endsAlt_nil text rs
  | .times r _ _ => by
    have hr := ends_nil text r
    rw [ends.eq_def]
    dsimp only
    rw [advance_nil hr]
    exact reach_nil hr _
  | .group r => ends_nil text r

theorem endsSeq_nil (text : Array Char) : (rs : List Regex) → endsSeq text rs [] = []
  | [] => rfl
  | r :: rs => by rw [endsSeq, ends_nil text r, endsSeq_nil text rs]

theorem endsAlt_nil (text : Array Char) : (rs : List Regex) → endsAlt text rs [] = []
  | [] => rfl
  | r :: rs => by
    rw [endsAlt, ends_nil text r, endsAlt_nil text rs]
    rfl

end

/-- What is repeated at least once begins with itself. -/
theorem ends_of_times {r : Regex} {least : Nat} {most : Option Nat} {ps : List Nat}
    (hleast : 0 < least) (h : ends text (.times r least most) ps ≠ []) : ends text r ps ≠ [] := by
  intro hr
  apply h
  obtain ⟨n, hn⟩ : ∃ n, min least (text.size + 1) = n + 1 :=
    Nat.exists_eq_succ_of_ne_zero (by omega)
  have hnil := ends_nil text r
  rw [ends.eq_def]
  dsimp only
  rw [hn, advance, hr, advance_nil hnil]
  exact reach_nil hnil _

end Ends

section Letters

/-- ASCII characters of a common case class are the same letter. -/
theorem toLower_of_mem_folded {c d : Char} (hc : c.val < 128) (hd : d.val < 128)
    (h : (CharSet.folded (.single c)).mem d = true) : d.toLower = c.toLower := by
  obtain ⟨v, hv, hmem⟩ := List.any_eq_true.1 h
  obtain rfl : v = c := by
    simp only [CharSet.single, CharSet.mem, Bool.and_eq_true, decide_eq_true_eq] at hmem
    exact Char.toNat_inj.1 (by omega)
  exact (toLower_of_mem_caseVariants hc hd hv).symm

/-- A row of characters, as parts of an expression, takes a row of the same letters. -/
theorem prefix_of_mem_endsSeq {text run : List Char} {ps : List Nat} {p : Nat}
    (hrun : ∀ c ∈ run, c.val < 128) (htext : ∀ c ∈ text, c.val < 128)
    (h : p ∈ endsSeq text.toArray (run.map (ofChar {})) ps) :
    ∃ q, run.map Char.toLower <+: (text.drop q).map Char.toLower ∧ q ∈ ps := by
  induction run generalizing ps with
  | nil => exact ⟨p, List.nil_prefix, h⟩
  | cons c run ih =>
    obtain ⟨hc, hrun⟩ := List.forall_mem_cons.1 hrun
    obtain ⟨q, hq, hmem⟩ := ih hrun h
    obtain ⟨o, ho, hstep⟩ := List.mem_filterMap.1 hmem
    split at hstep
    · next hset =>
      cases hstep
      obtain ⟨d, hd, hfold⟩ := (Option.any_eq_true _ _).1 hset
      rw [List.getElem?_toArray] at hd
      have hlower := toLower_of_mem_folded hc (htext d (List.mem_of_getElem? hd)) hfold
      refine ⟨o, ?_, ho⟩
      rw [List.drop_eq_getElem?_toList_append, hd]
      simpa [hlower] using hq
    · cases hstep

end Letters

section Literals

variable {text : Array Char} {c : Char} {cs : List Char} {r : Regex} {parts : List Regex}
  {ps : List Nat}

theorem ends_of_begins (hr : r.begins c = true) (h : ends text r ps ≠ []) :
    ends text (ofChar {} c) ps ≠ [] := by
  induction r using begins.induct with
  | case1 s =>
    rw [begins, decide_eq_true_eq] at hr
    rwa [hr] at h
  | case2 r least most ih =>
    rw [begins, Bool.and_eq_true, decide_eq_true_eq] at hr
    exact ih hr.2 (ends_of_times hr.1 h)
  | case3 r hset htimes =>
    unfold begins at hr
    split at hr <;> simp_all

theorem ne_nil_of_endsSeq (h : endsSeq text parts ps ≠ []) : ps ≠ [] := by
  rintro rfl
  exact h (endsSeq_nil text parts)

/-- Where the parts lead somewhere, so does the row of characters that they begin with. -/
theorem endsSeq_of_spells (hcs : spells cs parts = true) (h : endsSeq text parts ps ≠ []) :
    endsSeq text (cs.map (ofChar {})) ps ≠ [] := by
  induction cs, parts using spells.induct generalizing ps with
  | case1 => exact ne_nil_of_endsSeq h
  | case2 c p parts =>
    rw [spells] at hcs
    exact ends_of_begins hcs (ne_nil_of_endsSeq h)
  | case3 c cs s parts hcs' ih =>
    rw [spells, Bool.and_eq_true, decide_eq_true_eq] at hcs
    · obtain ⟨rfl, hrest⟩ := hcs
      exact ih hrest h
    · exact hcs'
  | case4 => simp_all [spells]

theorem endsSeq_of_spellsWithin (hcs : spellsWithin cs parts = true)
    (h : endsSeq text parts ps ≠ []) : ∃ qs, endsSeq text (cs.map (ofChar {})) qs ≠ [] := by
  induction parts generalizing ps with
  | nil => exact ⟨ps, endsSeq_of_spells hcs h⟩
  | cons p parts ih =>
    rw [spellsWithin, Bool.or_eq_true] at hcs
    rcases hcs with hcs | hcs
    · exact ⟨ps, endsSeq_of_spells hcs h⟩
    · exact ih hcs h

/-- A literal part of an expression stands in every text with a match, case aside. -/
theorem infix_of_literal {text : String} (hcs : ∀ c ∈ cs, c.val < 128)
    (htext : ∀ c ∈ text.toList, c.val < 128) (hr : r.literal cs = true)
    (h : r.isMatch text = true) : lower cs <:+: lower text.toList := by
  have hends : ends text.toList.toArray r (List.range (text.toList.length + 1)) ≠ [] := by
    simpa [isMatch] using h
  have hrow : ∃ qs, endsSeq text.toList.toArray (cs.map (ofChar {})) qs ≠ [] := by
    unfold literal at hr
    split at hr
    · exact endsSeq_of_spellsWithin hr hends
    · have hsingle : endsSeq text.toList.toArray [r] (List.range (text.toList.length + 1)) ≠ [] := hends
      exact endsSeq_of_spellsWithin hr hsingle
  obtain ⟨qs, hqs⟩ := hrow
  obtain ⟨p, hp⟩ := List.exists_mem_of_ne_nil _ hqs
  obtain ⟨q, hq, -⟩ := prefix_of_mem_endsSeq hcs htext hp
  rw [lower_of_ascii hcs, lower_of_ascii htext]
  exact hq.isInfix.trans ((List.drop_suffix q _).map _).isInfix

end Literals

end Regex

end TorrentQuery
