import TorrentQuery.Proofs.Daemon.Meaning
import TorrentQuery.Proofs.Filter.Leaf
import TorrentQuery.Proofs.Pattern.GlobNeedle
import TorrentQuery.Proofs.Pattern.Literal
import TorrentQuery.Proofs.Pattern.Scan
import TorrentQuery.Proofs.Text.Blank

namespace TorrentQuery

open Text

namespace Needle

open Regex

section Runs

variable {lib : Library} {n run run' s t u p : List Char}

/-- From a run and the text behind it the scan gets on to `run'` and `t`. The only run that it ends on
the way, but for empty ones, is `p`. -/
def Scans (run s p run' t : List Char) : Prop :=
  ∀ runs, regexRuns? run s = some runs →
    ∃ later, regexRuns? run' t = some later ∧ ∀ w ∈ runs, w = p ∨ w = [] ∨ w ∈ later

theorem Scans.of_eq (h : regexRuns? run s = (regexRuns? [] t).map (p :: ·)) : Scans run s p [] t := by
  intro runs hruns
  obtain ⟨later, hlater, rfl⟩ := Option.map_eq_some_iff.1 (h.symm.trans hruns)
  refine ⟨later, hlater, fun w hw => ?_⟩
  exact (List.mem_cons.1 hw).imp_right .inr

theorem Scans.refl (s : List Char) : Scans [] s p [] s :=
  fun runs hruns => ⟨runs, hruns, fun _ hw => .inr (.inr hw)⟩

theorem Scans.trans (h : Scans run s p [] t) (h' : Scans [] t [] run' u) : Scans run s p run' u := by
  intro runs hruns
  obtain ⟨later, hlater, hmem⟩ := h runs hruns
  obtain ⟨last, hlast, hmem'⟩ := h' later hlater
  refine ⟨last, hlast, fun w hw => ?_⟩
  rcases hmem w hw with hw | hw | hw
  · exact .inl hw
  · exact .inr (.inl hw)
  · rcases hmem' w hw with hw | hw | hw
    · exact .inr (.inl hw)
    · exact .inr (.inl hw)
    · exact .inr (.inr hw)

theorem scans_escape (run : List Char) (c : Char) (r : List Char) :
    Scans run ('\\' :: c :: r) run [] r := .of_eq (by rw [regexRuns?])

theorem scans_set {r : List Char} (h : afterSet r = some t) : Scans run ('[' :: r) run [] t := by
  apply Scans.of_eq
  rw [regexRuns?]
  split
  · next hnone =>
    rw [h] at hnone
    cases hnone
  · next rest hrest =>
    obtain rfl : t = rest := Option.some.inj (h.symm.trans hrest)
    rfl

theorem scans_group {r : List Char} (h : afterGroup 1 r = some t) :
    Scans run ('(' :: r) run [] t := by
  intro runs hruns
  rw [regexRuns?] at hruns
  split at hruns
  · cases hruns
  · split at hruns
    · next hnone =>
      rw [h] at hnone
      cases hnone
    · next rest hrest =>
      obtain rfl : t = rest := Option.some.inj (h.symm.trans hrest)
      obtain ⟨later, hlater, rfl⟩ := Option.map_eq_some_iff.1 hruns
      exact ⟨later, hlater, fun w hw => (List.mem_cons.1 hw).imp_right .inr⟩

theorem scans_braces {r : List Char} (h : r.dropWhile (· != '\x7d') = '\x7d' :: t) :
    Scans run ('\x7b' :: r) run.dropLast [] t := by
  apply Scans.of_eq
  rw [regexRuns?]
  split
  · next hnone =>
    rw [h] at hnone
    cases hnone
  · next c rest hrest =>
    obtain rfl : t = rest := (List.cons.inj (h.symm.trans hrest)).2
    rfl

/-- Marks of a repetition that may be empty. -/
theorem scans_optional {c : Char} (hc : c = '?' ∨ c = '*') (r : List Char) :
    Scans run (c :: r) run.dropLast [] r := by
  apply Scans.of_eq
  rcases hc with rfl | rfl <;> rw [regexRuns?] <;> simp

theorem scans_reluctant (r : List Char) : Scans [] r [] [] (skipReluctant r) := by
  unfold skipReluctant
  split
  · exact scans_optional (.inl rfl) _
  · exact .refl _

/-- Characters that the scan ends a run at, as it does not know them. -/
theorem scans_other {c : Char} (hrun : isRunChar c = false)
    (hc : c ∉ ['\\', '[', '(', '\x7b', '?', '*']) (r : List Char) : Scans run (c :: r) run [] r := by
  intro runs hruns
  suffices hscan : regexRuns? run (c :: r) = (regexRuns? [] r).map (run :: ·) from
    Scans.of_eq hscan runs hruns
  simp only [List.mem_cons, List.not_mem_nil, or_false, not_or] at hc
  obtain ⟨hescape, hset, hopen, hbrace, hone, hstar⟩ := hc
  have hstep : regexRuns? run (c :: r) =
      if c == '|' || c == ')' || c == ']' || c == '\x7d' then none
      else (regexRuns? [] r).map (run :: ·) := by
    rw [regexRuns?] <;> simp_all
  rw [hstep] at hruns ⊢
  split
  · next hno =>
    rw [if_pos hno] at hruns
    cases hruns
  · rfl

theorem ascii_of_isRunChar {c : Char} (h : isRunChar c = true) : c.val < 128 := by
  rw [isRunChar, Bool.or_eq_true, Bool.or_eq_true, beq_iff_eq, beq_iff_eq] at h
  rcases h with (h | rfl) | rfl
  · exact ascii_of_isAlphanum h
  · decide
  · decide

theorem regexRuns?_alternative (r : List Char) : regexRuns? run ('|' :: r) = none := by
  rw [regexRuns?] <;> simp

theorem regexRuns?_cons {c : Char} (hc : isRunChar c = true) (r : List Char) :
    regexRuns? run (c :: r) = regexRuns? (run ++ [c]) r := by
  have hne : ∀ d ∈ ['\\', '[', '(', '\x7b', '?', '*', '|', ')', ']', '\x7d'], c ≠ d := by
    rintro d hd rfl
    simp only [List.mem_cons, List.not_mem_nil, or_false] at hd
    rcases hd with rfl | rfl | rfl | rfl | rfl | rfl | rfl | rfl | rfl | rfl <;>
      exact absurd hc (by decide)
  simp only [List.forall_mem_cons, List.not_mem_nil] at hne
  rw [regexRuns?] <;> simp [hne, hc]

theorem scans_braced {r : List Char} (h : Braced r t) : Scans [] r [] [] t := by
  rcases h with rfl | ⟨u, rfl, hu⟩
  · exact .refl _
  · exact scans_braces hu

/-- The scan makes up no characters, and only ASCII ones get into a run. -/
theorem ascii_of_mem_regexRuns? {runs : List (List Char)} (h : regexRuns? run s = some runs)
    (hrun : ∀ c ∈ run, c.val < 128) : ∀ w ∈ runs, ∀ c ∈ w, c.val < 128 := by
  have hdrop {run : List Char} (hrun : ∀ c ∈ run, c.val < 128) : ∀ c ∈ run.dropLast, c.val < 128 :=
    fun c hc => hrun c (List.dropLast_subset run hc)
  have hmore {first : List Char} {later : Option (List (List Char))} {runs : List (List Char)}
      (hfirst : ∀ c ∈ first, c.val < 128)
      (hlater : ∀ {ws}, later = some ws → ∀ w ∈ ws, ∀ c ∈ w, c.val < 128)
      (h : later.map (first :: ·) = some runs) : ∀ w ∈ runs, ∀ c ∈ w, c.val < 128 := by
    obtain ⟨ws, hws, rfl⟩ := Option.map_eq_some_iff.1 h
    exact List.forall_mem_cons.2 ⟨hfirst, hlater hws⟩
  have hnil : ∀ c ∈ ([] : List Char), c.val < 128 := by simp
  fun_induction regexRuns? run s generalizing runs with
  | case1 run =>
    cases h
    simpa using hrun
  | case2 run =>
    cases h
    simpa using hrun
  | case3 run c r ih => exact hmore hrun (fun h => ih h hnil) h
  | case4 => cases h
  | case5 run r rest _ _ ih => exact hmore hrun (fun h => ih h hnil) h
  | case6 => cases h
  | case7 => cases h
  | case8 run r _ rest _ _ ih => exact hmore hrun (fun h => ih h hnil) h
  | case9 => cases h
  | case10 run r c rest _ _ ih => exact hmore (hdrop hrun) (fun h => ih h hnil) h
  | case11 run c r _ _ _ _ _ _ ih => exact hmore (hdrop hrun) (fun h => ih h hnil) h
  | case12 => cases h
  | case13 run c r _ _ _ _ _ _ _ hc ih =>
    refine ih h fun d hd => ?_
    rcases List.mem_append.1 hd with hd | hd
    · exact hrun d hd
    · exact List.mem_singleton.1 hd ▸ ascii_of_isRunChar hc
  | case14 run c r _ _ _ _ _ _ _ _ ih => exact hmore hrun (fun h => ih h hnil) h

theorem regexRuns?_append {a : List Char} (ha : ∀ c ∈ a, isRunChar c = true) (run s : List Char) :
    regexRuns? run (a ++ s) = regexRuns? (run ++ a) s := by
  induction a generalizing run with
  | nil => simp
  | cons c a ih =>
    obtain ⟨hc, ha⟩ := List.forall_mem_cons.1 ha
    rw [List.cons_append, regexRuns?_cons hc, ih ha, List.append_assoc, List.singleton_append]

theorem runFrom_append {a : List Char} (ha : ∀ c ∈ a, isRunChar c = true) (run s : List Char) :
    runFrom run (a ++ s) = runFrom (run ++ a) s := by
  rw [runFrom, runFrom, List.takeWhile_append_of_pos ha, List.dropWhile_append_of_pos ha,
    List.append_assoc]

/-- The scan ends a run, less its last character where that is made optional. -/
theorem runFrom_of_head (h : s.head?.all (!isRunChar ·) = true) :
    runFrom run s = if loosensNext s then run.dropLast else run := by
  cases s with
  | nil => simp [runFrom, loosensNext]
  | cons c r =>
    have hc : isRunChar c = false := by simpa using h
    rw [runFrom, List.takeWhile_cons_of_neg (by simp [hc]), List.dropWhile_cons_of_neg (by simp [hc]),
      List.append_nil]

theorem runFrom_of_break {c : Char} (hrun : isRunChar c = false) (hc : c ∉ ['?', '*', '\x7b'])
    (r : List Char) : runFrom run (c :: r) = run := by
  rw [runFrom_of_head (by simpa using hrun), if_neg]
  simpa [loosensNext] using hc

/-- A part that is read is the next character of the run, or the scan ends the run and gets behind
that part too. Behind the bare name of an escape it has begun another run, which is not the needle. -/
theorem scans_readPart (run : List Char) {part : Regex} (h : readPart lib {} s = some (part, t))
    (hs : ∀ c ∈ ['[', '(', '\x7b', '?', '*', ')', '+'], s.head? ≠ some c)
    (htame : tame n 0 s = true) : tame n 0 t = true ∧
      ((∃ c, isRunChar c = true ∧ s = c :: t ∧ part = ofChar {} c) ∨
        runFrom run s = run ∧
          ∃ run', Scans run s run run' t ∧ (run' = [] ∨ runFrom run' t ≠ n)) := by
  have hone {c : Char} {r : List Char} (heq : s = c :: r) (hc : c ≠ '\\') :
      tame n 0 r = true ∧ (isRunChar c = false → runFrom run s = run ∧ Scans run s run [] r) := by
    subst heq
    have hc' : ∀ d ∈ ['[', '(', '\x7b', '?', '*', ')', '+'], c ≠ d := by simpa using hs
    simp only [List.forall_mem_cons, List.not_mem_nil] at hc'
    rw [tame_cons (isQuiet_of_not_mem (by simp [hc, hc']))] at htame
    refine ⟨htame, fun hrun => ⟨runFrom_of_break hrun (by simp [hc']) r, ?_⟩⟩
    exact scans_other hrun (by simp [hc, hc']) r
  have hbreak {c : Char} {r : List Char} (heq : s = c :: r) (hc : c ≠ '\\') (hrun : isRunChar c = false) :
      tame n 0 r = true ∧ runFrom run s = run ∧
        ∃ run', Scans run s run run' r ∧ (run' = [] ∨ runFrom run' r ≠ n) := by
    obtain ⟨hr, hscan⟩ := hone heq hc
    exact ⟨hr, (hscan hrun).1, [], (hscan hrun).2, .inl rfl⟩
  unfold readPart at h
  split at h
  · cases h
  · obtain ⟨⟨e, u⟩, he, h⟩ := Option.bind_eq_some_iff.1 h
    obtain ⟨part, -, h⟩ := Option.bind_eq_some_iff.1 h
    cases h
    obtain ⟨c, r, rfl, hpast⟩ := readEscape_past rfl he
    obtain ⟨hname, hbare, hr⟩ := escape_of_tame htame
    obtain ⟨hplain, hrest⟩ := hpast hname
    rw [tame_past (hplain.mono isQuiet_of_isPlain)] at hr
    refine ⟨hr, .inr ⟨runFrom_of_break rfl (by decide) _, ?_⟩⟩
    rcases hrest with hbraced | ⟨hbare', a, rfl, ha⟩
    · exact ⟨[], (scans_escape run c r).trans (scans_braced hbraced), .inl rfl⟩
    · refine ⟨a, ?_, .inr ?_⟩
      · refine (scans_escape run c _).trans fun runs hruns => ?_
        rw [regexRuns?_append ha] at hruns
        exact ⟨runs, hruns, fun w hw => .inr (.inr hw)⟩
      · simpa [hbare', runFrom_append ha] using hbare
  · obtain ⟨part, -, heq⟩ := Option.map_eq_some_iff.1 h
    cases heq
    exact (hbreak rfl (by decide) rfl).imp_right .inr
  · cases h
    exact (hbreak rfl (by decide) rfl).imp_right .inr
  · cases h
    exact (hbreak rfl (by decide) rfl).imp_right .inr
  · next c r hc _ _ _ =>
    cases h
    cases hrun : isRunChar c with
    | true => exact ⟨(hone rfl hc).1, .inl ⟨c, hrun, rfl, rfl⟩⟩
    | false => exact (hbreak rfl hc hrun).imp_right .inr

end Runs

section Flags

def fewFlags (r : List Char) : Bool := !(inlineFlags? r).any (·.any (· != 'i'))

theorem fewFlags_of_regexRuns? {run r : List Char} {runs : List (List Char)}
    (h : regexRuns? run ('(' :: r) = some runs) : fewFlags r = true := by
  rw [regexRuns?] at h
  split at h
  · cases h
  · next hflags => simpa [fewFlags] using hflags

theorem setAll?_default {seen s : List Char} {f : Flags} (hs : ∀ c ∈ s, c = 'i')
    (h : Flags.setAll? true {} seen s = some f) : f = {} := by
  induction s generalizing seen with
  | nil =>
    rw [Flags.setAll?] at h
    split at h <;> cases h
    rfl
  | cons c r ih =>
    obtain ⟨rfl, hr⟩ := List.forall_mem_cons.1 hs
    rw [Flags.setAll?] at h
    split at h
    · cases h
    · exact ih hr h

/-- Flags that are read up to a closing parenthesis are those that the scan looks at. -/
theorem inlineFlags?_eq {f g : Flags} {flags r : List Char} (hne : flags ≠ [])
    (h : Flags.setAll? true f [] flags = some g) :
    inlineFlags? ('?' :: (flags ++ ')' :: r)) = some flags := by
  have hflags : ∀ c ∈ flags, (c.isAlpha || c == '-') = true :=
    forall_of_setAll? (by decide) (fun f on c g hset => by rw [isAlpha_of_set? hset]; rfl) h
  have htake : (flags ++ ')' :: r).takeWhile (fun c => c.isAlpha || c == '-') = flags := by
    rw [List.takeWhile_append_of_pos hflags, List.takeWhile_cons_of_neg (by decide), List.append_nil]
  have hdrop : (flags ++ ')' :: r).dropWhile (fun c => c.isAlpha || c == '-') = ')' :: r := by
    rw [List.dropWhile_append_of_pos hflags]
    exact List.dropWhile_cons_of_neg (by decide)
  simpa [inlineFlags?, htake, hdrop] using hne

/-- The only change of flags that the scan goes along with is none. -/
theorem directive_default {names : List String} {s rest : List Char} {f : Flags}
    (hs : fewFlags s = true) (h : readOpening {} names s = some (.directive f, rest)) : f = {} := by
  have hname {t : List Char} (h : readName {} names t = some (.directive f, rest)) : f = {} := by
    rw [readName] at h
    split at h
    · cases h
    · split at h <;> cases h
  rw [readOpening, skip_eq rfl] at h
  split at h
  · exact hname h
  · cases h
  · cases h
  · exact hname h
  · next r _ _ _ _ =>
    have hr := (List.takeWhile_append_dropWhile (p := fun c => c != ':' && c != ')') (l := r)).symm
    extract_lets flags at h
    split at h
    · obtain ⟨inner, -, heq⟩ := Option.map_eq_some_iff.1 h
      cases heq
    · next rest' hrest =>
      split at h
      · cases h
      · next hne =>
        obtain ⟨inner, hinner, heq⟩ := Option.map_eq_some_iff.1 h
        cases heq
        rw [hrest] at hr
        have hflags : flags ≠ [] := by simpa using hne
        rw [hr, fewFlags, inlineFlags?_eq hflags hinner] at hs
        exact setAll?_default (by simpa using hs) hinner
    · cases h
  · cases h

end Flags

section Parts

variable {all : List Regex} {n run run' s t : List Char} {p : Option Regex}
  {parts : List (Option Regex)}

/-- The expressions of parts that have been read, last part first. -/
def expressions (parts : List (Option Regex)) : List Regex := parts.reverse.filterMap id

theorem expressions_cons_some (r : Regex) (parts : List (Option Regex)) :
    expressions (some r :: parts) = expressions parts ++ [r] := by
  simp [expressions]

theorem expressions_cons_none (parts : List (Option Regex)) :
    expressions (none :: parts) = expressions parts := by
  simp [expressions]

theorem expressions_tail_initial (parts : List (Option Regex)) :
    expressions parts.tail <+: expressions parts := by
  cases parts with
  | nil => exact List.prefix_rfl
  | cons p parts =>
    cases p with
    | none =>
      rw [expressions_cons_none]
      exact List.prefix_rfl
    | some r =>
      rw [expressions_cons_some]
      exact List.prefix_append _ _

/-- The parts that have been read begin a sequence; the last of them may be repeated there, but not
left out. -/
def Kept (all : List Regex) : List (Option Regex) → Prop
  | some p :: older => ∃ p', (∀ c, p.begins c = true → p'.begins c = true) ∧
      expressions (some p' :: older) <+: all
  | parts => expressions parts <+: all

theorem Kept.of_initial (h : expressions parts <+: all) : Kept all parts := by
  unfold Kept
  split
  · next p older => exact ⟨p, fun _ hp => hp, h⟩
  · exact h

theorem Kept.of_times {r : Regex} {least : Nat} {most : Option Nat} (hleast : 0 < least)
    (h : Kept all (some (.times r least most) :: parts)) : Kept all (some r :: parts) := by
  obtain ⟨p', hp', hprefix⟩ := h
  refine ⟨p', fun c hc => hp' c ?_, hprefix⟩
  rw [begins, hc, Bool.and_true, decide_eq_true_eq]
  exact hleast

/-- A run of ASCII characters is what the last of the parts stand for. -/
def Spells (run : List Char) (parts : List (Option Regex)) : Prop :=
  ∃ older, parts = run.reverse.map (fun c => some (ofChar {} c)) ++ older

theorem Spells.nil (parts : List (Option Regex)) : Spells [] parts := ⟨parts, rfl⟩

theorem Spells.add {c : Char} (h : Spells run parts) :
    Spells (run ++ [c]) (some (ofChar {} c) :: parts) := by
  obtain ⟨older, rfl⟩ := h
  exact ⟨older, by simp⟩

theorem Spells.dropLast (h : Spells run parts) : Spells run.dropLast parts.tail := by
  obtain ⟨older, rfl⟩ := h
  rcases List.eq_nil_or_concat run with rfl | ⟨run, c, rfl⟩
  · exact .nil _
  · exact ⟨older, by simp⟩

theorem spellsWithin_nil (parts : List Regex) : spellsWithin [] parts = true := by
  cases parts <;> rfl

theorem spellsWithin_of_spells {cs : List Char} {parts : List Regex} (h : spells cs parts = true) :
    spellsWithin cs parts = true := by
  cases parts with
  | nil => exact h
  | cons p parts => rw [spellsWithin, h, Bool.true_or]

theorem spellsWithin_append {cs : List Char} {parts : List Regex} (older : List Regex)
    (h : spellsWithin cs parts = true) : spellsWithin cs (older ++ parts) = true := by
  induction older with
  | nil => exact h
  | cons p older ih => rw [List.cons_append, spellsWithin, ih, Bool.or_true]

theorem spells_cons {c : Char} {cs : List Char} (hcs : cs ≠ []) (parts : List Regex) :
    spells (c :: cs) (ofChar {} c :: parts) = spells cs parts := by
  cases cs with
  | nil => exact absurd rfl hcs
  | cons d cs => simp [spells, ofChar]

theorem spells_concat {c : Char} {p : Regex} (hp : p.begins c = true) (run : List Char)
    (later : List Regex) : spells (run ++ [c]) (run.map (ofChar {}) ++ p :: later) = true := by
  induction run with
  | nil => exact hp
  | cons d run ih =>
    rw [List.map_cons, List.cons_append, List.cons_append, spells_cons (by simp), ih]

/-- A run that the last of the parts stand for is a literal part of the sequence. -/
theorem Spells.literal (h : Spells run parts) (hall : Kept all parts) :
    spellsWithin run all = true := by
  obtain ⟨older, rfl⟩ := h
  rcases List.eq_nil_or_concat run with rfl | ⟨run, c, rfl⟩
  · exact spellsWithin_nil all
  · rw [List.concat_eq_append, List.reverse_append, List.reverse_singleton, List.map_append,
      List.map_singleton, List.append_assoc, List.singleton_append] at hall
    obtain ⟨p, hp, later, rfl⟩ := hall
    have hrow : expressions (some p :: (run.reverse.map (fun c => some (ofChar {} c)) ++ older)) =
        expressions older ++ run.map (ofChar {}) ++ [p] := by
      simp [expressions]
    have hc : (ofChar {} c).begins c = true := by simp [ofChar, begins]
    have hspells := spells_concat (hp c hc) run later
    rw [List.concat_eq_append, hrow, List.append_assoc, List.append_assoc, List.singleton_append]
    exact spellsWithin_append _ (spellsWithin_of_spells hspells)

end Parts

section Follows

variable {lib : Library} {whole : Regex} {all : List Regex} {n run run' s t : List Char}
  {p : Option Regex} {parts : List (Option Regex)}

/-- Whether a run is what the last of the parts stand for, unless it goes on to something else than
the needle. -/
def Trusted (n run s : List Char) (parts : List (Option Regex)) : Prop :=
  Spells run parts ∨ runFrom run s ≠ n

/-- What holds behind parts that end with a run, where `s` is still to be read: the whole becomes a
sequence in which the needle is a literal part if it is a run of the scan, and in which the parts stay,
the last one unless it is yet to be made optional. -/
def Sound (whole : Regex) (n run s : List Char) (parts : List (Option Regex)) : Prop :=
  ∀ runs, regexRuns? run s = some runs →
    ∃ all, (∀ cs, spellsWithin cs all = true → whole.literal cs = true) ∧
      (∀ w ∈ runs, w = n → spellsWithin w all = true) ∧
      expressions parts.tail <+: all ∧ (loosensNext s = false → Kept all parts)

theorem forall_literal {w : List Char} {later : List (List Char)}
    (hw : w = n → spellsWithin w all = true) (hlater : ∀ w ∈ later, w = n → spellsWithin w all = true)
    {runs : List (List Char)} (h : ∀ v ∈ runs, v = w ∨ v = [] ∨ v ∈ later) :
    ∀ v ∈ runs, v = n → spellsWithin v all = true := by
  intro v hv hn
  rcases h v hv with rfl | rfl | hv
  · exact hw hn
  · exact spellsWithin_nil all
  · exact hlater v hv hn

/-- One more part ends the run. -/
theorem Sound.part (htrusted : Trusted n run s parts) (hbreak : runFrom run s = run)
    (hscan : Scans run s run run' t) (h : Sound whole n run' t (p :: parts)) :
    Sound whole n run s parts := by
  intro runs hruns
  obtain ⟨later, hlater, hmem⟩ := hscan runs hruns
  obtain ⟨all, hwhole, hliteral, hprefix, -⟩ := h later hlater
  rw [List.tail_cons] at hprefix
  have hkept : Kept all parts := .of_initial hprefix
  refine ⟨all, hwhole, forall_literal (fun hn => ?_) hliteral hmem,
    (expressions_tail_initial parts).trans hprefix, fun _ => hkept⟩
  rcases htrusted with hspells | hne
  · exact hspells.literal hkept
  · exact absurd (hbreak.trans hn) hne

/-- One more part makes the run longer. -/
theorem Sound.char {c : Char} (hc : isRunChar c = true)
    (h : Sound whole n (run ++ [c]) s (p :: parts)) : Sound whole n run (c :: s) parts := by
  intro runs hruns
  rw [regexRuns?_cons hc] at hruns
  obtain ⟨all, hwhole, hliteral, hprefix, -⟩ := h runs hruns
  rw [List.tail_cons] at hprefix
  exact ⟨all, hwhole, hliteral, (expressions_tail_initial parts).trans hprefix,
    fun _ => .of_initial hprefix⟩

/-- A last part that may be left out is left out of the run. -/
theorem Sound.optional {q : Option Regex} (htrusted : Trusted n run s (p :: parts))
    (hloose : loosensNext s = true) (hbreak : runFrom run s = run.dropLast)
    (hscan : Scans run s run.dropLast [] t) (h : Sound whole n [] t (q :: parts)) :
    Sound whole n run s (p :: parts) := by
  intro runs hruns
  obtain ⟨later, hlater, hmem⟩ := hscan runs hruns
  obtain ⟨all, hwhole, hliteral, hprefix, -⟩ := h later hlater
  refine ⟨all, hwhole, forall_literal (fun hn => ?_) hliteral hmem, hprefix, fun hno => ?_⟩
  · rcases htrusted with hspells | hne
    · exact hspells.dropLast.literal (.of_initial hprefix)
    · exact absurd (hbreak.trans hn) hne
  · rw [hloose] at hno
    cases hno

/-- A last part that is repeated at least once, and stays so, belongs to the run. -/
theorem Sound.repeated {r : Regex} {least : Nat} {most : Option Nat}
    (htrusted : Trusted n run s (some r :: parts)) (hbreak : runFrom run s = run)
    (hscan : Scans run s run [] t) (hleast : 0 < least) (hkeep : loosensNext t = false)
    (h : Sound whole n [] t (some (.times r least most) :: parts)) :
    Sound whole n run s (some r :: parts) := by
  intro runs hruns
  obtain ⟨later, hlater, hmem⟩ := hscan runs hruns
  obtain ⟨all, hwhole, hliteral, hprefix, hall⟩ := h later hlater
  have hkept := (hall hkeep).of_times hleast
  refine ⟨all, hwhole, forall_literal (fun hn => ?_) hliteral hmem, hprefix, fun _ => hkept⟩
  rcases htrusted with hspells | hne
  · exact hspells.literal hkept
  · exact absurd (hbreak.trans hn) hne

theorem literal_of_single {r : Regex} {cs : List Char} (h : spellsWithin cs [r] = true) :
    r.literal cs = true := by
  unfold literal
  split
  · next rs =>
    -- a sequence is no character
    match cs, h with
    | [], _ => exact spellsWithin_nil rs
    | [c], h => simp [spellsWithin, spells, begins] at h
    | c :: d :: cs, h => simp [spellsWithin, spells] at h
  · exact h

theorem literal_sequence {d : GroupDraft} {cs : List Char}
    (h : spellsWithin cs (expressions d.current) = true) : d.sequence.literal cs = true := by
  unfold GroupDraft.sequence
  unfold expressions at h
  split
  · next r hr =>
    rw [hr] at h
    exact literal_of_single h
  · exact h

theorem eq_of_repeated? {d d' : GroupDraft} {least : Nat} {most : Option Nat}
    (h : d.repeated? least most = some d') :
    ∃ r older, d.current = some r :: older ∧
      d' = { d with current := some (.times r least most) :: older } := by
  unfold GroupDraft.repeated? at h
  split at h
  · next r older hd =>
    cases h
    exact ⟨r, older, hd, rfl⟩
  · cases h

/-- The scan goes along with the reader, from any place that both can be at. -/
theorem sound_of_readGroup {fuel : Nat} {names known : List String} {d : GroupDraft}
    (h : readGroup lib false fuel {} names d s = some (whole, known, t)) (hd : d.finished = [])
    (htame : tame n 0 s = true) (htrusted : Trusted n run s d.current) :
    Sound whole n run s d.current := by
  induction fuel generalizing names d s run with
  | zero => cases h
  | succ fuel ih =>
    have hpart {names : List String} {p : Option Regex} {u : List Char}
        (hbreak : runFrom run s = run) (hscan : Scans run s run [] u) (hu : tame n 0 u = true)
        (h : readGroup lib false fuel {} names { d with current := p :: d.current } u =
          some (whole, known, t)) : Sound whole n run s d.current :=
      .part htrusted hbreak hscan (ih h hd hu (.inl (.nil _)))
    have hoptional {least : Nat} {most : Option Nat} {d' : GroupDraft} {u : List Char}
        (hloose : loosensNext s = true) (hrun : s.head?.all (!isRunChar ·) = true)
        (hscan : Scans run s run.dropLast [] u) (hu : tame n 0 u = true)
        (hd' : d.repeated? least most = some d')
        (h : readGroup lib false fuel {} names d' (skipReluctant u) = some (whole, known, t)) :
        Sound whole n run s d.current := by
      obtain ⟨r, older, hcurrent, rfl⟩ := eq_of_repeated? hd'
      have hrest := tame_past (skipReluctant_past u) ▸ hu
      have hbreak : runFrom run s = run.dropLast := by rw [runFrom_of_head hrun, if_pos hloose]
      rw [hcurrent] at htrusted ⊢
      exact .optional htrusted hloose hbreak (hscan.trans (scans_reluctant u))
        (ih h hd hrest (.inl (.nil _)))
    rw [readGroup, skip_eq rfl] at h
    split at h
    · cases h
      intro runs hruns
      rw [regexRuns?] at hruns
      cases hruns
      have hkept : Kept (expressions d.current) d.current := .of_initial List.prefix_rfl
      refine ⟨expressions d.current, fun cs hcs => ?_, ?_, expressions_tail_initial _, fun _ => hkept⟩
      · rw [GroupDraft.close, hd]
        exact literal_sequence hcs
      · rw [List.forall_mem_singleton]
        intro hn
        rcases htrusted with hspells | hne
        · exact hspells.literal hkept
        · exact absurd (by simpa [runFrom, loosensNext] using hn) hne
    · cases h
    · intro runs hruns
      rw [regexRuns?_alternative] at hruns
      cases hruns
    · next a =>
      obtain ⟨⟨o, u⟩, ho, h⟩ := Option.bind_eq_some_iff.1 h
      have hopening := readOpening_between rfl (tame_group htame).1 ho
      have hbreak : runFrom run ('(' :: a) = run := runFrom_of_break rfl (by decide) a
      have hgroup {v : List Char} (hleaves : Leaves n 0 a v) :
          Scans run ('(' :: a) run [] v ∧ tame n 0 v = true :=
        have hv := hleaves (tame_group htame).2
        ⟨scans_group hv.1, hv.2⟩
      cases o with
      | directive inner =>
        obtain ⟨hscan, hu⟩ := hgroup ((along_past hopening.2).leaves (leaves_close u))
        intro runs hruns
        obtain rfl := directive_default (fewFlags_of_regexRuns? hruns) ho
        exact hpart hbreak hscan hu h runs hruns
      | group inner names' =>
        obtain ⟨⟨body, known', v⟩, hbody, h⟩ := Option.bind_eq_some_iff.1 h
        obtain ⟨hscan, hv⟩ :=
          hgroup ((along_past hopening.2).leaves (leaves_of_readGroup hopening.1 hbody))
        exact hpart (p := some (.group body)) hbreak hscan hv h
    · next a =>
      obtain ⟨⟨set, rest⟩, hset, h⟩ := Option.bind_eq_some_iff.1 h
      obtain ⟨set', -, h⟩ := Option.bind_eq_some_iff.1 h
      have hflat : flat (members a) = true := by simpa using members_of_tame htame
      have hset := afterSet_of_readSet rfl rfl hset hflat
      exact hpart (runFrom_of_break rfl (by decide) a) (scans_set hset) (tame_set hset htame) h
    · obtain ⟨d', hd', h⟩ := Option.bind_eq_some_iff.1 h
      rw [tame_cons rfl] at htame
      exact hoptional rfl rfl (scans_optional (.inl rfl) _) htame hd' h
    · obtain ⟨d', hd', h⟩ := Option.bind_eq_some_iff.1 h
      rw [tame_cons rfl] at htame
      exact hoptional rfl rfl (scans_optional (.inr rfl) _) htame hd' h
    · next a =>
      obtain ⟨d', hd', h⟩ := Option.bind_eq_some_iff.1 h
      obtain ⟨r, older, hcurrent, rfl⟩ := eq_of_repeated? hd'
      obtain ⟨hkeep, ha⟩ := kept_of_tame htame
      rw [tame_past (skipReluctant_past a)] at ha
      have hplus : Scans run ('+' :: a) run [] a := scans_other rfl (by decide) a
      have hscan := hplus.trans (scans_reluctant a)
      rw [hcurrent] at htrusted ⊢
      exact .repeated htrusted (runFrom_of_break rfl (by decide) a) hscan Nat.one_pos hkeep
        (ih h hd ha (.inl (.nil _)))
    · obtain ⟨⟨least, most, rest⟩, hbounds, h⟩ := Option.bind_eq_some_iff.1 h
      obtain ⟨d', hd', h⟩ := Option.bind_eq_some_iff.1 h
      rw [skip_eq rfl] at h
      have hcount := readBounds_past rfl hbounds
      rw [tame_past (braces_past hcount)] at htame
      exact hoptional rfl rfl (scans_braces (hcount.dropWhile_ne rfl)) htame hd' h
    · next hclose halternative hopen hset hone hstar hplus hbrace =>
      obtain ⟨⟨part, rest⟩, hread, h⟩ := Option.bind_eq_some_iff.1 h
      have hne : ∀ c ∈ ['[', '(', '\x7b', '?', '*', ')', '+'], s.head? ≠ some c := by
        intro c hc hhead
        obtain ⟨a, rfl⟩ := List.head?_eq_some_iff.1 hhead
        simp only [List.mem_cons, List.not_mem_nil, or_false] at hc
        rcases hc with rfl | rfl | rfl | rfl | rfl | rfl | rfl
        · exact hset _ rfl
        · exact hopen _ rfl
        · exact hbrace _ rfl
        · exact hone _ rfl
        · exact hstar _ rfl
        · exact hclose _ rfl
        · exact hplus _ rfl
      obtain ⟨hrest, ⟨c, hc, rfl, rfl⟩ | ⟨hbreak, run', hscan, hrun'⟩⟩ :=
        scans_readPart run hread hne htame
      · -- the run goes on, so it can be trusted as much as before
        refine .char hc (ih h hd hrest (htrusted.imp Spells.add fun hne => ?_))
        rwa [← List.singleton_append, runFrom_append (by simpa using hc)] at hne
      · refine .part htrusted hbreak hscan (ih h hd hrest (hrun'.imp_left ?_))
        rintro rfl
        exact .nil _

end Follows

end Needle

namespace Pattern

/-- However names of properties are read, the needle of a tame regular expression is a literal part of
it, and a needle that is a literal part stands in every ASCII text with a match, case aside, so that
the daemon finds it there and no such item is lost. -/
theorem regex_needle_never_excludes {lib : Regex.Library} {source n : String} {r : Regex}
    (hread : Regex.parse? lib source = some r) (hneedle : Needle.ofRegex? source = some n) :
    (Needle.tame n.toList 0 source.toList = true → r.literal n.toList = true) ∧
    (r.literal n.toList = true → ∀ value : String, (∀ c ∈ value.toList, c.val < 128) →
      r.isMatch value = true → lower n.toList <:+: lower value.toList ∧
      ∀ key p, Filter.patternPreFilter (.regex source r) key = some p →
        ∀ texts : Texts, texts (Texts.keyOf ("$" ++ key)) = value →
          p.command.holds texts.answer = true) := by
  obtain ⟨runs, hruns, hlongest⟩ := Option.map_eq_some_iff.1 hneedle
  have hn : n.toList = Needle.longest runs := by rw [← hlongest, String.toList_ofList]
  constructor
  · intro htame
    obtain ⟨⟨whole, known, t⟩, hgroup, hwhole⟩ := Option.map_eq_some_iff.1 hread
    cases hwhole
    have hsound := Needle.sound_of_readGroup hgroup rfl htame (.inl (.nil _))
    obtain ⟨all, hliteral, hspells, -⟩ := hsound runs hruns
    apply hliteral
    by_cases hne : Needle.longest runs = []
    · rw [hn, hne]
      exact Needle.spellsWithin_nil all
    · exact hspells _ (hn ▸ Needle.longest_mem hne) rfl
  · intro hliteral value hvalue hmatch
    have hascii : ∀ c ∈ n.toList, c.val < 128 := by
      rw [hn]
      by_cases hne : Needle.longest runs = []
      · simp [hne]
      · exact Needle.ascii_of_mem_regexRuns? hruns (by simp) _ (Needle.longest_mem hne)
    have hstands := Regex.infix_of_literal hascii hvalue hliteral hmatch
    refine ⟨hstands, ?_⟩
    intro key p hp texts htext
    rw [Filter.patternPreFilter, hneedle] at hp
    obtain ⟨rfl, -, -⟩ := Filter.containsNeedle_eq_some hp
    change (Command.contains key n).holds texts.answer = true
    rw [Texts.holds_contains, htext, occursIn_iff_infix]
    exact hstands

/-- The needle of an expression with a property, a group with a named class, an escape in digits and a
repetition. -/
theorem regex_needle_never_excludes_linux :
    let emoji : Regex.CharSet := .ofSpans [('#', '#'), ('*', '*'), ('0', '9')]
    let lib : Regex.Library :=
      { Regex.Library.known with named? := fun name => if name = "Emoji" then some emoji else none }
    let source := "\\p\x7bEmoji\x7d([[:alpha:]])\\x2d.lin+ux"
    (∃ r, Regex.parse? lib source = some r ∧ r.isMatch "7a-_LinnUX" = true) ∧
    Needle.ofRegex? source = some "lin" ∧ lower "lin".toList <:+: lower "7a-_LinnUX".toList ∧
    ∀ texts : Texts, texts (Texts.keyOf "$d.name=") = "7a-_LinnUX" →
      (Command.contains "d.name=" "lin").holds texts.answer = true := by
  intro emoji lib source
  have hread : (Regex.parse? lib source).any (·.isMatch "7a-_LinnUX") = true := by decide +kernel
  have hread := (Option.any_eq_true _ _).1 hread
  have hneedle : Needle.ofRegex? source = some "lin" := by decide +kernel
  refine ⟨hread, hneedle, ?_⟩
  obtain ⟨r, hread, hmatch⟩ := hread
  obtain ⟨htame, hliteral⟩ := regex_needle_never_excludes hread hneedle
  have hvalue : ∀ c ∈ "7a-_LinnUX".toList, c.val < 128 := by simp
  obtain ⟨hstands, hfilter⟩ := hliteral (htame (by decide +kernel)) "7a-_LinnUX" hvalue hmatch
  refine ⟨hstands, fun texts htext => ?_⟩
  refine hfilter "d.name=" (.ofSuperset (.contains "d.name=" "lin")) ?_ texts htext
  rw [Filter.patternPreFilter, hneedle]
  rfl

/-- The needle of an expression is missing in a text that matches. -/
def Misleads (source needle text : String) : Prop :=
  (Regex.read? source).any (·.isMatch text) = true ∧ Needle.ofRegex? source = some needle ∧
    ¬lower needle.toList <:+: lower text.toList

/-- What the scan misreads: the digits of an escape, repetitions that are made optional, a set within
a set, a bracket in a name, and a comment in spaced mode. -/
theorem regex_needle_excludes_misread :
    Misleads "\\x41bc" "41bc" "Abc" ∧ Misleads "ab+*" "ab" "a" ∧
    Misleads "ab+\x7b0\x7d" "ab" "a" ∧ Misleads "[[a]foo\x7b]\x7d" "fo" "a\x7d" ∧
    Misleads "(?P<a[>x)|(foo])bar" "bar" "x" ∧ Misleads "((?x)#)foo[\nb)]" "foo" "b]" := by
  simp only [Misleads, ← occursIn_iff_infix]
  decide +kernel

end Pattern

end TorrentQuery
