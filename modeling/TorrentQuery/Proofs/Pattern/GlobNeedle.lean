import TorrentQuery.Proofs.Daemon.Meaning
import TorrentQuery.Proofs.Filter.Leaf

namespace TorrentQuery

open Text

namespace Glob

/-- A set whose first member is a closing bracket. -/
def Part.opensWithBracket : Part → Bool
  | .oneOf _ (.single c :: _) => c == ']'
  | .oneOf _ (.range c _ :: _) => c == ']'
  | _ => false

section Accepts

theorem accepts_suffix {ps qs : List Part} {s : List Char} (h : accepts (ps ++ qs) s = true) :
    ∃ t, t <:+ s ∧ accepts qs t = true := by
  induction ps generalizing s with
  | nil => exact ⟨s, List.suffix_rfl, h⟩
  | cons p ps ih =>
    rw [List.cons_append] at h
    by_cases hp : p = .many
    · subst hp
      induction s with
      | nil =>
        rw [accepts_many_nil] at h
        exact ih h
      | cons c r ihs =>
        rw [accepts_many_cons, Bool.or_eq_true] at h
        rcases h with h | h
        · exact ih h
        · obtain ⟨t, ht, hq⟩ := ihs h
          exact ⟨t, ht.trans (List.suffix_cons c r), hq⟩
    · cases s with
      | nil =>
        rw [accepts_part_nil _ hp] at h
        cases h
      | cons c r =>
        rw [accepts_part_cons _ hp, Bool.and_eq_true] at h
        obtain ⟨t, ht, hq⟩ := ih h.2
        exact ⟨t, ht.trans (List.suffix_cons c r), hq⟩

/-- Among characters in lower case only a character itself is the same letter. -/
theorem eq_of_sameLetter {a b : Char} (ha : a.toLower = a) (hb : b.toLower = b)
    (h : sameLetter a b = true) : a = b := by
  unfold sameLetter at h
  split at h
  · rwa [beq_iff_eq, ha, hb] at h
  · exact beq_iff_eq.1 h

theorem prefix_of_accepts {run s : List Char} {ps : List Part}
    (hrun : ∀ c ∈ run, c.toLower = c) (hs : ∀ c ∈ s, c.toLower = c)
    (h : accepts (run.map .char ++ ps) s = true) : run <+: s := by
  induction run generalizing s with
  | nil => exact List.nil_prefix
  | cons c run ih =>
    obtain ⟨hc, hrun⟩ := List.forall_mem_cons.1 hrun
    rw [List.map_cons, List.cons_append] at h
    cases s with
    | nil =>
      rw [accepts_part_nil _ (by simp)] at h
      cases h
    | cons d r =>
      obtain ⟨hd, hr⟩ := List.forall_mem_cons.1 hs
      rw [accepts_part_cons _ (by simp), Bool.and_eq_true] at h
      exact List.cons_prefix_cons.2 ⟨(eq_of_sameLetter hd hc h.1).symm, ih hrun hr h.2⟩

/-- Characters that follow each other in a pattern do so in every text that it accepts. -/
theorem infix_of_accepts {run s : List Char} {ps : List Part}
    (hrun : ∀ c ∈ run, c.toLower = c) (hs : ∀ c ∈ s, c.toLower = c)
    (hps : run.map .char <:+: ps) (h : accepts ps s = true) : run <:+: s := by
  obtain ⟨before, after, rfl⟩ := hps
  rw [List.append_assoc] at h
  obtain ⟨t, ht, hq⟩ := accepts_suffix h
  have hprefix := prefix_of_accepts hrun (fun c hc => hs c (ht.subset hc)) hq
  exact hprefix.isInfix.trans ht.isInfix

end Accepts

end Glob

namespace Needle

open Glob

def isSign (c : Char) : Bool := c == '[' || c == '*' || c == '?' || c == ']'

theorem globRuns_append_of_not_sign {a : List Char} (ha : ∀ c ∈ a, isSign c = false)
    (inSet : Bool) (run r : List Char) : globRuns inSet run (a ++ r) =
      globRuns inSet (if inSet then run else run ++ a) r := by
  induction a generalizing run with
  | nil => cases inSet <;> simp
  | cons c a ih =>
    obtain ⟨hc, ha⟩ := List.forall_mem_cons.1 ha
    simp only [isSign, Bool.or_eq_false_iff] at hc
    obtain ⟨⟨⟨hopen, hstar⟩, hone⟩, hclose⟩ := hc
    cases inSet with
    | true =>
      have hgo : (c != ']') = true := by simp [bne, hclose]
      simpa [globRuns, hgo] using ih ha run
    | false => simpa [globRuns, hopen, hstar, hone, hclose] using ih ha (run ++ [c])

theorem infix_of_mem_globRuns {inSet : Bool} {run s w : List Char} (hset : inSet = true → run = [])
    (hw : w ∈ globRuns inSet run s) : w <:+: run ++ s := by
  induction s generalizing inSet run with
  | nil =>
    rw [globRuns, List.mem_singleton] at hw
    rw [hw]
    exact (List.prefix_append run []).isInfix
  | cons c r ih =>
    have hlater {w : List Char} (hw : w <:+: [] ++ r) : w <:+: run ++ c :: r :=
      hw.trans ((List.suffix_cons c r).trans (List.suffix_append run (c :: r))).isInfix
    have hnow : run <:+: run ++ c :: r := (List.prefix_append run (c :: r)).isInfix
    rw [globRuns] at hw
    split at hw
    · next hin =>
      obtain rfl := hset hin
      exact hlater (ih (fun _ => rfl) hw)
    · split at hw
      · rcases List.mem_cons.1 hw with rfl | hw
        · exact hnow
        · exact hlater (ih (fun _ => rfl) hw)
      · split at hw
        · rcases List.mem_cons.1 hw with rfl | hw
          · exact hnow
          · exact hlater (ih (fun _ => rfl) hw)
        · have hno : false = true → run ++ [c] = [] := fun h => nomatch h
          have hrest := ih hno hw
          rwa [List.append_assoc, List.singleton_append] at hrest

section Lower

theorem isSign_lowerChar {c : Char} (h : isSign c = false) : isSign (lowerChar c) = false := by
  by_cases hc : c.val < 128
  · have hall : ∀ n : Nat, n < 128 → isSign (Char.ofNat n) = false →
        isSign (Char.ofNat n).toLower = false := by decide
    rw [lowerChar, if_pos hc]
    simpa using hall c.toNat (val_lt_iff.1 hc) (by simpa using h)
  · have hsigns : ∀ d : Char, isSign d = true → d.toNat < 97 ∧ d.toNat ≠ 0 := by
      intro d hd
      simp only [isSign, Bool.or_eq_true, beq_iff_eq] at hd
      rcases hd with ((rfl | rfl) | rfl) | rfl <;> decide
    rw [← Bool.not_eq_true]
    intro hsign
    obtain ⟨hlt, hne⟩ := hsigns _ hsign
    rcases lowerChar_of_not_ascii hc with he | he | he
    · rw [he, h] at hsign
      cases hsign
    · omega
    · exact hne he

/-- A sign stays what it is in lower case, and nothing becomes one. -/
theorem lowerFrom_cons_sign (seen r : List Char) (c : Char) :
    ∃ a, lowerFrom seen (c :: r) = a ++ lowerFrom (c :: seen) r ∧
      (isSign c = true → a = [c]) ∧ (isSign c = false → ∀ d ∈ a, isSign d = false) ∧
      (c.val < 128 → a = [c.toLower]) := by
  by_cases hs : c = 'Σ'
  · subst hs
    refine ⟨_, rfl, fun h => absurd h (by decide), fun _ => ?_, fun h => absurd h (by decide)⟩
    intro d hd
    simp only [beq_self_eq_true, if_true, List.mem_singleton] at hd
    rw [hd]
    split <;> decide
  by_cases hi : c = 'İ'
  · subst hi
    exact ⟨['i', '\u0307'], rfl, fun h => absurd h (by decide), fun _ => by simp [isSign],
      fun h => absurd h (by decide)⟩
  refine ⟨[lowerChar c], lowerFrom_cons hs hi, ?_, ?_, ?_⟩
  · intro hc
    simp only [isSign, Bool.or_eq_true, beq_iff_eq] at hc
    rcases hc with ((rfl | rfl) | rfl) | rfl <;> decide
  · intro hc d hd
    rw [List.mem_singleton.1 hd]
    exact isSign_lowerChar hc
  · intro hc
    rw [lowerChar, if_pos hc]

/-- An ASCII run of a pattern is, in lower case, a run of the pattern in lower case. -/
theorem mem_globRuns_lowerFrom {inSet : Bool} {run run' s w : List Char} (seen : List Char)
    (hrun : (∀ c ∈ run, c.val < 128) → run' = run.map Char.toLower)
    (hw : w ∈ globRuns inSet run s) (hascii : ∀ c ∈ w, c.val < 128) :
    w.map Char.toLower ∈ globRuns inSet run' (lowerFrom seen s) := by
  induction s generalizing inSet run run' seen with
  | nil =>
    rw [globRuns, List.mem_singleton] at hw
    subst hw
    rw [lowerFrom, globRuns, List.mem_singleton, hrun hascii]
  | cons c r ih =>
    obtain ⟨a, ha, hsign, hplain, hlower⟩ := lowerFrom_cons_sign seen r c
    have hnil : (∀ c ∈ ([] : List Char), c.val < 128) → ([] : List Char) = [].map Char.toLower :=
      fun _ => rfl
    rw [ha]
    cases hc : isSign c with
    | true =>
      rw [hsign hc, List.singleton_append, globRuns]
      rw [globRuns] at hw
      split at hw
      · next hin =>
        rw [if_pos hin]
        exact ih _ hrun hw
      · next hin =>
        rw [if_neg hin]
        split at hw
        · next hopen =>
          rw [if_pos hopen]
          rcases List.mem_cons.1 hw with rfl | hw
          · rw [hrun hascii]
            exact List.mem_cons_self
          · exact List.mem_cons_of_mem _ (ih _ hnil hw)
        · next hopen =>
          have hother : (c == '*' || c == '?' || c == ']') = true := by
            simpa [isSign, hopen] using hc
          rw [if_neg hopen, if_pos hother]
          rw [if_pos hother] at hw
          rcases List.mem_cons.1 hw with rfl | hw
          · rw [hrun hascii]
            exact List.mem_cons_self
          · exact List.mem_cons_of_mem _ (ih _ hnil hw)
    | false =>
      have hone : ∀ d ∈ [c], isSign d = false := List.forall_mem_singleton.2 hc
      rw [globRuns_append_of_not_sign (hplain hc)]
      rw [← List.singleton_append, globRuns_append_of_not_sign hone] at hw
      cases inSet with
      | true => exact ih _ hrun hw
      | false =>
        change w ∈ globRuns false (run ++ [c]) r at hw
        change w.map Char.toLower ∈ globRuns false (run' ++ a) _
        apply ih _ ?_ hw
        intro hall
        rw [List.forall_mem_append, List.forall_mem_singleton] at hall
        simp [hrun hall.1, hlower hall.2]

end Lower

section Sets

theorem globRuns_set {r : List Char} {c : Char} {rest : List Char}
    (h : r.dropWhile (· != ']') = c :: rest) : globRuns true [] r = globRuns false [] rest := by
  induction r with
  | nil => cases h
  | cons d r ih =>
    by_cases hd : d = ']'
    · subst hd
      rw [List.dropWhile_cons_of_neg (by decide)] at h
      cases h
      rfl
    · have hgo : (d != ']') = true := bne_iff_ne.2 hd
      rw [List.dropWhile_cons, hgo] at h
      rw [globRuns, if_pos rfl, hgo]
      exact ih h

theorem globRuns_cutSet {negated : Bool} {c : Char} {r rest : List Char} {p : Part}
    (h : cutSet negated c r = some (p, rest)) (hp : p.opensWithBracket = false) :
    globRuns true [] (c :: r) = globRuns false [] rest := by
  unfold cutSet at h
  split at h
  · cases h
  · next d t ht =>
    cases h
    have hc : (c != ']') = true := by
      -- the character behind the opening is the first member, alone or as the start of a span
      unfold spans at hp
      split at hp
      · next heq =>
        rw [← (List.cons.inj heq).1] at hp
        simpa [Part.opensWithBracket, bne] using hp
      · next heq =>
        rw [← (List.cons.inj heq).1] at hp
        simpa [Part.opensWithBracket, bne] using hp
      · next heq => cases heq
    rw [globRuns, if_pos rfl, hc]
    exact globRuns_set ht

/-- The scan skips a set up to where the pattern goes on behind it. -/
theorem globRuns_set? {r rest : List Char} {p : Part} (h : set? r = some (p, rest))
    (hp : p.opensWithBracket = false) : globRuns true [] r = globRuns false [] rest := by
  unfold set? at h
  split at h
  · cases h
  · cases h
  · rw [globRuns, if_pos rfl]
    exact globRuns_cutSet h hp
  · exact globRuns_cutSet h hp

end Sets

theorem mem_globRuns_collapseStars {inSet : Bool} {run s w : List Char}
    (hw : w ∈ globRuns inSet run s) (hne : w ≠ []) :
    w ∈ globRuns inSet run (collapseStars s) := by
  fun_induction collapseStars s generalizing inSet run with
  | case1 r ih =>
    apply ih
    cases inSet with
    | true => simpa [globRuns] using hw
    | false => simpa [globRuns, hne] using hw
  | case2 c r hc ih =>
    rw [globRuns] at hw ⊢
    split at hw
    · next hin =>
      rw [if_pos hin]
      exact ih hw
    · next hin =>
      rw [if_neg hin]
      split at hw
      · next hopen =>
        rw [if_pos hopen]
        exact List.mem_cons.2 ((List.mem_cons.1 hw).imp_right ih)
      · next hopen =>
        rw [if_neg hopen]
        split at hw
        · next hother =>
          rw [if_pos hother]
          exact List.mem_cons.2 ((List.mem_cons.1 hw).imp_right ih)
        · next hother =>
          rw [if_neg hother]
          exact ih hw
  | case3 => exact hw

/-- Each run is a row of characters among the parts of the pattern. -/
theorem infix_of_parse? {s run w : List Char} {ps : List Part} (hs : parse? s = some ps)
    (hps : ∀ p ∈ ps, p.opensWithBracket = false) (hw : w ∈ globRuns false run s) :
    w.map Part.char <:+: run.map Part.char ++ ps := by
  have hnow {run : List Char} {qs : List Part} :
      run.map Part.char <:+: run.map Part.char ++ qs := (List.prefix_append _ _).isInfix
  have hlater {run w : List Char} {p : Part} {qs : List Part}
      (h : w.map Part.char <:+: [].map Part.char ++ qs) :
      w.map Part.char <:+: run.map Part.char ++ p :: qs :=
    h.trans ((List.suffix_cons p qs).trans (List.suffix_append _ _)).isInfix
  fun_induction parse? s generalizing run ps with
  | case1 =>
    cases hs
    rw [globRuns, List.mem_singleton] at hw
    rw [hw]
    exact hnow
  | case2 r ih =>
    obtain ⟨qs, hqs, rfl⟩ := Option.map_eq_some_iff.1 hs
    rcases List.mem_cons.1 hw with rfl | hw
    · exact hnow
    · exact hlater (ih hqs (fun p hp => hps p (List.mem_cons_of_mem _ hp)) hw)
  | case3 r ih =>
    obtain ⟨qs, hqs, rfl⟩ := Option.map_eq_some_iff.1 hs
    rcases List.mem_cons.1 hw with rfl | hw
    · exact hnow
    · exact hlater (ih hqs (fun p hp => hps p (List.mem_cons_of_mem _ hp)) hw)
  | case4 => cases hs
  | case5 r p rest hset _ ih =>
    obtain ⟨qs, hqs, rfl⟩ := Option.map_eq_some_iff.1 hs
    obtain ⟨hp, hrest⟩ := List.forall_mem_cons.1 hps
    rcases List.mem_cons.1 hw with rfl | hw
    · exact hnow
    · rw [globRuns_set? hset hp] at hw
      exact hlater (ih hqs hrest hw)
  | case6 c r hstar hone hopen ih =>
    obtain ⟨qs, hqs, rfl⟩ := Option.map_eq_some_iff.1 hs
    have hrest := fun p hp => hps p (List.mem_cons_of_mem _ hp)
    by_cases hc : c = ']'
    · subst hc
      rcases List.mem_cons.1 hw with rfl | hw
      · exact hnow
      · exact hlater (ih hqs hrest hw)
    · have hsign : ∀ d ∈ [c], isSign d = false := by
        have hne : c ≠ '*' ∧ c ≠ '?' ∧ c ≠ '[' := ⟨hstar, hone, hopen⟩
        simp [isSign, hne, hc]
      rw [← List.singleton_append, globRuns_append_of_not_sign hsign] at hw
      have hmore := ih hqs hrest hw
      simpa using hmore

theorem longest_mem {runs : List (List Char)} (h : longest runs ≠ []) : longest runs ∈ runs := by
  have hfold := Filter.foldl_mem_of_choice
    (f := fun best run : List Char => if best.length < run.length then run else best)
    (fun a b => by grind) [] runs
  exact (List.mem_cons.1 hfold).resolve_left h

end Needle

namespace Glob

/-- An ASCII run of a pattern stands in every ASCII text that matches, case aside. -/
theorem infix_of_isMatch {text value : String} {run : List Char}
    (hsets : ∀ ps, (ofText text).parts = some ps → ∀ p ∈ ps, p.opensWithBracket = false)
    (hrun : run ∈ Needle.globRuns false [] text.toList) (hascii : ∀ c ∈ run, c.val < 128)
    (hvalue : ∀ c ∈ value.toList, c.val < 128) (h : (ofText text).isMatch value = true) :
    lower run <:+: lower value.toList := by
  rw [isMatch, Bool.or_eq_true] at h
  rcases h with h | h
  · obtain ⟨ps, hps, haccepts⟩ := (Option.any_eq_true _ _).1 h
    rw [lower_of_ascii hascii]
    by_cases hne : run = []
    · rw [hne]
      exact List.nil_infix
    have hparse : parse? (collapseStars (lower text.toList)) = some ps := hps
    have hlower : run.map Char.toLower ∈ Needle.globRuns false [] (lower text.toList) :=
      Needle.mem_globRuns_lowerFrom [] (fun _ => rfl) hrun hascii
    have hmem := Needle.mem_globRuns_collapseStars hlower (by simpa using hne)
    have hrow := Needle.infix_of_parse? hparse (hsets ps hps) hmem
    have hfixed {s : List Char} : ∀ c ∈ s.map Char.toLower, c.toLower = c := by
      intro c hc
      obtain ⟨d, -, rfl⟩ := List.mem_map.1 hc
      exact toLower_toLower d
    apply infix_of_accepts hfixed ?_ hrow haccepts
    rw [lower_of_ascii hvalue]
    exact hfixed
  · have hliteral : lower value.toList = lower text.toList := by simpa [ofText] using h
    rw [hliteral]
    have hno : false = true → ([] : List Char) = [] := fun _ => rfl
    have hstands := Needle.infix_of_mem_globRuns hno hrun
    exact lower_infix_of_ascii hstands (lower_ascii hascii)

end Glob

namespace Pattern

theorem eq_ofText_of_read? {text source : String} {g : Glob}
    (h : read? text = some (.glob source g)) : source = text ∧ g = .ofText text := by
  unfold read? at h
  simp only at h
  split at h
  · cases h
  · split at h
    · cases h
    · cases h
    · cases h
    · obtain ⟨r, -, hr⟩ := Option.map_eq_some_iff.1 h
      cases hr
    · split at h
      · cases h
      · split at h
        · cases h
        · cases h
          exact ⟨rfl, rfl⟩

/-- The needle of a shell pattern stands in every ASCII text that matches it, case aside, so that
the daemon finds it there and no such item is lost. No set of the pattern may have a closing bracket
for its first member. -/
theorem glob_needle_never_excludes {text source : String} {g : Glob}
    (hread : read? text = some (.glob source g))
    (hsets : ∀ ps, g.parts = some ps → ∀ p ∈ ps, p.opensWithBracket = false)
    {value : String} (hvalue : ∀ c ∈ value.toList, c.val < 128) (h : g.isMatch value = true) :
    ((∀ c ∈ (Needle.ofGlob source).toList, c.val < 128) →
      lower (Needle.ofGlob source).toList <:+: lower value.toList) ∧
    ∀ key p, Filter.patternPreFilter (.glob source g) key = some p →
      ∀ texts : Texts, texts (Texts.keyOf ("$" ++ key)) = value →
        p.command.holds texts.answer = true := by
  obtain ⟨rfl, rfl⟩ := eq_ofText_of_read? hread
  have hstands (hascii : ∀ c ∈ (Needle.ofGlob source).toList, c.val < 128) :
      lower (Needle.ofGlob source).toList <:+: lower value.toList := by
    rw [Needle.ofGlob, String.toList_ofList] at hascii ⊢
    by_cases hne : Needle.longest (Needle.globRuns false [] source.toList) = []
    · rw [hne]
      exact List.nil_infix
    · exact Glob.infix_of_isMatch hsets (Needle.longest_mem hne) hascii hvalue h
  refine ⟨hstands, ?_⟩
  intro key p hp texts htext
  obtain ⟨rfl, -, hascii⟩ := Filter.containsNeedle_eq_some hp
  change (Command.contains key (Needle.ofGlob source)).holds texts.answer = true
  rw [Texts.holds_contains, htext, occursIn_iff_infix]
  exact hstands hascii

/-- Behind the set of `b[ac]de*` the needle is found, whatever the case. -/
theorem glob_needle_never_excludes_set :
    lower (Needle.ofGlob "b[ac]de*").toList <:+: lower "BCDEF".toList ∧
    ∀ texts : Texts, texts (Texts.keyOf "$d.name=") = "BCDEF" →
      (Command.contains "d.name=" "de").holds texts.answer = true := by
  have hread : read? "b[ac]de*" = some (.glob "b[ac]de*" (.ofText "b[ac]de*")) := rfl
  have hparts : (Glob.ofText "b[ac]de*").parts =
      some [.char 'b', .oneOf false [.single 'a', .single 'c'], .char 'd', .char 'e', .many] := by
    decide +kernel
  have hsets : ∀ ps, (Glob.ofText "b[ac]de*").parts = some ps →
      ∀ p ∈ ps, p.opensWithBracket = false := by
    rw [hparts]
    rintro ps ⟨⟩
    decide
  have hneedle : Needle.ofGlob "b[ac]de*" = "de" := by decide
  have hvalue : ∀ c ∈ "BCDEF".toList, c.val < 128 := by simp
  have hmatch : (Glob.ofText "b[ac]de*").isMatch "BCDEF" = true := by decide +kernel
  obtain ⟨hstands, hfilter⟩ := glob_needle_never_excludes hread hsets hvalue hmatch
  exact ⟨hstands (by simp [hneedle]), fun texts htext => hfilter "d.name=" _ rfl texts htext⟩

/-- The pattern `[]abc]` is a set of four characters, but its needle takes them for a row. -/
theorem glob_needle_excludes_set :
    read? "[]abc]" = some (.glob "[]abc]" (.ofText "[]abc]")) ∧
    (Glob.ofText "[]abc]").isMatch "a" = true ∧ Needle.ofGlob "[]abc]" = "abc" ∧
    ¬lower "abc".toList <:+: lower "a".toList := by
  refine ⟨rfl, by decide +kernel, by decide, ?_⟩
  rw [← occursIn_iff_infix]
  decide

end Pattern

end TorrentQuery
