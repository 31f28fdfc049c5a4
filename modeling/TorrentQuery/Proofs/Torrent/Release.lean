import Mathlib.Data.List.Infix
import TorrentQuery.Proofs.Number.Integer
import TorrentQuery.Proofs.Number.Padded
import TorrentQuery.Proofs.Text.Blank
import TorrentQuery.Proofs.Text.Lower
import TorrentQuery.Proofs.Text.Split
import TorrentQuery.Torrent.Release

namespace TorrentQuery.Release

open Number Text

/-- Words of letters with single separators between them. -/
inductive Title : List Char → Prop
  | word {w : List Char} : w ≠ [] → (∀ c ∈ w, c.isAlpha = true) → Title w
  | joined {w t : List Char} {c : Char} : w ≠ [] → (∀ c ∈ w, c.isAlpha = true) →
      c ∈ ['.', '_', ' '] → Title t → Title (w ++ c :: t)

section Characters

variable {c : Char}

theorem isSeparator_iff : isSeparator c = true ↔ c ∈ ['.', '_', ' '] := by
  simp [isSeparator, or_assoc]

theorem isDecimalDigit_of_isDigit (h : c.isDigit = true) : isDecimalDigit c = true := by
  have hascii : c.val < 128 :=
    ascii_of_isAlphanum (by rw [Char.isAlphanum, h, Bool.or_true])
  rw [isDecimalDigit, if_pos hascii, h]

theorem not_isDecimalDigit_of_isAlpha (h : c.isAlpha = true) : isDecimalDigit c = false := by
  have hascii := ascii_of_isAlphanum (isAlphanum_of_isAlpha h)
  rw [isDecimalDigit, if_pos hascii, not_isDigit_of_isAlpha h]

theorem not_isDecimalDigit_of_mem (h : c ∈ ['.', '_', ' ', '-']) : isDecimalDigit c = false := by
  simp only [List.mem_cons, List.not_mem_nil, or_false] at h
  rcases h with rfl | rfl | rfl | rfl <;> rfl

/-- What goes on behind a name does not go on with a digit. -/
theorem not_isDecimalDigit_of_endsOrGoesOn {rest : List Char} (h : endsOrGoesOn rest = true) :
    rest.head?.all (!isDecimalDigit ·) = true := by
  cases rest with
  | nil => rfl
  | cons c r =>
    have hc : c ∈ ['.', '_', ' ', '-'] := by
      have hstart := (Bool.and_eq_true_iff.1 h).1
      rw [Bool.or_eq_true, isSeparator_iff, beq_iff_eq] at hstart
      rcases hstart with hmem | rfl
      · exact List.mem_append_left ['-'] hmem
      · decide
    simp [not_isDecimalDigit_of_mem hc]

theorem not_isSeparator_of_isAlpha (h : c.isAlpha = true) : isSeparator c = false := by
  rw [← Bool.not_eq_true, isSeparator_iff]
  intro hmem
  simp only [List.mem_cons, List.not_mem_nil, or_false] at hmem
  rcases hmem with rfl | rfl | rfl <;> cases h

theorem ne_newline_of_isAlpha (h : c.isAlpha = true) : (c == '\n') = false := by
  rw [beq_eq_false_iff_ne]
  rintro rfl
  cases h

end Characters

section Digits

variable {least most : Nat} {ds tail : List Char}

theorem digits?_append (hds : ∀ c ∈ ds, c.isDigit = true) (hleast : least ≤ ds.length)
    (hmost : ds.length ≤ most) (htail : tail.head?.all (!isDecimalDigit ·) = true) :
    digits? least most (ds ++ tail) = some (ds, tail) := by
  obtain ⟨htake, hdrop⟩ := span_append (fun c hc => isDecimalDigit_of_isDigit (hds c hc)) htail
  rw [digits?, htake, hdrop]
  exact if_pos (by simp [hleast, hmost])

theorem digits?_eq_none (htail : tail.head?.all (!isDecimalDigit ·) = true) (hleast : 0 < least) :
    digits? least most tail = none := by
  obtain ⟨htake, -⟩ := span_append (s := []) (fun c hc => absurd hc List.not_mem_nil) htail
  rw [List.nil_append] at htake
  rw [digits?, htake]
  exact if_neg (by simp; omega)

theorem plainNumber_padded {width n : Nat} (h : n < 10 ^ width) :
    plainNumber (padded width n) = toString n := by
  rw [plainNumber, if_pos, ofDigits_padded h]
  rw [List.all_eq_true]
  exact fun c hc => isDigit_of_mem_padded hc

theorem isEmpty_toString (n : Nat) : (toString n).isEmpty = false := by
  rw [← Bool.not_eq_true, String.isEmpty_iff]
  intro h
  exact Nat.toDigits_ne_nil (Nat.toList_repr.symm.trans (congrArg String.toList h))

end Digits

section Marks

def mark (s e : Char) (season episode : Nat) : List Char :=
  s :: (padded 2 season ++ e :: padded (if episode < 100 then 2 else 3) episode)

variable {s e : Char} {rest : List Char}

theorem isAlphanum_of_mem_mark (hs : s = 'S' ∨ s = 's') (he : e = 'E' ∨ e = 'e')
    (season episode : Nat) : ∀ c ∈ mark s e season episode, c.isAlphanum = true := by
  have hdigit {width n : Nat} {c : Char} (hc : c ∈ padded width n) : c.isAlphanum = true := by
    rw [Char.isAlphanum, isDigit_of_mem_padded hc, Bool.or_true]
  intro c hc
  rcases List.mem_cons.1 hc with rfl | hc
  · rcases hs with rfl | rfl <;> rfl
  · rcases List.mem_append.1 hc with hc | hc
    · exact hdigit hc
    · rcases List.mem_cons.1 hc with rfl | hc
      · rcases he with rfl | rfl <;> rfl
      · exact hdigit hc

theorem five_le_length_mark (s e : Char) (season episode : Nat) :
    5 ≤ (mark s e season episode).length := by
  rw [mark, List.length_cons, List.length_append, length_padded, List.length_cons, length_padded]
  split <;> omega

theorem episodeMark?_mark (hs : s = 'S' ∨ s = 's') (he : e = 'E' ∨ e = 'e')
    (season episode : Nat) (hrest : endsOrGoesOn rest = true) :
    episodeMark? (mark s e season episode ++ rest) =
      some (padded 2 season, padded (if episode < 100 then 2 else 3) episode) := by
  have hdigit (width n : Nat) : ∀ c ∈ padded width n, c.isDigit = true :=
    fun c hc => isDigit_of_mem_padded hc
  have hseason (tail : List Char) :
      digits? 1 2 (padded 2 season ++ e :: tail) = some (padded 2 season, e :: tail) := by
    apply digits?_append (hdigit 2 season)
    · rw [length_padded]
      decide
    · rw [length_padded]
    · rcases he with rfl | rfl <;> rfl
  have hepisode {width : Nat} (hwidth : 2 ≤ width ∧ width ≤ 3) :
      digits? 2 3 (padded width episode ++ rest) = some (padded width episode, rest) := by
    apply digits?_append (hdigit width episode)
    · rw [length_padded]
      exact hwidth.1
    · rw [length_padded]
      exact hwidth.2
    · exact not_isDecimalDigit_of_endsOrGoesOn hrest
  have hwidth : 2 ≤ (if episode < 100 then 2 else 3) ∧ (if episode < 100 then 2 else 3) ≤ 3 := by
    split <;> decide
  have hletters : sameLetter s 'S' = true ∧ sameLetter e 'E' = true := by
    constructor
    · rcases hs with rfl | rfl <;> rfl
    · rcases he with rfl | rfl <;> rfl
  simp only [mark, List.cons_append, List.append_assoc, episodeMark?, hletters.1, if_true, hseason,
    Option.bind_some, episode?, hletters.2, hepisode hwidth, hrest, Option.some_or]

/-- A word is no mark, if a separator or another letter follows its first letter. -/
theorem episodeMark?_of_isAlpha {c : Char} {r : List Char} (hc : c.isAlpha = true)
    (hr : r.head?.all (!isDecimalDigit ·) = true) : episodeMark? (c :: r) = none := by
  have hhead : (c :: r).head?.all (!isDecimalDigit ·) = true := by
    simp [not_isDecimalDigit_of_isAlpha hc]
  have hlong : digits? 1 2 r = none := digits?_eq_none hr Nat.zero_lt_one
  have hshort : digits? 1 2 (c :: r) = none := digits?_eq_none hhead Nat.zero_lt_one
  simp only [episodeMark?, hlong, hshort, Option.bind_none, ite_self, Option.or_none]

end Marks

section Titles

variable {title : List Char}

/-- Letters do not end a title. -/
theorem findMark_letters {α : Type} (mark? : List Char → Option α) {w : List Char}
    (hw : ∀ c ∈ w, c.isAlpha = true) (title s : List Char) :
    findMark mark? title (w ++ s) = findMark mark? (title ++ w) s := by
  induction w generalizing title with
  | nil => rw [List.nil_append, List.append_nil]
  | cons c w ih =>
    obtain ⟨hc, hw⟩ := List.forall_mem_cons.1 hw
    rw [List.cons_append, findMark, not_isSeparator_of_isAlpha hc, Bool.and_false,
      ne_newline_of_isAlpha hc]
    change findMark mark? (title ++ [c]) (w ++ s) = _
    rw [ih hw, List.append_assoc, List.singleton_append]

theorem Title.head (h : Title title) (tail : List Char) :
    ∃ c r, title = c :: r ∧ c.isAlpha = true ∧
      ∀ d ∈ ['.', '_', ' '], (r ++ d :: tail).head?.all (!isDecimalDigit ·) = true := by
  have hdigit {d : Char} (hd : d ∈ ['.', '_', ' ']) : isDecimalDigit d = false :=
    not_isDecimalDigit_of_mem (List.mem_append_left ['-'] hd)
  cases h with
  | word hne hw =>
    obtain ⟨c, r, rfl⟩ := List.exists_cons_of_ne_nil hne
    obtain ⟨hc, hr⟩ := List.forall_mem_cons.1 hw
    refine ⟨c, r, rfl, hc, fun d hd => ?_⟩
    cases r with
    | nil => simp [hdigit hd]
    | cons c' r => simp [not_isDecimalDigit_of_isAlpha (hr c' List.mem_cons_self)]
  | @joined w t sep hne hw hsep ht =>
    obtain ⟨c, r, rfl⟩ := List.exists_cons_of_ne_nil hne
    obtain ⟨hc, hr⟩ := List.forall_mem_cons.1 hw
    refine ⟨c, r ++ sep :: t, rfl, hc, fun d hd => ?_⟩
    cases r with
    | nil => simp [hdigit hsep]
    | cons c' r => simp [not_isDecimalDigit_of_isAlpha (hr c' List.mem_cons_self)]

theorem Title.last (h : Title title) : ∃ c, title.getLast? = some c ∧ c.isAlpha = true := by
  induction h with
  | @word w hne hw =>
    exact ⟨w.getLast hne, List.getLast?_eq_some_getLast hne, hw _ (List.getLast_mem hne)⟩
  | @joined w t sep _ _ _ _ ih =>
    obtain ⟨c, hc, halpha⟩ := ih
    refine ⟨c, ?_, halpha⟩
    rw [List.getLast?_append, List.getLast?_cons, hc]
    rfl

/-- The first mark behind a title ends it: words are no marks. -/
theorem findMark_title (h : Title title) {sep : Char} (hsep : sep ∈ ['.', '_', ' '])
    {rest : List Char} {m : List Char × List Char} (hm : episodeMark? rest = some m)
    (before : List Char) :
    findMark episodeMark? before (title ++ sep :: rest) = some (before ++ title, m) := by
  induction h generalizing before with
  | @word w hne hw =>
    have hstarted : (before ++ w).isEmpty = false := by simp [hne]
    rw [findMark_letters _ hw, findMark, hstarted, isSeparator_iff.2 hsep]
    simp [hm]
  | @joined w t d hne hw hd ht ih =>
    obtain ⟨c, r, rfl, hc, hr⟩ := ht.head rest
    have hnone : episodeMark? ((c :: r) ++ sep :: rest) = none :=
      episodeMark?_of_isAlpha hc (hr sep hsep)
    have hline : (d == '\n') = false := by
      simp only [List.mem_cons, List.not_mem_nil, or_false] at hd
      rcases hd with rfl | rfl | rfl <;> rfl
    rw [List.append_assoc, findMark_letters _ hw, List.cons_append, findMark, hnone, ite_self, hline]
    change findMark episodeMark? (before ++ w ++ [d]) _ = _
    rw [ih]
    simp

theorem cleanTitle_title (h : Title title) :
    cleanTitle title = String.ofList (title.map fun c => if c = '.' ∨ c = '_' then ' ' else c) := by
  have hspaced : title.map (fun c => if isSeparator c then ' ' else c) =
      title.map fun c => if c = '.' ∨ c = '_' then ' ' else c := by
    apply List.map_congr_left
    intro c _
    by_cases hspace : c = ' ' <;> simp [isSeparator, hspace]
  have hletter {c : Char} (hc : c.isAlpha = true) :
      !isBlank (if isSeparator c then ' ' else c) = true := by
    rw [not_isSeparator_of_isAlpha hc]
    simp [not_isBlank_of_isAlphanum (isAlphanum_of_isAlpha hc)]
  obtain ⟨c, r, hr, hc, -⟩ := h.head []
  obtain ⟨d, hd, halpha⟩ := h.last
  rw [cleanTitle, trim_of_ends, hspaced]
  · rw [hr]
    simpa using hletter hc
  · rw [List.getLast?_map, hd]
    simpa using hletter halpha

end Titles

section Names

variable {rest : List Char}

theorem endsOrGoesOn_of_head (hstart : ∀ c ∈ rest.head?, c ∈ ['.', '_', ' ', '-'])
    (hline : '\n' ∉ rest) : endsOrGoesOn rest = true := by
  cases rest with
  | nil => rfl
  | cons c r =>
    have hc := hstart c rfl
    have hr : '\n' ∉ r := fun hmem => hline (List.mem_cons_of_mem c hmem)
    simp only [List.mem_cons, List.not_mem_nil, or_false] at hc
    rcases hc with rfl | rfl | rfl | rfl <;> simp [endsOrGoesOn, isSeparator, hr]

theorem endsOrGoesOn_of_append {r t : List Char} (h : endsOrGoesOn (r ++ t) = true) :
    endsOrGoesOn r = true := by
  cases r with
  | nil => rfl
  | cons c r =>
    simp only [List.cons_append, endsOrGoesOn, Bool.and_eq_true, Bool.not_eq_true',
      List.contains_eq_mem, decide_eq_false_iff_not, List.mem_append, not_or] at h ⊢
    exact ⟨h.1, h.2.1⟩

/-- Extensions of video files are short. -/
theorem length_of_videoExtension {s : List Char}
    (h : videoExtensions.contains (String.ofList (lower s)) = true) : s.length ≤ 4 := by
  have hall : videoExtensions.all
      (fun e => e.toList.length ≤ 4 && e.toList.all (·.val < 128)) = true := by decide
  have he := List.all_eq_true.1 hall _ (List.contains_iff_mem.1 h)
  rw [String.toList_ofList, Bool.and_eq_true, decide_eq_true_iff, List.all_eq_true] at he
  obtain ⟨hlength, hascii⟩ := he
  rwa [lower_eq_map_of_ascii fun c hc => of_decide_eq_true (hascii c hc), List.length_map] at hlength

/-- The extension that is taken off a name lies behind any part of five characters without a point. -/
theorem splitContainer_append {m : List Char} (hpoint : '.' ∉ m) (hlength : 5 ≤ m.length)
    (a rest : List Char) : ∃ r, r <+: rest ∧ (splitContainer (a ++ m ++ rest)).1 = a ++ m ++ r := by
  unfold splitContainer
  split
  · next stem extension hsplit =>
    dsimp only
    split
    · next hvideo =>
      have hshort := length_of_videoExtension hvideo
      rcases List.append_eq_append_iff.1 (append_of_splitLast hsplit) with
        ⟨r, hstem, hrest⟩ | ⟨t, hstem, hrest⟩
      · exact ⟨r, ⟨_, hrest.symm⟩, hstem⟩
      · cases t with
        | nil => exact ⟨[], List.nil_prefix, by simpa using hstem.symm⟩
        | cons point t =>
          -- the point would have to be among the last characters of the part
          obtain ⟨rfl, hextension⟩ : '.' = point ∧ extension = t ++ rest := List.cons.inj hrest
          have hsuffix : '.' :: t <:+ m := by
            apply List.suffix_of_suffix_length_le ⟨stem, hstem.symm⟩ (List.suffix_append a m)
            rw [hextension, List.length_append] at hshort
            rw [List.length_cons]
            omega
          exact absurd (hsuffix.subset List.mem_cons_self) hpoint
    · exact ⟨rest, List.prefix_rfl, rfl⟩
  · exact ⟨rest, List.prefix_rfl, rfl⟩

theorem titleProperties_of_mark {stem title season episode : List Char}
    (h : findMark episodeMark? [] stem = some (title, season, episode)) :
    titleProperties stem = [("title", cleanTitle title), ("season", plainNumber season),
      ("episode", plainNumber episode), ("type", "episode")] := by
  rw [titleProperties, h]

/-- A property that the title tells is found behind the container, which has a key of its own. -/
theorem property_of_titleProperties {name key value : String} {stem : List Char}
    (hstem : (splitContainer (trim name.toList)).1 = stem) (hkey : key ≠ "container")
    (hvalue : ((titleProperties stem).filter (!·.2.isEmpty)).find? (·.1 = key) =
      some (key, value)) : property name key = value := by
  obtain ⟨container, hsplit⟩ : ∃ container,
      splitContainer (trim name.toList) = (stem, container) := ⟨_, Prod.ext hstem rfl⟩
  have hcontainer : ((container.toList.map fun v => ("container", v)).filter
      (!·.2.isEmpty)).find? (·.1 = key) = none := by
    cases container <;> simp [List.filter_cons, hkey.symm]
  have hfound : (properties name).find? (·.1 = key) = some (key, value) := by
    simp only [properties, hsplit, List.filter_append, List.append_assoc, List.find?_append,
      hcontainer, hvalue, Option.none_or, Option.some_or]
  rw [property, hfound]
  rfl

end Names

section Episodes

variable {title : List Char} (htitle : Title title) {s e : Char}
  (hs : s = 'S' ∨ s = 's') (he : e = 'E' ∨ e = 'e')

include htitle hs he

/-- Of the name of an episode, nothing is taken off but parts of what follows the mark. -/
theorem stem_of_episode (sep : Char) (season episode : Nat) (rest : List Char) :
    ∃ r, r <+: rest ∧
      (splitContainer (trim (title ++ sep :: (mark s e season episode ++ rest)))).1 =
        title ++ sep :: (mark s e season episode ++ r) := by
  have hmark := isAlphanum_of_mem_mark hs he season episode
  have hlength := five_le_length_mark s e season episode
  have hpoint : '.' ∉ mark s e season episode := by
    intro hmem
    cases hmark '.' hmem
  have hhead : (title ++ sep :: mark s e season episode).head?.any (!isBlank ·) = true := by
    obtain ⟨c, r, rfl, hc, -⟩ := htitle.head []
    simp [not_isBlank_of_isAlphanum (isAlphanum_of_isAlpha hc)]
  have hlast : (title ++ sep :: mark s e season episode).getLast?.any (!isBlank ·) = true := by
    have hne : mark s e season episode ≠ [] := List.cons_ne_nil _ _
    have hend := not_isBlank_of_isAlphanum (hmark _ (List.getLast_mem hne))
    rw [List.append_cons, List.getLast?_append, List.getLast?_eq_some_getLast hne]
    simp [hend]
  obtain ⟨r, hr, hstem⟩ :=
    splitContainer_append hpoint hlength (title ++ [sep]) (trimEnd rest)
  refine ⟨r, hr.trans (prefix_trimEnd rest), ?_⟩
  have hparts (tail : List Char) : title ++ sep :: (mark s e season episode ++ tail) =
      title ++ [sep] ++ mark s e season episode ++ tail := by simp
  rw [List.append_cons] at hhead hlast
  rw [hparts, hparts, trim_append_of_ends hhead hlast, hstem]

theorem told_by_episode {sep : Char} (hsep : sep ∈ ['.', '_', ' ']) {season episode : Nat}
    (hseason : season < 100) (hepisode : episode < 1000) {r : List Char}
    (hr : endsOrGoesOn r = true) :
    (titleProperties (title ++ sep :: (mark s e season episode ++ r))).filter (!·.2.isEmpty) =
      [("title", String.ofList (title.map fun c => if c = '.' ∨ c = '_' then ' ' else c)),
        ("season", toString season), ("episode", toString episode), ("type", "episode")] := by
  have hmark := episodeMark?_mark hs he season episode hr
  have hwidth : episode < 10 ^ (if episode < 100 then 2 else 3) := by split <;> omega
  have htold := titleProperties_of_mark (findMark_title htitle hsep hmark [])
  rw [List.nil_append, cleanTitle_title htitle, plainNumber_padded hseason,
    plainNumber_padded hwidth] at htold
  have hnonempty : (String.ofList
      (title.map fun c => if c = '.' ∨ c = '_' then ' ' else c)).isEmpty = false := by
    obtain ⟨c, t, rfl, -⟩ := htitle.head []
    simp
  rw [htold, List.filter_eq_self]
  simp only [List.mem_cons, List.not_mem_nil, or_false]
  rintro _ (rfl | rfl | rfl | rfl)
  · simp only [hnonempty, Bool.not_false]
  · simp only [isEmpty_toString, Bool.not_false]
  · simp only [isEmpty_toString, Bool.not_false]
  · rfl

/-- The name of an episode tells its title, season and episode, whatever follows the mark. -/
theorem property_episode (sep : Char) (hsep : sep ∈ ['.', '_', ' ']) (season episode : Nat)
    (hseason : season < 100) (hepisode : episode < 1000) (rest : List Char)
    (hstart : ∀ c ∈ rest.head?, c ∈ ['.', '_', ' ', '-']) (hline : '\n' ∉ rest) :
    let name := String.ofList (title ++ sep :: (mark s e season episode ++ rest))
    property name "title" =
      String.ofList (title.map fun c => if c = '.' ∨ c = '_' then ' ' else c) ∧
    property name "season" = toString season ∧ property name "episode" = toString episode ∧
    property name "type" = "episode" := by
  intro name
  obtain ⟨r, ⟨t, rfl⟩, hstem⟩ := stem_of_episode htitle hs he sep season episode rest
  have hname : (splitContainer (trim name.toList)).1 =
      title ++ sep :: (mark s e season episode ++ r) := by
    rw [String.toList_ofList]
    exact hstem
  have htold := told_by_episode htitle hs he hsep hseason hepisode
    (endsOrGoesOn_of_append (endsOrGoesOn_of_head hstart hline))
  refine ⟨?_, ?_, ?_, ?_⟩
  all_goals
    apply property_of_titleProperties hname (by decide)
    rw [htold]
    rfl

end Episodes

theorem property_episode_long_rest :
    let name := "My_Show.S01e100.2010.S02E03.mkv"
    property name "title" = "My Show" ∧ property name "season" = "1" ∧
      property name "episode" = "100" ∧ property name "type" = "episode" := by
  have htitle : Title ['M', 'y', '_', 'S', 'h', 'o', 'w'] :=
    .joined (List.cons_ne_nil 'M' ['y']) (by simp) (by simp)
      (.word (List.cons_ne_nil 'S' ['h', 'o', 'w']) (by simp))
  exact property_episode htitle (.inl rfl) (.inr rfl) '.' (by simp) 1 100 (by decide) (by decide)
    ['.', '2', '0', '1', '0', '.', 'S', '0', '2', 'E', '0', '3', '.', 'm', 'k', 'v'] (by simp)
    (by simp)

end TorrentQuery.Release
