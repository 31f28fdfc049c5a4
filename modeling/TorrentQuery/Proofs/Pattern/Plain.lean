import Mathlib.Data.List.TakeWhile
import TorrentQuery.Pattern.Needle
import TorrentQuery.Pattern.Regex.Reader

namespace TorrentQuery.Regex

open Needle (isRunChar)

open Number Text

/-- Characters that escape, open or close something, or repeat it at least once. -/
def signs : List Char := ['\\', '[', ']', '(', ')', '+']

def isPlain (c : Char) : Bool := !signs.contains c

theorem isPlain_eq_false {c : Char} (h : isPlain c = false) :
    c = '\\' ∨ c = '[' ∨ c = ']' ∨ c = '(' ∨ c = ')' ∨ c = '+' := by
  have hc : c ∈ signs := by rwa [isPlain, Bool.not_eq_false', List.contains_iff_mem] at h
  simpa only [signs, List.mem_cons, List.not_mem_nil, or_false] using hc

/-- What holds for no sign holds for plain characters only. -/
theorem isPlain_of {p : Char → Bool} (hp : signs.any p = false) {c : Char} (hc : p c = true) :
    isPlain c = true := by
  rw [isPlain, Bool.not_eq_true', List.contains_eq_mem, decide_eq_false_iff_not]
  intro hmem
  exact List.any_eq_false.1 hp c hmem hc

theorem head?_ne {s : List Char} {c : Char} (h : ∀ r, s = c :: r → False) : s.head? ≠ some c := by
  intro hhead
  obtain ⟨r, hr⟩ := List.head?_eq_some_iff.1 hhead
  exact h r hr

/-- What is left of a text behind some characters that satisfy `p`. -/
def Past (p : Char → Bool) (s rest : List Char) : Prop := ∃ a, s = a ++ rest ∧ ∀ c ∈ a, p c = true

namespace Past

variable {p q : Char → Bool} {s t u : List Char}

theorem refl (p : Char → Bool) (s : List Char) : Past p s s := ⟨[], rfl, by simp⟩

theorem cons {c : Char} (hc : p c = true) (h : Past p s t) : Past p (c :: s) t := by
  obtain ⟨a, rfl, ha⟩ := h
  exact ⟨c :: a, rfl, List.forall_mem_cons.2 ⟨hc, ha⟩⟩

theorem trans (h : Past p s t) (h' : Past p t u) : Past p s u := by
  obtain ⟨a, rfl, ha⟩ := h
  obtain ⟨b, rfl, hb⟩ := h'
  exact ⟨a ++ b, (List.append_assoc a b u).symm, List.forall_mem_append.2 ⟨ha, hb⟩⟩

theorem mono (hpq : ∀ c, p c = true → q c = true) (h : Past p s t) : Past q s t := by
  obtain ⟨a, rfl, ha⟩ := h
  exact ⟨a, rfl, fun c hc => hpq c (ha c hc)⟩

theorem dropWhile (p : Char → Bool) (s : List Char) : Past p s (s.dropWhile p) :=
  ⟨s.takeWhile p, List.takeWhile_append_dropWhile.symm, fun _ hc => List.mem_takeWhile_imp hc⟩

end Past

section Braces

variable {p : Char → Bool} {stop c : Char} {s rest : List Char}

theorem eq_of_dropWhile_ne (h : s.dropWhile (· != stop) = c :: rest) : c = stop := by
  have hc := List.head?_dropWhile_not (· != stop) s
  rw [h] at hc
  simpa using hc

/-- A body up to the character that ends it. -/
theorem Past.body (h : s.dropWhile (· != stop) = c :: rest)
    (hbody : ∀ d ∈ s.takeWhile (· != stop), p d = true) (hstop : p stop = true) :
    Past p s rest := by
  have hs := (List.takeWhile_append_dropWhile (p := (· != stop)) (l := s)).symm
  rw [h, eq_of_dropWhile_ne h] at hs
  exact Past.trans ⟨_, hs, hbody⟩ (.cons hstop (.refl _ _))

theorem Past.dropWhile_ne (h : Past p s (stop :: rest)) (hp : p stop = false) :
    s.dropWhile (· != stop) = stop :: rest := by
  obtain ⟨a, rfl, ha⟩ := h
  have hne : ∀ d ∈ a, (d != stop) = true := by
    intro d hd
    rw [bne_iff_ne]
    rintro rfl
    rw [ha _ hd] at hp
    cases hp
  rw [List.dropWhile_append_of_pos hne]
  exact List.dropWhile_cons_of_neg (by simp)

end Braces

section Hex

theorem isHexDigit_of_hexChar? {ds : List Char} {c : Char} (h : hexChar? ds = some c) :
    ∀ d ∈ ds, isHexDigit d = true := by
  obtain ⟨n, hn, -⟩ := Option.bind_eq_some_iff.1 h
  have hfold (m : Nat) (hm : ds.foldlM (fun n c => (hexValue? c).map (16 * n + ·)) m = some n) :
      ∀ d ∈ ds, isHexDigit d = true := by
    clear hn h
    induction ds generalizing m with
    | nil => simp
    | cons d ds ih =>
      rw [List.foldlM_cons] at hm
      obtain ⟨k, hk, hrest⟩ := Option.bind_eq_some_iff.1 hm
      obtain ⟨v, hv, -⟩ := Option.map_eq_some_iff.1 hk
      have hd : isHexDigit d = true := by rw [isHexDigit, hv, Option.isSome_some]
      exact List.forall_mem_cons.2 ⟨hd, ih k hrest⟩
  exact hfold 0 hn

theorem isRunChar_of_isHexDigit {c : Char} (h : isHexDigit c = true) : isRunChar c = true := by
  obtain ⟨v, hv⟩ := Option.isSome_iff_exists.1 h
  unfold hexValue? at hv
  suffices halpha : c.isAlphanum = true by rw [isRunChar, halpha, Bool.true_or, Bool.true_or]
  rw [Char.isAlphanum, Bool.or_eq_true]
  split at hv
  · next hdigit => exact .inr hdigit
  refine .inl (Bool.or_eq_true_iff.2 ?_)
  split at hv
  · next hrange =>
    simp only [Bool.and_eq_true, decide_eq_true_eq] at hrange
    have hlast : c ≤ 'z' := Char.le_trans (b := 'f') hrange.2 (by decide)
    exact .inr (Bool.and_eq_true_iff.2 ⟨decide_eq_true hrange.1, decide_eq_true hlast⟩)
  split at hv
  · next hrange =>
    simp only [Bool.and_eq_true, decide_eq_true_eq] at hrange
    have hlast : c ≤ 'Z' := Char.le_trans (b := 'F') hrange.2 (by decide)
    exact .inl (decide_eq_true ⟨hrange.1, hlast⟩)
  · cases hv

end Hex

section Escapes

variable {lib : Library} {f : Flags}

theorem skip_eq (hf : f.spaced = false) (s : List Char) : f.skip s = s := by
  simp [Flags.skip, hf]

/-- What an escape takes behind its letter: nothing, or a body in braces. -/
def Braced (r rest : List Char) : Prop :=
  r = rest ∨ ∃ t, r = '\x7b' :: t ∧ t.dropWhile (· != '\x7d') = '\x7d' :: rest

theorem Braced.of_dropWhile {t rest : List Char} {c : Char}
    (h : t.dropWhile (· != '\x7d') = c :: rest) : Braced ('\x7b' :: t) rest :=
  .inr ⟨t, rfl, by rw [h, eq_of_dropWhile_ne h]⟩

theorem eq_append_of_digits (hf : f.spaced = false) {n : Nat} {s ds rest : List Char}
    (h : readHex.digits f n s = some (ds, rest)) : s = ds ++ rest := by
  induction n generalizing s ds with
  | zero =>
    cases h
    rfl
  | succ n ih =>
    rw [readHex.digits, skip_eq hf] at h
    split at h
    · cases h
    · obtain ⟨⟨es, t⟩, hrest, heq⟩ := Option.map_eq_some_iff.1 h
      cases heq
      rw [ih hrest, List.cons_append]

/-- What an escape with a longer name takes: a plain body in braces, or characters without. -/
def Named (s rest : List Char) : Prop :=
  Past isPlain s rest ∧ (Braced s rest ∨ s.head? ≠ some '\x7b' ∧ Past isRunChar s rest)

theorem isPlain_of_isRunChar (c : Char) (h : isRunChar c = true) : isPlain c = true :=
  isPlain_of (by decide) h

theorem Named.bare {s rest : List Char} (hs : s.head? ≠ some '\x7b') (h : Past isRunChar s rest) :
    Named s rest := ⟨h.mono isPlain_of_isRunChar, .inr ⟨hs, h⟩⟩

theorem Named.braced {s rest : List Char} {c : Char} (h : s.dropWhile (· != '\x7d') = c :: rest)
    (hbody : ∀ d ∈ s.takeWhile (· != '\x7d'), isPlain d = true) : Named ('\x7b' :: s) rest :=
  ⟨.cons (by decide) (.body h hbody (by decide)), .inl (.of_dropWhile h)⟩

theorem named_of_readHex (hf : f.spaced = false) {width : Nat} {s rest : List Char} {e : Escape}
    (h : readHex f width s = some (e, rest)) : Named s rest := by
  rw [readHex, skip_eq hf] at h
  split at h
  · next r =>
    split at h
    · cases h
    · next rest' hrest =>
      simp only [hf, Bool.false_eq_true, if_false] at h
      obtain ⟨c, hc, heq⟩ := Option.map_eq_some_iff.1 h
      cases heq
      refine .braced hrest fun d hd => isPlain_of_isRunChar d ?_
      exact isRunChar_of_isHexDigit (isHexDigit_of_hexChar? hc d hd)
  · next hbrace =>
    obtain ⟨⟨ds, rest'⟩, hds, h⟩ := Option.bind_eq_some_iff.1 h
    obtain ⟨c, hc, h⟩ := Option.bind_eq_some_iff.1 h
    cases h
    refine .bare (head?_ne hbrace) ⟨ds, eq_append_of_digits hf hds, fun d hd => ?_⟩
    exact isRunChar_of_isHexDigit (isHexDigit_of_hexChar? hc d hd)

def plainName : List Char → Bool
  | '\x7b' :: r => (r.takeWhile (· != '\x7d')).all isPlain
  | c :: _ => isRunChar c
  | [] => true

theorem named_of_readProperty (hf : f.spaced = false) {negated : Bool} {s rest : List Char}
    {set : CharSet} (h : readProperty lib f negated s = some (set, rest))
    (hname : plainName s = true) : Named s rest := by
  rw [readProperty, skip_eq hf] at h
  split at h
  · cases h
  split at h
  · next r =>
    extract_lets body named at h
    split at h
    · cases h
    · next rest' hrest =>
      suffices heq : rest' = rest from heq ▸ .braced hrest (List.all_eq_true.1 hname)
      have hmap {o : Option CharSet} {close : CharSet → CharSet}
          (h : o.map (fun set => (close set, rest')) = some (set, rest)) : rest' = rest := by
        obtain ⟨set, -, heq⟩ := Option.map_eq_some_iff.1 h
        exact (Prod.mk.inj heq).2
      split at h
      · exact hmap h
      split at h
      · exact hmap h
      split at h
      · exact hmap h
      · exact hmap h
  · next c r hbrace =>
    obtain ⟨set, -, heq⟩ := Option.map_eq_some_iff.1 h
    cases heq
    rw [plainName] at hname
    · refine .bare (fun hs => ?_) (.cons hname (.refl _ _))
      obtain rfl := Option.some.inj hs
      exact hbrace rfl
    · exact hbrace
  · cases h

theorem readBoundary_past (hf : f.spaced = false) {s rest : List Char} {p : Place}
    (h : readBoundary f s = some (p, rest)) : Past isPlain s rest ∧ Braced s rest := by
  have hnone : Past isPlain s s ∧ Braced s s := ⟨.refl _ _, .inl rfl⟩
  unfold readBoundary at h
  split at h
  · next r =>
    rw [skip_eq hf] at h
    split at h
    · cases h
    · next c t =>
      split at h
      · extract_lets name at h
        split at h
        · next rest' hrest =>
          obtain rfl : rest' = rest := by
            split at h <;> cases h <;> rfl
          have hname := Past.dropWhile isBoundaryNameChar (c :: t)
          rw [hrest] at hname
          have hbody := hname.mono fun _ => isPlain_of (by decide)
          exact ⟨.cons (by decide) (hbody.trans (.cons (by decide) (.refl _ _))),
            .inr ⟨_, rfl, hname.dropWhile_ne (by decide)⟩⟩
        · cases h
      · cases h
        exact hnone
  · cases h
    exact hnone

/-- Whether an escape has a longer name behind its letter, which does not stand in braces. -/
def isBare (c : Char) (r : List Char) : Bool :=
  ['x', 'u', 'U', 'p', 'P'].contains c && r.head? != some '\x7b'

def namesPlainly (c : Char) (r : List Char) : Bool := !(['p', 'P'].contains c) || plainName r

/-- An escape takes one character, and what the name behind it needs. -/
theorem readEscape_past (hf : f.spaced = false) {s rest : List Char} {e : Escape}
    (h : readEscape lib f s = some (e, rest)) :
    ∃ c r, s = c :: r ∧ (namesPlainly c r = true → Past isPlain r rest ∧
      (Braced r rest ∨ isBare c r = true ∧ Past isRunChar r rest)) := by
  unfold readEscape at h
  split at h
  · cases h
  · next c r =>
    refine ⟨c, r, rfl, fun hname => ?_⟩
    have hnone : Past isPlain r r ∧ (Braced r r ∨ isBare c r = true ∧ Past isRunChar r r) :=
      ⟨.refl _ _, .inl (.inl rfl)⟩
    have hlong (hc : ['x', 'u', 'U', 'p', 'P'].contains c = true) (h : Named r rest) :
        Past isPlain r rest ∧ (Braced r rest ∨ isBare c r = true ∧ Past isRunChar r rest) := by
      obtain ⟨hplain, hbraced | ⟨hhead, hrun⟩⟩ := h
      · exact ⟨hplain, .inl hbraced⟩
      · exact ⟨hplain, .inr ⟨by rwa [isBare, hc, Bool.true_and, bne_iff_ne], hrun⟩⟩
    split at h
    case h_1 | h_2 | h_3 => exact hlong rfl (named_of_readHex hf h)
    case h_4 | h_5 =>
      obtain ⟨⟨set, t⟩, hset, heq⟩ := Option.map_eq_some_iff.1 h
      cases heq
      exact hlong rfl (named_of_readProperty hf hset hname)
    case h_14 =>
      obtain ⟨⟨p, t⟩, hp, heq⟩ := Option.map_eq_some_iff.1 h
      cases heq
      exact ⟨(readBoundary_past hf hp).1, .inl (readBoundary_past hf hp).2⟩
    case h_18 =>
      split at h
      · cases h
        exact hnone
      · obtain ⟨set, -, heq⟩ := Option.map_eq_some_iff.1 h
        cases heq
        exact hnone
    all_goals
      cases h
      exact hnone

end Escapes

section Counts

variable {f : Flags}

def isCountChar (c : Char) : Bool := isBlank c || c.isDigit || c == ','

theorem isPlain_of_isCountChar (c : Char) (h : isCountChar c = true) : isPlain c = true :=
  isPlain_of (by decide) h

theorem readCount_digits_past (hf : f.spaced = false) {n : Nat} {s : List Char} :
    Past isCountChar s (readCount.digits f n s).2 := by
  induction n generalizing s with
  | zero => exact .refl _ _
  | succ n ih =>
    cases s with
    | nil => exact .refl _ _
    | cons c r =>
      rw [readCount.digits, skip_eq hf]
      split
      · next hc => exact .cons (by simp [isCountChar, hc]) ih
      · exact .refl _ _

theorem readCount_past (hf : f.spaced = false) {s rest : List Char} {n : Option Nat}
    (h : readCount f s = some (n, rest)) : Past isCountChar s rest := by
  have hblank (t : List Char) : Past isCountChar t (trimStart t) :=
    (Past.dropWhile isBlank t).mono fun c hc => by simp [isCountChar, hc]
  simp only [readCount, skip_eq hf] at h
  split at h
  · cases h
  · cases h
    exact ((hblank s).trans (readCount_digits_past hf)).trans (hblank _)

/-- The bounds of a repetition end with the first closing brace. -/
theorem readBounds_past (hf : f.spaced = false) {s rest : List Char} {least : Nat}
    {most : Option Nat} (h : readBounds f s = some (least, most, rest)) :
    Past isCountChar s ('\x7d' :: rest) := by
  rw [readBounds, skip_eq hf] at h
  obtain ⟨⟨n, t⟩, hcount, h⟩ := Option.bind_eq_some_iff.1 h
  have hleast := readCount_past hf hcount
  dsimp only at h
  split at h
  · obtain ⟨m, -, h⟩ := Option.bind_eq_some_iff.1 h
    cases h
    exact hleast
  · obtain ⟨m, -, h⟩ := Option.bind_eq_some_iff.1 h
    rw [skip_eq hf] at h
    split at h
    · cases h
      exact hleast.trans (.cons (by decide) (.refl _ _))
    · obtain ⟨⟨n', u⟩, hcount', h⟩ := Option.bind_eq_some_iff.1 h
      obtain ⟨m', -, h⟩ := Option.bind_eq_some_iff.1 h
      have hmost := hleast.trans (.cons (by decide) (readCount_past hf hcount'))
      dsimp only at h
      split at h
      · split at h
        · cases h
        · cases h
          exact hmost
      · cases h
  · cases h

end Counts

section Openings

/-- Characters that groups are read past: those of names may be closing brackets. -/
def isQuiet (c : Char) : Bool := isPlain c || c == ']'

theorem isQuiet_of_isPlain (c : Char) (h : isPlain c = true) : isQuiet c = true := by
  rw [isQuiet, h, Bool.true_or]

theorem isQuiet_of_not_mem {c : Char} (h : c ∉ ['\\', '[', '(', ')', '+']) : isQuiet c = true := by
  rw [isQuiet, Bool.or_eq_true]
  cases hplain : isPlain c with
  | true => exact .inl rfl
  | false =>
    rcases isPlain_eq_false hplain with rfl | rfl | rfl | rfl | rfl | rfl
    case inr.inr.inl => exact .inr rfl
    all_goals exact absurd (by decide) h

/-- Whether what follows an opening parenthesis names the group without an opening bracket, and does
not turn spaced mode on. -/
def opensPlainly : List Char → Bool
  | '?' :: 'P' :: '<' :: r => !(r.takeWhile (· != '>')).contains '['
  | '?' :: '<' :: r => !(r.takeWhile (· != '>')).contains '['
  | '?' :: r => !((r.takeWhile fun c => c != ':' && c != ')').takeWhile (· != '-')).contains 'x'
  | _ => true

theorem isQuiet_of_isGroupNameChar {c : Char} (h : isGroupNameChar c = true) (hc : c ≠ '[') :
    isQuiet c = true := by
  apply isQuiet_of_not_mem
  intro hmem
  simp only [List.mem_cons, List.not_mem_nil, or_false] at hmem
  rcases hmem with rfl | rfl | rfl | rfl | rfl
  case inr.inl => exact hc rfl
  all_goals exact absurd h (by decide)

section FlagNames

variable {f f' : Flags}

theorem forall_of_setAll? {p : Char → Prop} (hminus : p '-')
    (hset : ∀ (f : Flags) on c f', f.set? on c = some f' → p c) {on : Bool} {seen s : List Char}
    (h : Flags.setAll? on f seen s = some f') : ∀ c ∈ s, p c := by
  induction s generalizing on f seen with
  | nil => simp
  | cons c r ih =>
    rw [Flags.setAll?] at h
    split at h
    · cases h
    split at h
    · next hc =>
      rw [eq_of_beq hc]
      exact List.forall_mem_cons.2 ⟨hminus, ih h⟩
    · obtain ⟨g, hg, h⟩ := Option.bind_eq_some_iff.1 h
      exact List.forall_mem_cons.2 ⟨hset _ _ _ _ hg, ih h⟩

theorem isAlpha_of_set? {on : Bool} {c : Char} (h : f.set? on c = some f') : c.isAlpha = true := by
  unfold Flags.set? at h
  split at h <;> first | decide | cases h

theorem plain_of_setAll? {on : Bool} {seen s : List Char}
    (h : Flags.setAll? on f seen s = some f') : ∀ c ∈ s, isPlain c = true :=
  forall_of_setAll? (by decide) (fun _ _ _ _ hset => isPlain_of (by decide) (isAlpha_of_set? hset)) h

theorem set?_spaced {on : Bool} {c : Char} (h : f.set? on c = some f') (hc : on = true → c ≠ 'x')
    (hf : f.spaced = false) : f'.spaced = false := by
  unfold Flags.set? at h
  split at h
  case h_6 =>
    cases h
    cases on with
    | true => exact absurd rfl (hc rfl)
    | false => rfl
  case h_8 => cases h
  all_goals
    cases h
    exact hf

theorem setAll?_spaced {on : Bool} {seen s : List Char}
    (h : Flags.setAll? on f seen s = some f') (hs : on = true → 'x' ∉ s.takeWhile (· != '-'))
    (hf : f.spaced = false) : f'.spaced = false := by
  induction s generalizing on f seen with
  | nil =>
    rw [Flags.setAll?] at h
    split at h
    · cases h
    · cases h
      exact hf
  | cons c r ih =>
    rw [Flags.setAll?] at h
    split at h
    · cases h
    split at h
    · exact ih h (fun hon => nomatch hon) hf
    · next hc =>
      obtain ⟨g, hg, h⟩ := Option.bind_eq_some_iff.1 h
      have hgo : (c != '-') = true := by simpa [bne] using hc
      rw [List.takeWhile_cons, if_pos hgo] at hs
      exact ih h (fun hon hx => hs hon (List.mem_cons_of_mem _ hx))
        (set?_spaced hg (fun hon hx => hs hon (hx ▸ List.mem_cons_self)) hf)

end FlagNames

variable {f : Flags} {names : List String} {s rest : List Char} {o : Opening}

theorem readName_past (hs : '[' ∉ s.takeWhile (· != '>'))
    (h : readName f names s = some (o, rest)) :
    (∃ known, o = .group f known) ∧ Past isQuiet s rest := by
  rw [readName] at h
  split at h
  · cases h
  · next hclose =>
    split at h
    · next hname =>
      cases h
      rw [Bool.and_eq_true, Bool.and_eq_true] at hname
      have hquiet : ∀ d ∈ s.takeWhile (· != '>'), isQuiet d = true := by
        intro d hd
        refine isQuiet_of_isGroupNameChar (List.all_eq_true.1 hname.1.2 d hd) ?_
        rintro rfl
        exact hs hd
      exact ⟨⟨_, rfl⟩, .body hclose hquiet (by decide)⟩
    · cases h

/-- An opening that has been read, with the text from it on and the text behind it: what lies between
is quiet, but for the parenthesis that closes a change of flags. -/
def Opening.Between (s rest : List Char) : Opening → Prop
  | .directive inner => inner.spaced = false ∧ Past isQuiet s (')' :: rest)
  | .group inner _ => inner.spaced = false ∧ Past isQuiet s rest

theorem readOpening_between (hf : f.spaced = false) (hs : opensPlainly s = true)
    (h : readOpening f names s = some (o, rest)) : o.Between s rest := by
  have hnamed {t : List Char} (ht : (!(t.takeWhile (· != '>')).contains '[') = true)
      (h : readName f names t = some (o, rest)) {a : List Char} (ha : a.all isQuiet = true) :
      o.Between (a ++ t) rest := by
    obtain ⟨⟨known, rfl⟩, hrest⟩ := readName_past (by simpa using ht) h
    exact ⟨hf, Past.trans ⟨a, rfl, List.all_eq_true.1 ha⟩ hrest⟩
  rw [readOpening, skip_eq hf] at h
  split at h
  · next r => exact hnamed (a := ['?', 'P', '<']) hs h (by decide)
  · cases h
  · cases h
  · next r _ _ => exact hnamed (a := ['?', '<']) hs h (by decide)
  · next r hname _ _ hangle =>
    have hx : 'x' ∉ (r.takeWhile fun c => c != ':' && c != ')').takeWhile (· != '-') := by
      rw [opensPlainly.eq_3 _ hname hangle] at hs
      simpa using hs
    have hr := (List.takeWhile_append_dropWhile (p := fun c => c != ':' && c != ')') (l := r)).symm
    have hplain {inner : Flags}
        (hinner : Flags.setAll? true f [] (r.takeWhile fun c => c != ':' && c != ')') = some inner) :
        inner.spaced = false ∧ Past isQuiet ('?' :: r) (r.dropWhile fun c => c != ':' && c != ')') := by
      have hflags := fun c hc => isQuiet_of_isPlain c (plain_of_setAll? hinner c hc)
      exact ⟨setAll?_spaced hinner (fun _ => hx) hf, .cons (by decide) ⟨_, hr, hflags⟩⟩
    extract_lets flags at h
    split at h
    · next rest' hrest =>
      obtain ⟨inner, hinner, heq⟩ := Option.map_eq_some_iff.1 h
      cases heq
      rw [hrest] at hplain
      obtain ⟨hspaced, hpast⟩ := hplain hinner
      exact ⟨hspaced, hpast.trans (.cons (by decide) (.refl _ _))⟩
    · next rest' hrest =>
      split at h
      · cases h
      · obtain ⟨inner, hinner, heq⟩ := Option.map_eq_some_iff.1 h
        cases heq
        rw [hrest] at hplain
        exact hplain hinner
    · cases h
  · cases h
    exact ⟨hf, .refl _ _⟩

end Openings

end TorrentQuery.Regex
