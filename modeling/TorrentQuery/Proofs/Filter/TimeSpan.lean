import TorrentQuery.Filter.TimeSpan
import TorrentQuery.Proofs.Text.Split

namespace TorrentQuery.TimeSpan

open Number

structure Group where
  digits : List Char
  unit : Char × Nat

namespace Group

def written (g : Group) : List Char := g.digits ++ [g.unit.1]

def number (g : Group) : Nat := Nat.ofDigitChars 10 g.digits 0

def seconds (g : Group) : Nat := g.number * g.unit.2

end Group

def seconds : List Group → Nat
  | [] => 0
  | g :: gs => g.seconds + seconds gs

/-- A text is written with groups of the units in `us`, in their order and each at most once. -/
structure Spells (us : List (Char × Nat)) (gs : List Group) (s : List Char) : Prop where
  ordered : (gs.map Group.unit).Sublist us
  digits : ∀ g ∈ gs, g.digits ≠ [] ∧ ∀ c ∈ g.digits, c.isDigit = true
  text : gs.flatMap Group.written = s

/-- Neither a number nor its seconds leave 64 bits, nor do the sums on the way from `total`. -/
structure Fits (total : Nat) (gs : List Group) : Prop where
  numbers : ∀ g ∈ gs, g.number ≤ maxInt64
  products : ∀ g ∈ gs, g.seconds ≤ maxInt64
  sums : ∀ front, front <+: gs → total + seconds front ≤ maxInt64

section Groups

variable {total : Nat} {g : Group} {gs : List Group} {u : Char × Nat} {us : List (Char × Nat)}
  {s : List Char}

theorem written_append (g : Group) (r : List Char) :
    g.written ++ r = g.digits ++ g.unit.1 :: r := by
  rw [Group.written, List.append_assoc]
  rfl

theorem fits_nil (h : total ≤ maxInt64) : Fits total [] := by
  refine ⟨List.forall_mem_nil _, List.forall_mem_nil _, fun front hfront => ?_⟩
  rw [List.prefix_nil.1 hfront]
  exact h

theorem fits_cons_iff : Fits total (g :: gs) ↔
    (g.number ≤ maxInt64 ∧ g.seconds ≤ maxInt64 ∧ total + g.seconds ≤ maxInt64) ∧
      Fits (total + g.seconds) gs := by
  constructor
  · rintro ⟨hnumbers, hproducts, hsums⟩
    rw [List.forall_mem_cons] at hnumbers hproducts
    refine ⟨⟨hnumbers.1, hproducts.1, ?_⟩, hnumbers.2, hproducts.2, fun front hfront => ?_⟩
    · exact hsums [g] (List.prefix_append [g] gs)
    · rw [Nat.add_assoc]
      exact hsums (g :: front) (List.cons_prefix_cons.2 ⟨rfl, hfront⟩)
  · rintro ⟨⟨hnumber, hproduct, hsum⟩, hnumbers, hproducts, hsums⟩
    refine ⟨List.forall_mem_cons.2 ⟨hnumber, hnumbers⟩,
      List.forall_mem_cons.2 ⟨hproduct, hproducts⟩, fun front hfront => ?_⟩
    cases front with
    | nil => exact Nat.le_trans (Nat.le_add_right _ _) hsum
    | cons g' front =>
      obtain ⟨rfl, hrest⟩ := List.cons_prefix_cons.1 hfront
      rw [seconds, ← Nat.add_assoc]
      exact hsums front hrest

theorem Spells.skip (h : Spells us gs s) (u : Char × Nat) : Spells (u :: us) gs s :=
  ⟨h.ordered.cons u, h.digits, h.text⟩

theorem Spells.take (h : Spells us gs s) (hne : g.digits ≠ [])
    (hdigits : ∀ c ∈ g.digits, c.isDigit = true) :
    Spells (g.unit :: us) (g :: gs) (g.digits ++ g.unit.1 :: s) := by
  refine ⟨h.ordered.cons_cons g.unit, List.forall_mem_cons.2 ⟨⟨hne, hdigits⟩, h.digits⟩, ?_⟩
  rw [List.flatMap_cons, h.text, written_append]

/-- The first group, and what is left for the others. -/
theorem Spells.tail (h : Spells us (g :: gs) s) {vs : List (Char × Nat)}
    (hordered : (gs.map Group.unit).Sublist vs) :
    s = g.digits ++ g.unit.1 :: gs.flatMap Group.written ∧
      Spells vs gs (gs.flatMap Group.written) := by
  refine ⟨?_, hordered, (List.forall_mem_cons.1 h.digits).2, rfl⟩
  rw [← h.text, List.flatMap_cons, written_append]

end Groups

section Reading

variable {total n : Nat} {unit : Char} {length : Nat} {us : List (Char × Nat)} {gs : List Group}
  {s r : List Char}

/-- What is read consists of groups. -/
theorem spells_of_readFrom (h : readFrom total us s = some n) (htotal : total ≤ maxInt64) :
    ∃ gs, Spells us gs s ∧ Fits total gs ∧ n = total + seconds gs := by
  fun_induction readFrom total us s with
  | case1 total s hs =>
    cases h
    obtain rfl := List.isEmpty_iff.1 hs
    exact ⟨[], ⟨List.Sublist.refl _, List.forall_mem_nil _, rfl⟩, fits_nil htotal, rfl⟩
  | case2 => cases h
  | case3 total length us s d ds unit r hdrop htake number hfits ih =>
    obtain ⟨gs, hspells, hgs, rfl⟩ := ih h hfits.2.2
    have hdigits : ∀ c ∈ d :: ds, c.isDigit = true := by
      rw [← htake]
      exact List.all_eq_true.1 List.all_takeWhile
    refine ⟨⟨d :: ds, unit, length⟩ :: gs, ?_, fits_cons_iff.2 ⟨hfits, hgs⟩, ?_⟩
    · rw [← List.takeWhile_append_dropWhile (p := Char.isDigit) (l := s), htake, hdrop]
      exact hspells.take (g := ⟨d :: ds, unit, length⟩) (List.cons_ne_nil d ds) hdigits
    · rw [seconds, ← Nat.add_assoc]
      rfl
  | case4 => cases h
  | case5 total unit length us s d ds c r hdrop htake hc ih =>
    obtain ⟨gs, hspells, hgs⟩ := ih h htotal
    exact ⟨gs, hspells.skip _, hgs⟩
  | case6 total unit length us s hgroup ih =>
    obtain ⟨gs, hspells, hgs⟩ := ih h htotal
    exact ⟨gs, hspells.skip _, hgs⟩

/-- A unit that the text does not go on with is passed over. -/
theorem readFrom_skip (hspells : Spells us gs s)
    (hdigit : ∀ u ∈ us, u.1.isDigit = false) (hunit : ∀ u ∈ us, u.1 ≠ unit) :
    readFrom total ((unit, length) :: us) s = readFrom total us s := by
  cases gs with
  | nil =>
    obtain rfl := hspells.text
    rfl
  | cons g gs =>
    have hmem : g.unit ∈ us := hspells.ordered.subset List.mem_cons_self
    obtain ⟨hne, hdigits⟩ := hspells.digits g List.mem_cons_self
    obtain ⟨rfl, -⟩ := hspells.tail (List.Sublist.refl _)
    have hstop : (g.unit.1 :: gs.flatMap Group.written).head?.all (!Char.isDigit ·) = true := by
      simp [hdigit _ hmem]
    obtain ⟨htake, hdrop⟩ := Text.span_append hdigits hstop
    obtain ⟨d, ds, hcons⟩ := List.exists_cons_of_ne_nil hne
    rw [readFrom.eq_2, htake, hdrop, hcons]
    exact if_neg (hunit _ hmem)

/-- The number in front of its unit is added. -/
theorem readFrom_take {g : Group} (hne : g.digits ≠ [])
    (hdigits : ∀ c ∈ g.digits, c.isDigit = true) (hdigit : g.unit.1.isDigit = false)
    (hfits : g.number ≤ maxInt64 ∧ g.seconds ≤ maxInt64 ∧ total + g.seconds ≤ maxInt64) :
    readFrom total (g.unit :: us) (g.digits ++ g.unit.1 :: r) =
      readFrom (total + g.seconds) us r := by
  have hstop : (g.unit.1 :: r).head?.all (!Char.isDigit ·) = true := by simp [hdigit]
  obtain ⟨htake, hdrop⟩ := Text.span_append hdigits hstop
  obtain ⟨d, ds, hcons⟩ := List.exists_cons_of_ne_nil hne
  rw [Group.seconds, Group.number, hcons] at hfits ⊢
  rw [hcons] at htake hdrop
  rw [readFrom.eq_2, htake, hdrop]
  dsimp only
  rw [if_pos rfl]
  exact if_pos hfits

/-- Groups are read as what they are written as. -/
theorem readFrom_of_spells (hdigit : ∀ u ∈ us, u.1.isDigit = false)
    (hunits : (us.map Prod.fst).Nodup) (hspells : Spells us gs s) (hfits : Fits total gs) :
    readFrom total us s = some (total + seconds gs) := by
  induction us generalizing total gs s with
  | nil =>
    obtain rfl : gs = [] := List.map_eq_nil_iff.1 (List.sublist_nil.1 hspells.ordered)
    obtain rfl := hspells.text
    rfl
  | cons u us ih =>
    rw [List.forall_mem_cons] at hdigit
    rw [List.map_cons, List.nodup_cons] at hunits
    rcases List.sublist_cons_iff.1 hspells.ordered with hordered | ⟨vs, hgs, hordered⟩
    · -- the unit is left out
      have hrest : Spells us gs s := ⟨hordered, hspells.digits, hspells.text⟩
      have hunit : ∀ v ∈ us, v.1 ≠ u.1 := by
        rintro v hv heq
        exact hunits.1 (heq ▸ List.mem_map_of_mem hv)
      rw [readFrom_skip hrest hdigit.2 hunit]
      exact ih hdigit.2 hunits.2 hrest hfits
    · -- the first group has the unit
      obtain ⟨g, gs, rfl, rfl, rfl⟩ := List.map_eq_cons_iff.1 hgs
      obtain ⟨hne, hdigits⟩ := hspells.digits g List.mem_cons_self
      obtain ⟨rfl, hrest⟩ := hspells.tail hordered
      obtain ⟨hfirst, hfits⟩ := fits_cons_iff.1 hfits
      rw [readFrom_take hne hdigits hdigit.1 hfirst, seconds, ← Nat.add_assoc]
      exact ih hdigit.2 hunits.2 hrest hfits

end Reading

/-- A text is read as a span of time just when it consists of groups, one at least, of which the
units are in order and no two the same, and no number on the way leaves 64 bits. Then it is read as
the seconds of its groups, and any other text is no span. -/
theorem read?_eq_some_iff {s : List Char} {n : Nat} :
    read? s = some n ↔
      ∃ gs, gs ≠ [] ∧ Spells units gs s ∧ Fits 0 gs ∧ n = seconds gs := by
  have hempty {gs : List Group} (h : Spells units gs s) : s = [] ↔ gs = [] := by
    rw [← h.text]
    cases gs <;> simp [Group.written]
  unfold read?
  constructor
  · intro h
    split at h
    · cases h
    next hs =>
    obtain ⟨gs, hspells, hfits, hn⟩ := spells_of_readFrom h (Nat.zero_le _)
    rw [Nat.zero_add] at hn
    exact ⟨gs, fun hgs => hs (List.isEmpty_iff.2 ((hempty hspells).2 hgs)), hspells, hfits, hn⟩
  · rintro ⟨gs, hne, hspells, hfits, rfl⟩
    have hs : ¬s.isEmpty = true := fun hs => hne ((hempty hspells).1 (List.isEmpty_iff.1 hs))
    rw [if_neg hs, readFrom_of_spells (by decide) (by decide) hspells hfits, Nat.zero_add]

example : read? "1h30m".toList = some 5400 ∧ read? "30m1h".toList = none := by decide

end TorrentQuery.TimeSpan
