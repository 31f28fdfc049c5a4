import TorrentQuery.Pattern.Needle
import TorrentQuery.Proofs.Pattern.Plain

namespace TorrentQuery.Needle

open Regex

/-- The members of a set whose opening bracket has been read. A closing bracket in front is one of
them and is left out. -/
def members (s : List Char) : List Char :=
  let s := if s.head? == some '^' then s.drop 1 else s
  if s.head? == some ']' then s.drop 1 else s

theorem afterSet_eq (s : List Char) : afterSet s = afterSetMembers (members s) := rfl

theorem length_members (s : List Char) : (members s).length ≤ s.length := by
  have hdrop (t : List Char) (b : Bool) : (if b then t.drop 1 else t).length ≤ t.length := by
    cases b <;> simp
  exact (hdrop _ _).trans (hdrop _ _)

/-- Whether a set has no opening bracket among its members, from one of them on. -/
def flat : List Char → Bool
  | [] => true
  | ['\\'] => true
  | '\\' :: c :: r => namesPlainly c r && flat r
  | ']' :: _ => true
  | '[' :: _ => false
  | _ :: r => flat r

/-- Whether a set has no parenthesis among its members, and neither do the sets within it, from one
of its members on that is `depth` sets deep. No span may end with an opening bracket. -/
def clear (depth : Nat) : List Char → Bool
  | [] => true
  | ['\\'] => true
  | '\\' :: c :: r => namesPlainly c r && clear depth r
  | ']' :: r => depth = 0 || clear (depth - 1) r
  | '-' :: '[' :: _ => false
  | '[' :: r =>
    have : (members r).length < r.length + 1 := Nat.lt_succ_of_le (length_members r)
    clear (depth + 1) (members r)
  | c :: r => c != '(' && c != ')' && clear depth r
termination_by s => s.length

def loosensNext (s : List Char) : Bool :=
  s.head?.any ['?', '*', '\x7b'].contains

/-- The run that the scan goes on to read behind `run`. -/
def runFrom (run s : List Char) : List Char :=
  let longer := run ++ s.takeWhile isRunChar
  if loosensNext (s.dropWhile isRunChar) then longer.dropLast else longer

/-- Whether a text, `depth` groups deep, has nothing that the scan for runs misreads on its way to
the needle. That is: no group that has a bracket in its name or turns spaced mode on, outside of
groups no set within a set and nothing repeated at least once and then made optional, in groups no
set within a set that has a parenthesis, and no needle that begins with the name of an escape. -/
def tame (needle : List Char) (depth : Nat) : List Char → Bool
  | [] => true
  | ['\\'] => true
  | '\\' :: c :: r =>
    namesPlainly c r && (0 < depth || !isBare c r || runFrom [] r != needle) && tame needle depth r
  | '[' :: r =>
    (flat (members r) || (0 < depth && clear 0 (members r))) && match h : afterSet r with
      | none => true
      | some rest =>
        have : rest.length ≤ r.length := length_afterSet h
        tame needle depth rest
  | '(' :: r => opensPlainly r && tame needle (depth + 1) r
  | ')' :: r => tame needle (depth - 1) r
  | '+' :: r => (0 < depth || !loosensNext (skipReluctant r)) && tame needle depth r
  | _ :: r => tame needle depth r
termination_by s => s.length

section Members

variable {lib : Library} {f : Flags} {p : Char → Bool} {P : List Char → Prop} {s t u : List Char}

/-- What is left of a set behind members without brackets, whose characters satisfy `p`. -/
inductive Walks (p : Char → Bool) : List Char → List Char → Prop
  | refl (s : List Char) : Walks p s s
  | char {c : Char} {r t : List Char} : p c = true → Walks p r t → Walks p (c :: r) t
  | escape {c : Char} {r t : List Char} : Walks p r t → Walks p ('\\' :: c :: r) t

theorem Walks.trans (h : Walks p s t) (h' : Walks p t u) : Walks p s u := by
  induction h with
  | refl => exact h'
  | char hc _ ih => exact .char hc (ih h')
  | escape _ ih => exact .escape (ih h')

/-- What is asked of the members of a set, from one of them on, so that characters that are read
satisfy `p`. -/
structure Guards (p : Char → Bool) (P : List Char → Prop) : Prop where
  escape : ∀ c r, P ('\\' :: c :: r) → namesPlainly c r = true ∧ P r
  char : ∀ c r, c ≠ '\\' → c ≠ '[' → c ≠ ']' → P (c :: r) → p c = true ∧ P r
  span : ∀ r, ¬P ('-' :: '[' :: r)

variable (hP : Guards p P)

include hP

theorem walks_past (h : Past isPlain s t) (hs : P s) : Walks p s t ∧ P t := by
  obtain ⟨a, rfl, ha⟩ := h
  induction a with
  | nil => exact ⟨.refl _, hs⟩
  | cons c a ih =>
    obtain ⟨hc, ha⟩ := List.forall_mem_cons.1 ha
    have hne : c ≠ '\\' ∧ c ≠ '[' ∧ c ≠ ']' := by
      refine ⟨?_, ?_, ?_⟩
      all_goals
        rintro rfl
        exact absurd hc (by decide)
    obtain ⟨hpc, hrest⟩ := hP.char c _ hne.1 hne.2.1 hne.2.2 hs
    exact (ih ha hrest).imp_left (.char hpc)

theorem walks_readEscape (hf : f.spaced = false) {e : Escape}
    (h : readEscape lib f s = some (e, t)) (hs : P ('\\' :: s)) : Walks p ('\\' :: s) t ∧ P t := by
  obtain ⟨c, r, rfl, hpast⟩ := readEscape_past hf h
  obtain ⟨hname, hr⟩ := hP.escape c r hs
  exact (walks_past hP (hpast hname).1 hr).imp_left .escape

theorem walks_readMember (hf : f.spaced = false) {e : Escape}
    (h : readMember lib f s = some (e, t)) (hopen : s.head? ≠ some '[') (hclose : s.head? ≠ some ']')
    (hs : P s) : Walks p s t ∧ P t := by
  unfold readMember at h
  split at h
  · cases h
  · exact walks_readEscape hP hf h hs
  · next c r hc =>
    cases h
    have hne : c ≠ '[' ∧ c ≠ ']' := ⟨fun h => hopen (h ▸ rfl), fun h => hclose (h ▸ rfl)⟩
    exact (hP.char c t hc hne.1 hne.2 hs).imp_left fun hpc => .char hpc (.refl _)

theorem walks_readSpan (hf : f.spaced = false) {set : CharSet}
    (h : readSpan lib f s = some (set, t)) (hopen : s.head? ≠ some '[') (hclose : s.head? ≠ some ']')
    (hs : P s) : Walks p s t ∧ P t := by
  obtain ⟨⟨first, r⟩, hfirst, h⟩ := Option.bind_eq_some_iff.1 h
  obtain ⟨hwalk, hr⟩ := walks_readMember hP hf hfirst hopen hclose hs
  dsimp only at h
  rw [skip_eq hf] at h
  have halone {set : CharSet} (h : (setOf? f first).map (fun s => (s, r)) = some (set, t)) :
      Walks p s t ∧ P t := by
    obtain ⟨m, -, heq⟩ := Option.map_eq_some_iff.1 h
    cases heq
    exact ⟨hwalk, hr⟩
  split at h
  · cases h
  · next u =>
    rw [skip_eq hf] at h
    split at h
    · cases h
    · next c v =>
      split at h
      · exact halone h
      · next hc =>
        obtain ⟨⟨last, rest⟩, hlast, h⟩ := Option.bind_eq_some_iff.1 h
        -- a span that ends with an opening bracket is guarded against
        have hopen' : (c :: v).head? ≠ some '[' := by
          intro hhead
          obtain rfl := Option.some.inj hhead
          exact hP.span v hr
        have hclose' : (c :: v).head? ≠ some ']' := by
          intro hhead
          obtain rfl := Option.some.inj hhead
          exact hc rfl
        obtain ⟨hdash, hv⟩ := hP.char '-' _ (by decide) (by decide) (by decide) hr
        obtain ⟨hlast, hrest⟩ := walks_readMember hP hf hlast hopen' hclose' hv
        have hspan := hwalk.trans (.char hdash hlast)
        dsimp only at h
        split at h
        · split at h
          · cases h
          · cases h
            exact ⟨hspan, hrest⟩
        · cases h
  · exact halone h

/-- What is asked of the members of a set holds from its start on. -/
theorem walks_readSetStart (hf : f.spaced = false) {negated : Bool} {d : SetDraft}
    (hstart : readSetStart f s = (negated, d, u)) (hs : P (members s)) :
    Walks p (members s) u ∧ P u := by
  simp only [readSetStart, skip_eq hf] at hstart
  simp only [members] at hs ⊢
  obtain ⟨v, hv⟩ : ∃ v, (if (s.head? == some '^') = true then s.drop 1 else s) = v := ⟨_, rfl⟩
  rw [hv] at hstart hs ⊢
  split at hstart
  · cases hstart
    exact ⟨.refl _, hs⟩
  · next r =>
    cases hstart
    have hhyphens : Past isPlain r (readSetStart.hyphens f r) := by
      rw [readSetStart.hyphens, skip_eq hf]
      refine (Past.dropWhile _ r).mono fun c hc => ?_
      obtain rfl : c = '-' := by simpa [hf] using hc
      decide
    exact walks_past hP (.cons (by decide) hhyphens) hs
  · next hclose _ =>
    cases hstart
    rw [if_neg] at hs ⊢
    · exact ⟨.refl _, hs⟩
    all_goals
      exact fun hhead => head?_ne hclose (eq_of_beq hhead)

end Members

section Sets

variable {lib : Library} {f : Flags} {p : Char → Bool} {s t u : List Char}

theorem afterSetMembers_cons {c : Char} (hc : c ≠ '\\') (hc' : c ≠ ']') (r : List Char) :
    afterSetMembers (c :: r) = afterSetMembers r := by
  rw [afterSetMembers] <;> simp [hc, hc']

theorem Walks.afterSetMembers (hp : ∀ c, p c = true → c ≠ '\\' ∧ c ≠ ']') (h : Walks p s t) :
    afterSetMembers s = afterSetMembers t := by
  induction h with
  | refl => rfl
  | char hc _ ih =>
    obtain ⟨hescape, hclose⟩ := hp _ hc
    rw [afterSetMembers_cons hescape hclose, ih]
  | escape _ ih => rwa [Needle.afterSetMembers]

def isMember (c : Char) : Bool := c != '\\' && c != '[' && c != ']'

theorem ne_of_isMember {c : Char} (h : isMember c = true) : c ≠ '\\' ∧ c ≠ ']' := by
  constructor
  all_goals
    rintro rfl
    cases h

theorem guards_flat : Guards isMember (flat · = true) where
  escape c r h := by rwa [flat, Bool.and_eq_true] at h
  char c r hc hopen hclose h := by
    refine ⟨by simp [isMember, hc, hopen, hclose], ?_⟩
    rwa [flat] at h <;> simp [hc, hopen, hclose]
  span r h := by
    rw [flat, flat] at h
    · cases h
    all_goals simp

/-- The reader finds the end of a flat set where the scan does. -/
theorem afterSetMembers_of_readSet (hf : f.spaced = false) {fuel : Nat} {d : SetDraft}
    {set : CharSet} (h : readSet lib f fuel d s = some (set, t)) (hs : flat s = true) :
    afterSetMembers s = some t := by
  induction fuel generalizing d s with
  | zero => cases h
  | succ fuel ih =>
    have hnext {u : List Char} {d : SetDraft} (hu : Walks isMember s u ∧ flat u = true)
        (h : readSet lib f fuel d u = some (set, t)) : afterSetMembers s = some t :=
      (hu.1.afterSetMembers fun _ => ne_of_isMember).trans (ih h hu.2)
    have htwo {a r : List Char} (heq : s = a ++ r) (ha : ∀ c ∈ a, isPlain c = true) :
        Walks isMember s r ∧ flat r = true :=
      walks_past guards_flat ⟨a, heq, ha⟩ hs
    rw [readSet, skip_eq hf] at h
    split at h
    · cases h
    · cases h
      rfl
    · rw [flat] at hs
      cases hs
    · exact hnext (htwo (a := ['&', '&']) rfl (by simp [isPlain, signs])) h
    · exact hnext (htwo (a := ['-', '-']) rfl (by simp [isPlain, signs])) h
    · exact hnext (htwo (a := ['~', '~']) rfl (by simp [isPlain, signs])) h
    · next hclose hopen _ _ _ =>
      obtain ⟨⟨m, rest⟩, hm, h⟩ := Option.bind_eq_some_iff.1 h
      exact hnext (walks_readSpan guards_flat hf hm (head?_ne hopen) (head?_ne hclose) hs) h

theorem afterSet_of_readSet (hf : f.spaced = false) {fuel : Nat} {d : SetDraft} {set : CharSet}
    {negated : Bool} (hstart : readSetStart f s = (negated, d, u))
    (h : readSet lib f fuel d u = some (set, t)) (hs : flat (members s) = true) :
    afterSet s = some t := by
  obtain ⟨hwalk, hu⟩ := walks_readSetStart guards_flat hf hstart hs
  rw [afterSet_eq, hwalk.afterSetMembers fun _ => ne_of_isMember]
  exact afterSetMembers_of_readSet hf h hu

end Sets

section Groups

variable {lib : Library} {f : Flags} {n : List Char} {k : Nat} {s t u : List Char}

theorem ne_of_isQuiet {c : Char} (h : isQuiet c = true) :
    c ≠ '\\' ∧ c ≠ '[' ∧ c ≠ '(' ∧ c ≠ ')' ∧ c ≠ '+' := by
  refine ⟨?_, ?_, ?_, ?_, ?_⟩
  all_goals
    rintro rfl
    exact absurd h (by decide)

theorem afterGroup_cons {c : Char} (hc : c ≠ '\\') (hset : c ≠ '[') (hopen : c ≠ '(')
    (hclose : c ≠ ')') (r : List Char) : afterGroup k (c :: r) = afterGroup k r := by
  rw [afterGroup] <;> simp [hc, hset, hopen, hclose]

theorem afterGroup_set {r rest : List Char} (h : afterSet r = some rest) :
    afterGroup k ('[' :: r) = afterGroup k rest := by
  rw [afterGroup]
  split
  · next hnone =>
    rw [h] at hnone
    cases hnone
  · next t ht =>
    obtain rfl : rest = t := Option.some.inj (h.symm.trans ht)
    rfl

theorem tame_cons {c : Char} (h : isQuiet c = true) (r : List Char) :
    tame n k (c :: r) = tame n k r := by
  obtain ⟨hescape, hset, hopen, hclose, hplus⟩ := ne_of_isQuiet h
  rw [tame] <;> simp [hescape, hset, hopen, hclose, hplus]

theorem tame_set {r rest : List Char} (h : afterSet r = some rest)
    (hs : tame n k ('[' :: r) = true) : tame n k rest = true := by
  rw [tame, Bool.and_eq_true] at hs
  have hrest := hs.2
  split at hrest
  · next hnone =>
    rw [h] at hnone
    cases hnone
  · next t ht =>
    obtain rfl : rest = t := Option.some.inj (h.symm.trans ht)
    exact hrest

theorem tame_past (h : Past isQuiet s t) : tame n k s = tame n k t := by
  obtain ⟨a, rfl, ha⟩ := h
  induction a with
  | nil => rfl
  | cons c a ih =>
    obtain ⟨hc, ha⟩ := List.forall_mem_cons.1 ha
    rw [List.cons_append, tame_cons hc, ih ha]

/-- The second text is the first one further on in the same group, if that is tame. -/
def Along (n : List Char) (k : Nat) (s t : List Char) : Prop :=
  tame n (k + 1) s = true → afterGroup (k + 1) s = afterGroup (k + 1) t ∧ tame n (k + 1) t = true

theorem Along.trans (h : Along n k s t) (h' : Along n k t u) : Along n k s u := by
  intro hs
  obtain ⟨hst, ht⟩ := h hs
  obtain ⟨htu, hu⟩ := h' ht
  exact ⟨hst.trans htu, hu⟩

theorem along_past (h : Past isQuiet s t) : Along n k s t := by
  intro hs
  refine ⟨?_, tame_past h ▸ hs⟩
  obtain ⟨a, rfl, ha⟩ := h
  clear hs
  induction a with
  | nil => rfl
  | cons c a ih =>
    obtain ⟨hc, ha⟩ := List.forall_mem_cons.1 ha
    obtain ⟨hescape, hset, hopen, hclose, -⟩ := ne_of_isQuiet hc
    rw [List.cons_append, afterGroup_cons hescape hset hopen hclose, ih ha]

theorem kept_of_tame (h : tame n 0 ('+' :: s) = true) :
    loosensNext (skipReluctant s) = false ∧ tame n 0 s = true := by
  rw [tame, Bool.and_eq_true] at h
  exact ⟨by simpa using h.1, h.2⟩

theorem along_plus (r : List Char) : Along n k ('+' :: r) r := by
  intro hs
  rw [tame, Bool.and_eq_true] at hs
  exact ⟨afterGroup_cons (by decide) (by decide) (by decide) (by decide) r, hs.2⟩

theorem escape_of_tame {c : Char} (h : tame n k ('\\' :: c :: s) = true) :
    namesPlainly c s = true ∧ (0 < k ∨ isBare c s = false ∨ runFrom [] s ≠ n) ∧
      tame n k s = true := by
  rw [tame] at h
  simpa [and_assoc, or_assoc] using h

theorem along_readEscape (hf : f.spaced = false) {e : Escape}
    (h : readEscape lib f s = some (e, t)) : Along n k ('\\' :: s) t := by
  obtain ⟨c, r, rfl, hpast⟩ := readEscape_past hf h
  intro hs
  obtain ⟨hname, -, hr⟩ := escape_of_tame hs
  rw [afterGroup]
  exact along_past ((hpast hname).1.mono isQuiet_of_isPlain) hr

theorem members_of_tame (h : tame n k ('[' :: s) = true) :
    flat (members s) = true ∨ 0 < k ∧ clear 0 (members s) = true := by
  rw [tame, Bool.and_eq_true] at h
  simpa using h.1

section InnerSets

/-- What the scan makes of the rest of a group within a set: where the group ends, and whether that
rest is tame. `inside` as long as the scan takes itself to be in the set; behind the first closing
bracket it takes the members for parts of the group. -/
def view (n : List Char) (k : Nat) (inside : Bool) (s : List Char) : Option (List Char) × Bool :=
  if inside then
    match afterSetMembers s with
    | none => (none, true)
    | some rest => (afterGroup (k + 1) rest, tame n (k + 1) rest)
  else (afterGroup (k + 1) s, tame n (k + 1) s)

/-- The scan gets from the first text on to the second one, if the rest is tame. -/
def Moves (n : List Char) (k : Nat) (inside : Bool) (s : List Char) (inside' : Bool)
    (t : List Char) : Prop :=
  (view n k inside s).2 = true →
    (view n k inside s).1 = (view n k inside' t).1 ∧ (view n k inside' t).2 = true

variable {inside inside' inside'' : Bool}

theorem Moves.of_eq (h : view n k inside s = view n k inside' t) : Moves n k inside s inside' t := by
  intro hs
  rw [← h]
  exact ⟨rfl, hs⟩

theorem Moves.trans (h : Moves n k inside s inside' t) (h' : Moves n k inside' t inside'' u) :
    Moves n k inside s inside'' u := by
  intro hs
  obtain ⟨hst, ht⟩ := h hs
  obtain ⟨htu, hu⟩ := h' ht
  exact ⟨hst.trans htu, hu⟩

theorem view_close (inside : Bool) (r : List Char) :
    view n k inside (']' :: r) = view n k false r := by
  cases inside with
  | true => rfl
  | false =>
    have hgroup : afterGroup (k + 1) (']' :: r) = afterGroup (k + 1) r :=
      afterGroup_cons (by decide) (by decide) (by decide) (by decide) r
    have htame : tame n (k + 1) (']' :: r) = tame n (k + 1) r := tame_cons (by decide) r
    simp only [view, hgroup, htame, Bool.false_eq_true, if_false]

def isClear (c : Char) : Bool := isMember c && c != '(' && c != ')'

theorem along_of_walks (h : Walks isClear s t) : Along n k s t := by
  induction h with
  | refl => exact fun hs => ⟨rfl, hs⟩
  | @char c r t hc _ ih =>
    have hchar : Along n k (c :: r) r := by
      by_cases hplus : c = '+'
      · subst hplus
        exact along_plus r
      · refine along_past (.cons (isQuiet_of_not_mem ?_) (.refl _ _))
        intro hmem
        simp only [List.mem_cons, List.not_mem_nil, or_false] at hmem
        rcases hmem with rfl | rfl | rfl | rfl | rfl
        case inr.inr.inr.inr => exact hplus rfl
        all_goals exact absurd hc (by decide)
    exact hchar.trans ih
  | @escape c r t _ ih =>
    have hescape : Along n k ('\\' :: c :: r) r := by
      intro hs
      rw [afterGroup]
      exact ⟨rfl, (escape_of_tame hs).2.2⟩
    exact hescape.trans ih

theorem moves_of_walks (h : Walks isClear s t) : Moves n k inside s inside t := by
  cases inside with
  | true =>
    have hmembers : afterSetMembers s = afterSetMembers t := by
      refine h.afterSetMembers fun c hc => ne_of_isMember ?_
      rw [isClear, Bool.and_eq_true, Bool.and_eq_true] at hc
      exact hc.1.1
    exact .of_eq (by simp [view, hmembers])
  | false => exact along_of_walks h

/-- Where the scan takes itself to be in the group, a set that opens is its own. -/
theorem moves_set (r : List Char) : Moves n k false ('[' :: r) true (members r) := by
  intro hs
  have hs : tame n (k + 1) ('[' :: r) = true := hs
  change afterGroup (k + 1) ('[' :: r) = _ ∧ _
  simp only [view, ← afterSet_eq, if_true]
  cases hset : afterSet r with
  | none =>
    refine ⟨?_, rfl⟩
    rw [afterGroup]
    split
    · rfl
    · next hsome =>
      rw [hset] at hsome
      cases hsome
  | some rest => exact ⟨afterGroup_set hset, tame_set hset hs⟩

/-- A set within the set opens. If the scan is in a set already, a bracket that is a member of the
inner set closes it. -/
theorem moves_open (inside : Bool) (r : List Char) :
    ∃ inside', Moves n k inside ('[' :: r) inside' (members r) := by
  cases inside with
  | true =>
    have hopen : afterSetMembers ('[' :: r) = afterSetMembers r :=
      afterSetMembers_cons (by decide) (by decide) r
    have hcaret : afterSetMembers r =
        afterSetMembers (if r.head? == some '^' then r.drop 1 else r) := by
      cases r with
      | nil => rfl
      | cons c r =>
        by_cases hc : c = '^'
        · subst hc
          exact afterSetMembers_cons (by decide) (by decide) r
        · simp [hc]
    obtain ⟨v, hv⟩ : ∃ v, (if r.head? == some '^' then r.drop 1 else r) = v := ⟨_, rfl⟩
    rw [hv] at hcaret
    have hfrom : view n k true ('[' :: r) = view n k true v := by simp [view, hopen, hcaret]
    simp only [members, hv]
    cases v with
    | nil => exact ⟨true, .of_eq hfrom⟩
    | cons c v =>
      by_cases hc : c = ']'
      · subst hc
        exact ⟨false, .of_eq (hfrom.trans (view_close true v))⟩
      · refine ⟨true, .of_eq (hfrom.trans ?_)⟩
        simp [hc]
  | false => exact ⟨true, moves_set r⟩

theorem guards_clear (depth : Nat) : Guards isClear (clear depth · = true) where
  escape c r h := by rwa [clear, Bool.and_eq_true] at h
  char c r hc hopen hclose h := by
    rw [clear.eq_def] at h
    split at h
    case h_7 heq =>
      cases heq
      rw [Bool.and_eq_true, Bool.and_eq_true] at h
      exact ⟨by simpa [isClear, isMember, hc, hopen, hclose] using h.1, h.2⟩
    case h_5 => cases h
    all_goals simp_all
  span r h := by
    rw [clear] at h
    cases h

theorem clear_close {depth : Nat} {r : List Char} (h : clear (depth + 1) (']' :: r) = true) :
    clear depth r = true := by
  rw [clear] at h
  simpa using h

theorem clear_open {depth : Nat} {r : List Char} (h : clear depth ('[' :: r) = true) :
    clear (depth + 1) (members r) = true := by
  rwa [clear] at h

theorem isPlain_of_asciiClass? {name : String} {set : CharSet}
    (h : CharSet.asciiClass? name = some set) : ∀ c ∈ name.toList, isPlain c = true := by
  unfold CharSet.asciiClass? at h
  split at h
  case h_15 => cases h
  all_goals simp [isPlain, signs]

/-- A named class is a set within the set, as the scan sees it. -/
theorem clear_readNamedClass {depth : Nat} {r rest : List Char} {set : Option CharSet}
    (h : readNamedClass f r = some (set, rest)) (hs : clear (depth + 1) (members r) = true)
    (inside : Bool) : Moves n k inside (members r) false rest ∧ clear depth rest = true := by
  unfold readNamedClass at h
  split at h
  · next r =>
    extract_lets negated r' name at h
    split at h
    · next rest' hrest =>
      obtain ⟨set, hset, heq⟩ := Option.map_eq_some_iff.1 h
      cases heq
      have hname := isPlain_of_asciiClass? hset
      rw [String.toList_ofList] at hname
      have hr' : Past isPlain r' (']' :: rest) := .body hrest hname (by decide)
      have hr : Past isPlain (':' :: r) (']' :: rest) := by
        refine .cons (by decide) ?_
        by_cases hneg : negated = true
        · obtain ⟨t, ht⟩ := List.head?_eq_some_iff.1 (eq_of_beq hneg)
          have ht' : r' = t := by simp [r', hneg, ht]
          rw [ht]
          exact .cons (by decide) (ht' ▸ hr')
        · have ht' : r' = r := by simp [r', hneg]
          exact ht' ▸ hr'
      have hmembers : members (':' :: r) = ':' :: r := rfl
      rw [hmembers] at hs ⊢
      obtain ⟨hwalk, hclose⟩ := walks_past (guards_clear (depth + 1)) hr hs
      exact ⟨(moves_of_walks hwalk).trans (.of_eq (view_close inside rest)), clear_close hclose⟩
    · cases h
  · cases h

/-- Reading the members of a set gets the scan to the end of that set, too. -/
theorem moves_readSet (hf : f.spaced = false) {fuel depth : Nat} {d : SetDraft} {set : CharSet}
    (h : readSet lib f fuel d s = some (set, t)) (hs : clear depth s = true) (inside : Bool) :
    Moves n k inside s false t ∧ (0 < depth → clear (depth - 1) t = true) := by
  induction fuel generalizing depth d s set t inside with
  | zero => cases h
  | succ fuel ih =>
    have hnext {u : List Char} {d : SetDraft} (hu : Walks isClear s u ∧ clear depth u = true)
        (h : readSet lib f fuel d u = some (set, t)) :
        Moves n k inside s false t ∧ (0 < depth → clear (depth - 1) t = true) :=
      (ih h hu.2 inside).imp_left fun hmoves => (moves_of_walks hu.1).trans hmoves
    have htwo {a r : List Char} (heq : s = a ++ r) (ha : ∀ c ∈ a, isPlain c = true) :
        Walks isClear s r ∧ clear depth r = true :=
      walks_past (guards_clear depth) ⟨a, heq, ha⟩ hs
    rw [readSet, skip_eq hf] at h
    split at h
    · cases h
    · cases h
      refine ⟨.of_eq (view_close inside _), fun hdepth => ?_⟩
      obtain ⟨depth, rfl⟩ := Nat.exists_eq_succ_of_ne_zero (Nat.ne_of_gt hdepth)
      exact clear_close hs
    · next r =>
      obtain ⟨inside', hopen⟩ := moves_open (n := n) (k := k) inside r
      have hinner := clear_open hs
      split at h
      · next m rest hclass =>
        obtain ⟨hmoves, hrest⟩ := clear_readNamedClass (n := n) (k := k) hclass hinner inside'
        exact (ih h hrest false).imp_left fun hend => (hopen.trans hmoves).trans hend
      · cases h
      · next hclass =>
        obtain ⟨⟨m, rest⟩, hset, h⟩ := Option.bind_eq_some_iff.1 h
        obtain ⟨m', -, h⟩ := Option.bind_eq_some_iff.1 h
        obtain ⟨hwalk, hstart⟩ := walks_readSetStart (guards_clear (depth + 1)) hf rfl hinner
        obtain ⟨hmoves, hrest⟩ := ih hset hstart inside'
        have hin := (hopen.trans (moves_of_walks hwalk)).trans hmoves
        exact (ih h (hrest (Nat.succ_pos _)) false).imp_left fun hend => hin.trans hend
    · exact hnext (htwo (a := ['&', '&']) rfl (by simp [isPlain, signs])) h
    · exact hnext (htwo (a := ['-', '-']) rfl (by simp [isPlain, signs])) h
    · exact hnext (htwo (a := ['~', '~']) rfl (by simp [isPlain, signs])) h
    · next hclose hopen _ _ _ =>
      obtain ⟨⟨m, rest⟩, hm, h⟩ := Option.bind_eq_some_iff.1 h
      have hwalk := walks_readSpan (guards_clear depth) hf hm (head?_ne hopen) (head?_ne hclose) hs
      exact hnext hwalk h

end InnerSets

theorem along_readSet (hf : f.spaced = false) {fuel : Nat} {d : SetDraft} {set : CharSet}
    {negated : Bool} (hstart : readSetStart f s = (negated, d, u))
    (h : readSet lib f fuel d u = some (set, t)) : Along n k ('[' :: s) t := by
  intro hs
  rcases members_of_tame hs with hflat | ⟨-, hclear⟩
  · have hset := afterSet_of_readSet hf hstart h hflat
    exact ⟨afterGroup_set hset, tame_set hset hs⟩
  · obtain ⟨hwalk, hu⟩ := walks_readSetStart (guards_clear 0) hf hstart hclear
    have hset : Moves n k false ('[' :: s) false t :=
      (moves_set s).trans ((moves_of_walks hwalk).trans (moves_readSet hf h hu true).1)
    exact hset hs

/-- The second text is what follows the innermost of the groups that are open at the first one. -/
def Leaves (n : List Char) (k : Nat) (s t : List Char) : Prop :=
  tame n (k + 1) s = true →
    afterGroup (k + 1) s = (if k = 0 then some t else afterGroup k t) ∧ tame n k t = true

theorem Along.leaves (h : Along n k s t) (h' : Leaves n k t u) : Leaves n k s u := by
  intro hs
  obtain ⟨hst, ht⟩ := h hs
  obtain ⟨htu, hu⟩ := h' ht
  exact ⟨hst.trans htu, hu⟩

theorem leaves_close (r : List Char) : Leaves n k (')' :: r) r := by
  intro hs
  rw [tame] at hs
  refine ⟨?_, hs⟩
  rw [afterGroup, Nat.add_sub_cancel]
  cases k <;> simp

theorem tame_group (h : tame n k ('(' :: s) = true) :
    opensPlainly s = true ∧ tame n (k + 1) s = true := by
  rwa [tame, Bool.and_eq_true] at h

/-- A group within a group is passed over. -/
theorem along_group (h : opensPlainly s = true → Leaves n (k + 1) s t) : Along n k ('(' :: s) t := by
  intro hs
  obtain ⟨hopens, hgroup⟩ := tame_group hs
  rw [afterGroup]
  exact h hopens hgroup

theorem along_readPart (hf : f.spaced = false) {part : Regex} (h : readPart lib f s = some (part, t))
    (hs : ∀ c r, s = c :: r → c ≠ '\\' → isQuiet c = true) : Along n k s t := by
  have hone {c : Char} {r : List Char} (heq : s = c :: r) (hc : c ≠ '\\') : Along n k s r := by
    rw [heq]
    exact along_past (.cons (hs c r heq hc) (.refl _ _))
  unfold readPart at h
  split at h
  · cases h
  · obtain ⟨⟨e, u⟩, he, h⟩ := Option.bind_eq_some_iff.1 h
    obtain ⟨part, -, h⟩ := Option.bind_eq_some_iff.1 h
    cases h
    exact along_readEscape hf he
  · obtain ⟨part, -, heq⟩ := Option.map_eq_some_iff.1 h
    cases heq
    exact hone rfl (by decide)
  · cases h
    exact hone rfl (by decide)
  · cases h
    exact hone rfl (by decide)
  · next c r hc _ _ _ =>
    cases h
    exact hone rfl hc

theorem braces_past (h : Past isCountChar s ('\x7d' :: t)) : Past isQuiet ('\x7b' :: s) t := by
  have hcount := (h.mono isPlain_of_isCountChar).mono isQuiet_of_isPlain
  exact .cons (by decide) (hcount.trans (.cons (by decide) (.refl _ t)))

theorem skipReluctant_past (s : List Char) : Past isQuiet s (skipReluctant s) := by
  unfold skipReluctant
  split
  · exact .cons (by decide) (.refl _ _)
  · exact .refl _ _

/-- The reader finds the end of a group where the scan does. -/
theorem leaves_of_readGroup (hf : f.spaced = false) {fuel : Nat} {names known : List String}
    {d : GroupDraft} {r : Regex} (h : readGroup lib true fuel f names d s = some (r, known, t)) :
    Leaves n k s t := by
  induction fuel generalizing k f names d s r known t with
  | zero => cases h
  | succ fuel ih =>
    have hreluctant {c : Char} {s u : List Char} (hc : Along n k (c :: s) u) :
        Along n k (c :: s) (skipReluctant u) := hc.trans (along_past (skipReluctant_past u))
    have hquiet {c : Char} (hc : isQuiet c = true) (r : List Char) : Along n k (c :: r) r :=
      along_past (.cons hc (.refl _ _))
    rw [readGroup, skip_eq hf] at h
    split at h
    · cases h
    · cases h
      exact leaves_close _
    · exact (hquiet (by decide) _).leaves (ih hf h)
    · next a =>
      obtain ⟨⟨o, u⟩, ho, h⟩ := Option.bind_eq_some_iff.1 h
      cases o with
      | directive inner =>
        -- the parenthesis that ends the flags closes what the scan takes for a group
        intro hs
        obtain ⟨hspaced, hflags⟩ := readOpening_between hf (tame_group hs).1 ho
        have hgroup : Along n k ('(' :: a) u :=
          along_group fun _ => (along_past hflags).leaves (leaves_close u)
        exact hgroup.leaves (ih hspaced h) hs
      | group inner names' =>
        obtain ⟨⟨body, known', v⟩, hbody, h⟩ := Option.bind_eq_some_iff.1 h
        have hgroup : Along n k ('(' :: a) v := by
          refine along_group fun hs => ?_
          obtain ⟨hspaced, hopening⟩ := readOpening_between hf hs ho
          exact (along_past hopening).leaves (ih hspaced hbody)
        exact hgroup.leaves (ih hf h)
    · obtain ⟨⟨set, rest⟩, hset, h⟩ := Option.bind_eq_some_iff.1 h
      obtain ⟨set', -, h⟩ := Option.bind_eq_some_iff.1 h
      exact (along_readSet hf rfl hset).leaves (ih hf h)
    · obtain ⟨d', -, h⟩ := Option.bind_eq_some_iff.1 h
      exact (hreluctant (hquiet (by decide) _)).leaves (ih hf h)
    · obtain ⟨d', -, h⟩ := Option.bind_eq_some_iff.1 h
      exact (hreluctant (hquiet (by decide) _)).leaves (ih hf h)
    · obtain ⟨d', -, h⟩ := Option.bind_eq_some_iff.1 h
      exact (hreluctant (along_plus _)).leaves (ih hf h)
    · obtain ⟨⟨least, most, rest⟩, hbounds, h⟩ := Option.bind_eq_some_iff.1 h
      obtain ⟨d', -, h⟩ := Option.bind_eq_some_iff.1 h
      rw [skip_eq hf] at h
      have hbraces := braces_past (readBounds_past hf hbounds)
      exact (hreluctant (along_past hbraces)).leaves (ih hf h)
    · next hclose _ hopen hset _ _ hplus _ =>
      obtain ⟨⟨part, rest⟩, hpart, h⟩ := Option.bind_eq_some_iff.1 h
      refine (along_readPart hf hpart ?_).leaves (ih hf h)
      rintro c r rfl hc
      apply isQuiet_of_not_mem
      intro hmem
      simp only [List.mem_cons, List.not_mem_nil, or_false] at hmem
      rcases hmem with rfl | rfl | rfl | rfl | rfl
      · exact hc rfl
      · exact hset _ rfl
      · exact hopen _ rfl
      · exact hclose _ rfl
      · exact hplus _ rfl

end Groups

end TorrentQuery.Needle
