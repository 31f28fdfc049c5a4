import Mathlib.Tactic.Common
import TorrentQuery.Text.Split

namespace TorrentQuery.Text

theorem occursIn_iff_infix {needle s : List Char} : occursIn needle s = true ↔ needle <:+: s := by
  induction s with
  | nil => simp [occursIn]
  | cons c r ih =>
    rw [occursIn, Bool.or_eq_true, List.isPrefixOf_iff_prefix, ih, List.infix_cons_iff]

theorem beq_eq_false_of_not_mem {s : List Char} {sep : Char} (h : sep ∉ s) :
    ∀ c ∈ s, (c == sep) = false := by
  intro c hc
  rw [beq_eq_false_iff_ne]
  rintro rfl
  exact h hc

/-- A run of characters ends where another character follows. -/
theorem span_append {p : Char → Bool} {s tail : List Char} (hs : ∀ c ∈ s, p c = true)
    (htail : tail.head?.all (!p ·) = true) :
    (s ++ tail).takeWhile p = s ∧ (s ++ tail).dropWhile p = tail := by
  rw [List.takeWhile_append_of_pos hs, List.dropWhile_append_of_pos hs]
  cases tail with
  | nil => exact ⟨List.append_nil _, rfl⟩
  | cons c r =>
    have hc : ¬p c = true := by simpa using htail
    rw [List.takeWhile_cons_of_neg hc, List.dropWhile_cons_of_neg hc]
    exact ⟨List.append_nil _, rfl⟩

theorem after?_append (start s : List Char) : after? start (start ++ s) = some s := by
  rw [after?, if_pos (List.isPrefixOf_iff_prefix.2 (List.prefix_append start s)), List.drop_left]

theorem before?_append (s stop : List Char) : before? stop (s ++ stop) = some s := by
  rw [before?, List.reverse_append, after?_append, Option.map_some, List.reverse_reverse]

theorem append_of_before? {stop s a : List Char} (h : before? stop s = some a) : s = a ++ stop := by
  obtain ⟨b, hb, rfl⟩ := Option.map_eq_some_iff.1 h
  rw [after?] at hb
  split at hb
  · next hprefix =>
    obtain ⟨t, ht⟩ := List.isPrefixOf_iff_prefix.1 hprefix
    rw [← ht, List.drop_left] at hb
    cases hb
    rw [← List.reverse_inj, ← ht, List.reverse_append, List.reverse_reverse]
  · cases hb

section Once

variable {α : Type} [BEq α] [LawfulBEq α] {sep : List α}

/-- A separator is found where it was put, if it is not completed any earlier. -/
theorem splitOnce_append_of_not_infix {a : List α} (h : ¬sep <:+: a ++ sep.dropLast) (b : List α) :
    splitOnce sep (a ++ (sep ++ b)) = some (a, b) := by
  induction a with
  | nil =>
    cases sep with
    | nil => exact absurd List.nil_infix h
    | cons x sep => simp [splitOnce]
  | cons c a ih =>
    have hlater : ¬sep <:+: a ++ sep.dropLast := fun hs => h (List.infix_cons hs)
    have hhere : ¬sep <+: c :: (a ++ (sep ++ b)) := by
      intro hs
      have hshort : c :: (a ++ sep.dropLast) <+: c :: (a ++ (sep ++ b)) := by
        rw [List.cons_prefix_cons, List.prefix_append_right_inj]
        exact ⟨rfl, List.prefix_append_of_prefix (List.dropLast_prefix sep)⟩
      have hlength : sep.length ≤ (c :: (a ++ sep.dropLast)).length := by
        rw [List.length_cons, List.length_append, List.length_dropLast]
        omega
      exact h (List.prefix_of_prefix_length_le hs hshort hlength).isInfix
    rw [List.cons_append, splitOnce, if_neg (by rwa [List.isPrefixOf_iff_prefix]), ih hlater]
    rfl

theorem splitOnce_eq_none {s : List α} (h : ¬sep <:+: s) : splitOnce sep s = none := by
  induction s with
  | nil =>
    cases sep with
    | nil => exact absurd List.nil_infix h
    | cons x sep => rfl
  | cons c r ih =>
    have hhere : ¬sep <+: c :: r := fun hs => h hs.isInfix
    rw [splitOnce, if_neg (by rwa [List.isPrefixOf_iff_prefix]), ih fun hs => h (List.infix_cons hs)]
    rfl

theorem append_of_splitOnce {s a b : List α} (h : splitOnce sep s = some (a, b)) :
    s = a ++ (sep ++ b) := by
  induction s generalizing a with
  | nil =>
    cases sep with
    | nil =>
      cases h
      rfl
    | cons x sep => cases h
  | cons c r ih =>
    rw [splitOnce] at h
    split at h
    · next hhere =>
      obtain ⟨t, ht⟩ := List.isPrefixOf_iff_prefix.1 hhere
      rw [← ht, List.drop_left] at h
      cases h
      exact ht.symm
    · obtain ⟨⟨a', b'⟩, hrest, heq⟩ := Option.map_eq_some_iff.1 h
      cases heq
      rw [ih hrest, List.cons_append]

end Once

theorem append_of_splitLast {sep : Char} {s a b : List Char} (h : splitLast sep s = some (a, b)) :
    s = a ++ sep :: b := by
  obtain ⟨⟨a', b'⟩, hrest, heq⟩ := Option.map_eq_some_iff.1 h
  cases heq
  rw [← List.reverse_inj, append_of_splitOnce hrest]
  simp

section Where

variable {p : Char → Bool}

theorem splitWhere_of_none {a : List Char} (h : ∀ c ∈ a, p c = false) : splitWhere p a = [a] := by
  induction a with
  | nil => rfl
  | cons c a ih =>
    obtain ⟨hc, ha⟩ := List.forall_mem_cons.1 h
    simp [splitWhere, hc, ih ha]

theorem splitWhere_append {a : List Char} (h : ∀ c ∈ a, p c = false) {c : Char} (hc : p c = true)
    (r : List Char) : splitWhere p (a ++ c :: r) = a :: splitWhere p r := by
  induction a with
  | nil => simp [splitWhere, hc]
  | cons d a ih =>
    obtain ⟨hd, ha⟩ := List.forall_mem_cons.1 h
    simp [splitWhere, hd, ih ha]

theorem splitWhere_ne_nil (s : List Char) : splitWhere p s ≠ [] := by
  cases s with
  | nil => exact List.cons_ne_nil _ _
  | cons c r =>
    rw [splitWhere]
    split
    · exact List.cons_ne_nil _ _
    · split <;> exact List.cons_ne_nil _ _

/-- Parts are free of what separates them. -/
theorem of_mem_splitWhere {s a : List Char} (h : a ∈ splitWhere p s) :
    ∀ c ∈ a, c ∈ s ∧ p c = false := by
  induction s generalizing a with
  | nil =>
    rw [splitWhere, List.mem_singleton] at h
    simp [h]
  | cons d r ih =>
    have hrest (b : List Char) (hb : b ∈ splitWhere p r) : ∀ c ∈ b, c ∈ d :: r ∧ p c = false :=
      fun c hc => ⟨List.mem_cons_of_mem d (ih hb c hc).1, (ih hb c hc).2⟩
    obtain ⟨w, ws, hr⟩ := List.exists_cons_of_ne_nil (splitWhere_ne_nil (p := p) r)
    by_cases hd : p d = true
    · rw [splitWhere, if_pos hd] at h
      rcases List.mem_cons.1 h with rfl | h
      · exact List.forall_mem_nil _
      · exact hrest a h
    · rw [splitWhere, if_neg hd, hr] at h
      rcases List.mem_cons.1 h with rfl | h
      · refine List.forall_mem_cons.2 ⟨⟨List.mem_cons_self, by simpa using hd⟩, ?_⟩
        exact hrest w (hr ▸ List.mem_cons_self)
      · exact hrest a (hr ▸ List.mem_cons_of_mem w h)

theorem mem_intercalate {sep c : Char} {parts : List (List Char)}
    (h : c ∈ [sep].intercalate parts) : c = sep ∨ ∃ a ∈ parts, c ∈ a := by
  induction parts with
  | nil => simp at h
  | cons a parts ih =>
    cases parts with
    | nil => exact .inr ⟨a, List.mem_singleton_self a, by simpa using h⟩
    | cons b parts =>
      rw [List.intercalate_cons_cons, List.append_assoc, List.mem_append, List.mem_append,
        List.mem_singleton] at h
      rcases h with h | h | h
      · exact .inr ⟨a, List.mem_cons_self, h⟩
      · exact .inl h
      · exact (ih h).imp_right fun ⟨a', ha', hc⟩ => ⟨a', List.mem_cons_of_mem a ha', hc⟩

/-- What was cut into parts is joined again. -/
theorem intercalate_splitWhere {sep : Char} (s : List Char) :
    [sep].intercalate (splitWhere (· == sep) s) = s := by
  induction s with
  | nil => rfl
  | cons c r ih =>
    obtain ⟨w, ws, hr⟩ := List.exists_cons_of_ne_nil (splitWhere_ne_nil (p := (· == sep)) r)
    rw [hr] at ih
    rw [splitWhere]
    split
    · next hc =>
      rw [hr, List.intercalate_cons_cons, ih, List.nil_append, List.singleton_append, eq_of_beq hc]
    · rw [hr]
      cases ws with
      | nil => simpa using ih
      | cons v ws =>
        rw [List.intercalate_cons_cons] at ih ⊢
        simp [← ih]

/-- Parts that were joined are cut apart again. -/
theorem splitWhere_intercalate {sep : Char} {parts : List (List Char)} (hne : parts ≠ [])
    (h : ∀ a ∈ parts, sep ∉ a) : splitWhere (· == sep) ([sep].intercalate parts) = parts := by
  induction parts with
  | nil => exact absurd rfl hne
  | cons a parts ih =>
    obtain ⟨ha, hparts⟩ := List.forall_mem_cons.1 h
    cases parts with
    | nil =>
      rw [List.intercalate_singleton]
      exact splitWhere_of_none (beq_eq_false_of_not_mem ha)
    | cons b parts =>
      rw [List.intercalate_cons_cons, List.append_assoc, List.singleton_append,
        splitWhere_append (beq_eq_false_of_not_mem ha) (beq_self_eq_true sep),
        ih (List.cons_ne_nil b parts) hparts]

end Where

section Lines

variable {a : List Char}

theorem lines_of_not_mem (h : '\n' ∉ a) (hne : a ≠ []) : lines a = [a] := by
  have hparts : splitWhere (· == '\n') a = [a] :=
    splitWhere_of_none (beq_eq_false_of_not_mem h)
  obtain ⟨c, r, rfl⟩ := List.exists_cons_of_ne_nil hne
  rw [lines, hparts]
  rfl

/-- A line that is ended, and the lines behind it. -/
theorem lines_append (h : '\n' ∉ a) (r : List Char) :
    lines (a ++ '\r' :: '\n' :: r) = a :: lines r := by
  have hparts : splitWhere (· == '\n') (a ++ '\r' :: '\n' :: r) =
      (a ++ ['\r']) :: splitWhere (· == '\n') r := by
    rw [List.append_cons]
    apply splitWhere_append (beq_eq_false_of_not_mem _) rfl
    rw [List.mem_append, not_or]
    exact ⟨h, by decide⟩
  have hstrip : before? ['\r'] (a ++ ['\r']) = some a := by
    simp [before?, after?]
  have hmore := splitWhere_ne_nil (p := (· == '\n')) r
  rw [lines, lines, hparts, List.dropLast_cons_of_ne_nil hmore, List.getLast?_cons]
  rw [List.getLast?_eq_some_getLast hmore, Option.getD_some, List.map_cons, hstrip, Option.getD_some]
  split <;> rfl

end Lines

end TorrentQuery.Text
