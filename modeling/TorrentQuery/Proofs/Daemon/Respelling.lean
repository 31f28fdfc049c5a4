import Mathlib.Data.List.Forall2
import TorrentQuery.Daemon.Reply
import TorrentQuery.Proofs.Number.Integer
import TorrentQuery.Proofs.Text.Blank

namespace TorrentQuery

open Number Text

section Numerals

variable {n : Int} {c : Char}

theorem Number.mem_toString (h : c ∈ (toString n).toList) : c = '-' ∨ c.isDigit = true := by
  have hdigit {m : Nat} (hc : c ∈ Nat.toDigits 10 m) : c.isDigit = true :=
    Nat.isDigit_of_mem_toDigits (by decide) (by decide) hc
  cases n with
  | ofNat m =>
    rw [toList_toString_ofNat] at h
    exact .inr (hdigit h)
  | negSucc m =>
    rw [toList_toString_negSucc] at h
    exact (List.mem_cons.1 h).imp_right hdigit

/-- Written integers have no letters. -/
theorem Number.ne_toString_of_isAlpha {s : String} (hs : s.toList.any Char.isAlpha = true) (n : Int) :
    s ≠ toString n := by
  rintro rfl
  obtain ⟨c, hc, halpha⟩ := List.any_eq_true.1 hs
  rcases mem_toString hc with rfl | hdigit
  · cases halpha
  · rw [not_isDigit_of_isAlpha halpha] at hdigit
    cases hdigit

theorem Json.integerOfText_toString (h : Fits64 n) : integerOfText (toString n) = n := by
  have htrim : trim (toString n).toList = (toString n).toList := by
    apply trim_of_none
    intro c hc
    rcases mem_toString hc with rfl | hdigit
    · rfl
    · exact not_isBlank_of_isDigit hdigit
  rw [integerOfText, trimmed, htrim, String.ofList_toList, readInt64, readInt_toString h]

end Numerals

namespace Json

/-- The same answer, or an integer of 64 bits once as a number and once as a text. -/
inductive SameScalar : Json → Json → Prop
  | refl (j : Json) : SameScalar j j
  | toText {n : Int} : Fits64 n → SameScalar (.int n) (.str (toString n))
  | ofText {n : Int} : Fits64 n → SameScalar (.str (toString n)) (.int n)

/-- Answers that differ in how integers are spelt, of which each stands in at most `depth` lists. -/
def Respelled : (depth : Nat) → Json → Json → Prop
  | 0, j, k => SameScalar j k
  | depth + 1, j, k =>
    SameScalar j k ∨
      ∃ items items', j = .arr items ∧ k = .arr items' ∧ List.Forall₂ (Respelled depth) items items'

variable {j k : Json} {depth depth' : Nat}

theorem SameScalar.respelled (h : SameScalar j k) : Respelled depth j k := by
  cases depth with
  | zero => exact h
  | succ depth => exact .inl h

theorem Respelled.mono (h : Respelled depth j k) (hle : depth ≤ depth') : Respelled depth' j k := by
  induction depth generalizing depth' j k with
  | zero => exact SameScalar.respelled h
  | succ depth ih =>
    obtain ⟨depth', rfl⟩ := Nat.exists_eq_succ_of_ne_zero (by omega : depth' ≠ 0)
    rcases h with h | ⟨items, items', rfl, rfl, h⟩
    · exact .inl h
    · exact .inr ⟨items, items', rfl, rfl, h.imp fun _ _ h => ih h (by omega)⟩

theorem SameScalar.asInteger_eq (h : SameScalar j k) : j.asInteger = k.asInteger := by
  cases h with
  | refl => rfl
  | toText hn => rw [asInteger, asInteger, clamp64_of_fits hn, integerOfText_toString hn]
  | ofText hn => rw [asInteger, asInteger, clamp64_of_fits hn, integerOfText_toString hn]

theorem Respelled.asInteger_eq (h : Respelled depth j k) : j.asInteger = k.asInteger := by
  cases depth with
  | zero => exact SameScalar.asInteger_eq h
  | succ depth =>
    rcases h with h | ⟨items, items', rfl, rfl, -⟩
    · exact h.asInteger_eq
    · rfl

theorem SameScalar.asText_eq (h : SameScalar j k) : j.asText = k.asText := by
  cases h <;> rfl

/-- A text that is no written integer has one spelling. -/
theorem Respelled.eq_str_iff {s : String} (h : Respelled depth j k)
    (hs : ∀ n : Int, s ≠ toString n) : .str s = j ↔ .str s = k := by
  have hscalar (h : SameScalar j k) : .str s = j ↔ .str s = k := by
    cases h with
    | refl => exact Iff.rfl
    | toText => exact ⟨nofun, fun heq => absurd (Json.str.inj heq) (hs _)⟩
    | ofText => exact ⟨fun heq => absurd (Json.str.inj heq) (hs _), nofun⟩
  cases depth with
  | zero => exact hscalar h
  | succ depth =>
    rcases h with h | ⟨items, items', rfl, rfl, -⟩
    · exact hscalar h
    · exact ⟨nofun, nofun⟩

/-- Cells of rows are told apart by their texts and integers only. -/
theorem Respelled.asRows (h : Respelled 2 j k) :
    List.Forall₂ (List.Forall₂ SameScalar) j.asRows k.asRows := by
  have hsame (cells : List Json) : List.Forall₂ SameScalar cells cells :=
    List.forall₂_same.2 fun c _ => .refl c
  rcases h with h | ⟨items, items', rfl, rfl, hitems⟩
  · cases h with
    | refl => exact List.forall₂_same.2 fun cells _ => hsame cells
    | toText => exact .nil
    | ofText => exact .nil
  · rw [Json.asRows, Json.asRows, List.forall₂_map_left_iff, List.forall₂_map_right_iff]
    apply hitems.imp
    rintro row row' (hrow | ⟨cells, cells', rfl, rfl, hcells⟩)
    · cases hrow with
      | refl =>
        cases row with
        | arr cells => exact hsame cells
        | _ => exact hsame [_]
      | toText hn => exact .cons (.toText hn) .nil
      | ofText hn => exact .cons (.ofText hn) .nil
    · exact hcells

theorem Respelled.asTextSet_eq (h : Respelled 1 j k) : j.asTextSet = k.asTextSet := by
  rcases h with h | ⟨items, items', rfl, rfl, hitems⟩
  · cases h <;> rfl
  · have htexts : items.map asText = items'.map asText := by
      rw [← List.forall₂_eq_eq_eq, List.forall₂_map_left_iff, List.forall₂_map_right_iff]
      exact hitems.imp fun _ _ h => SameScalar.asText_eq h
    rw [asTextSet, asTextSet, htexts]

/-- What is taken of the rows is the same, if it is the same for each row. -/
theorem Respelled.filterMap_rows_eq {β : Type} (h : Respelled 2 j k) {f : List Json → Option β}
    (hf : ∀ cells cells', List.Forall₂ SameScalar cells cells' → f cells = f cells') :
    j.asRows.filterMap f = k.asRows.filterMap f := by
  have hrows := h.asRows
  generalize j.asRows = rows at hrows
  generalize k.asRows = rows' at hrows
  induction hrows with
  | nil => rfl
  | cons hrow _ ih => rw [List.filterMap_cons, List.filterMap_cons, hf _ _ hrow, ih]

end Json

end TorrentQuery
