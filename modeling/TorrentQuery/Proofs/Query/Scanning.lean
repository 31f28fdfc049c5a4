import TorrentQuery.Proofs.Query.Grammar

namespace TorrentQuery

open Text

namespace Token

variable {depth : Nat} {s tail : List Char} {t : Token} {ts : List Token}

/-- The text consists of these tokens, wherever it starts. -/
def Scans (depth : Nat) (s : List Char) (ts : List Token) : Prop :=
  ∀ position, ∃ ls, scanFrom depth position s = .ok ls ∧ ls.map Lexeme.token = ts

theorem scans_nil : Scans depth [] [] := fun _ => ⟨[], scanFrom.eq_1 _ _, rfl⟩

theorem Scans.blanks (h : Scans depth tail ts) (hs : ∀ c ∈ s, isBlank c = true) :
    Scans depth (s ++ tail) ts := by
  induction s with
  | nil => exact h
  | cons c s ih =>
    rw [List.forall_mem_cons] at hs
    intro position
    rw [List.cons_append, scanFrom_blank hs.1]
    exact ih hs.2 (position + 1)

theorem Scans.space (h : Scans depth tail ts) : Scans depth (' ' :: tail) ts :=
  h.blanks (s := [' ']) (List.forall_mem_singleton.2 rfl)

theorem scans_cons {c : Char} {r : List Char} (hblank : isBlank c = false)
    (hnext : next depth c r = .ok (t, tail)) (h : Scans (depthAfter depth t) tail ts) :
    Scans depth (c :: r) (t :: ts) := by
  intro position
  obtain ⟨ls, hls, hmap⟩ := h (position + ((c :: r).length - tail.length))
  rw [scanFrom_next hblank hnext, hls]
  exact ⟨⟨t, position⟩ :: ls, rfl, by rw [List.map_cons, hmap]⟩

theorem scans_condition {field : String} (hfield : IsName field) {op : Operator} {n : Nat}
    {rest : List Char} (hop : operator? s = some (op, n, rest)) {v : Literal}
    (hvalue : ∀ width, valueOf depth field op width rest = .ok (v, tail))
    (hts : Scans depth tail ts) :
    Scans depth (field.toList ++ s) (.named field op v :: ts) := by
  obtain ⟨c, r, hchars, hblank, hnext⟩ := next_condition hfield hop hvalue
  rw [hchars, List.cons_append]
  exact scans_cons hblank hnext hts

end Token

namespace Stmt

/-- A text that consists of the tokens of a statement is read as the statement. -/
theorem read_of_scans {text : String} {s : Stmt} (hs : s.Full)
    (h : Token.Scans 0 text.toList (Cond.tokensOfStmt s)) : Stmt.read text = .ok s := by
  obtain ⟨ls, hscan, htokens⟩ := h 0
  exact (read_eq_ok_iff hscan).2 ⟨hs, htokens.symm⟩

end Stmt

end TorrentQuery
