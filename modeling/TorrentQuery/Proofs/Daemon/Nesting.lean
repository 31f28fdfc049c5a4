import TorrentQuery.Proofs.Daemon.Readable

namespace TorrentQuery

open Text

def Unescaped (w : List Char) : Prop := ∀ c ∈ w, c ≠ '\\' ∧ c ≠ '"'

instance : DecidablePred Unescaped := fun w => List.decidableBAll _ w

theorem escapeChars_append (a b : List Char) :
    escapeChars (a ++ b) = escapeChars a ++ escapeChars b := by
  induction a with
  | nil => rfl
  | cons c a ih =>
    rw [List.cons_append, escapeChars, escapeChars, ih]
    split <;> rfl

theorem escapeChars_of_unescaped {w : List Char} (h : Unescaped w) : escapeChars w = w := by
  induction w with
  | nil => rfl
  | cons c w ih =>
    obtain ⟨hc, hw⟩ := List.forall_mem_cons.1 h
    rw [escapeChars, if_neg (by simp [hc]), ih hw]

theorem infix_escapeChars {w s : List Char} (hw : Unescaped w) (h : w <:+: s) :
    w <:+: escapeChars s := by
  obtain ⟨a, b, rfl⟩ := h
  rw [escapeChars_append, escapeChars_append, escapeChars_of_unescaped hw]
  exact ⟨_, _, rfl⟩

theorem infix_joinWith {part : String} {parts : List String} (h : part ∈ parts) :
    part.toList <:+: (joinWith "," parts).toList := by
  rw [toList_joinWith]
  induction parts with
  | nil => cases h
  | cons first rest ih =>
    cases rest with
    | nil =>
      obtain rfl := List.mem_singleton.1 h
      simp only [List.map_singleton, List.intercalate_singleton, List.infix_rfl]
    | cons second rest =>
      rw [List.map_cons, List.map_cons, List.intercalate_cons_cons, List.append_assoc]
      rcases List.mem_cons.1 h with rfl | h
      · exact (List.prefix_append _ _).isInfix
      · exact (ih h).trans ((List.suffix_append _ _).trans (List.suffix_append _ _)).isInfix

namespace Command

theorem infix_nest {w : List Char} {text : String} (hw : Unescaped w) (h : w <:+: text.toList) :
    w <:+: (nest text).toList := by
  have hescaped := infix_escapeChars hw (List.infix_cons (a := '$') h)
  rw [toList_nest]
  exact List.infix_cons (hescaped.trans (List.prefix_append _ _).isInfix)

theorem infix_braces {w s : List Char} (h : w <:+: s) (start stop : String) :
    w <:+: start.toList ++ s ++ stop.toList :=
  h.trans ⟨_, _, rfl⟩

mutual

/-- However deep a call is nested, its name stands in the written command. -/
theorem infix_render {name : String} (hname : Unescaped name.toList) :
    (c : Command) → name ∈ c.calls → name.toList <:+: c.render.toList
  | .call other args, h => by
    obtain rfl := List.mem_singleton.1 h
    rw [render, String.toList_append, String.toList_append, List.append_assoc]
    exact (List.prefix_append _ _).isInfix
  | .not c, h => by
    have hc := infix_nest hname (infix_render hname c h)
    rw [render, String.toList_append]
    exact hc.trans (List.suffix_append _ _).isInfix
  | .and cs, h => by
    obtain ⟨part, hpart, hname⟩ := infix_renderAll hname cs h
    rw [render, String.toList_append, String.toList_append]
    exact infix_braces (hname.trans (infix_joinWith hpart)) _ _
  | .or cs, h => by
    obtain ⟨part, hpart, hname⟩ := infix_renderAll hname cs h
    rw [render, String.toList_append, String.toList_append]
    exact infix_braces (hname.trans (infix_joinWith hpart)) _ _

theorem infix_renderAll {name : String} (hname : Unescaped name.toList) :
    (cs : List Command) → name ∈ callsOfAll cs →
      ∃ part ∈ render.renderAll cs, name.toList <:+: part.toList
  | [], h => absurd h List.not_mem_nil
  | c :: cs, h => by
    rcases List.mem_append.1 h with h | h
    · exact ⟨_, List.mem_cons_self, infix_nest hname (infix_render hname c h)⟩
    · obtain ⟨part, hpart, hinfix⟩ := infix_renderAll hname cs h
      exact ⟨part, List.mem_cons_of_mem _ hpart, hinfix⟩

end

end Command

end TorrentQuery
