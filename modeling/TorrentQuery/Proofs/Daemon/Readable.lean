import Mathlib.Tactic.Common
import TorrentQuery.Daemon.Command

namespace TorrentQuery

open Text

/-- Where a character of a written command stands. -/
inductive Quoting where
  | outside
  | inside
  /-- Inside of quotes, behind a backslash. -/
  | escaped
  deriving DecidableEq

namespace Quoting

def next : Quoting → Char → Quoting
  | .outside, c => if c = '"' then .inside else .outside
  | .inside, c => if c = '"' then .outside else if c = '\\' then .escaped else .inside
  | .escaped, _ => .inside

/-- A text takes one place to another, and none of its commas stands outside of quotes. -/
def Spans : Quoting → List Char → Quoting → Prop
  | p, [], q => p = q
  | p, c :: r, q => ¬(p = .outside ∧ c = ',') ∧ Spans (p.next c) r q

theorem Spans.append {p q t : Quoting} {a b : List Char} (ha : Spans p a q) (hb : Spans q b t) :
    Spans p (a ++ b) t := by
  induction a generalizing p with
  | nil =>
    cases ha
    exact hb
  | cons c a ih => exact ⟨ha.1, ih ha.2⟩

end Quoting

def splitArguments (p : Quoting) : List Char → List (List Char)
  | [] => [[]]
  | c :: r =>
    if p = .outside ∧ c = ',' then [] :: splitArguments .outside r
    else match splitArguments (p.next c) r with
      | [] => [[c]]
      | w :: ws => (c :: w) :: ws

def argumentsOf (s : List Char) : List (List Char) :=
  if s.isEmpty then [] else splitArguments .outside s

/-- The text in quotes of which the first has been read; the other one must end it. -/
def unquote : List Char → Option (List Char)
  | [] => none
  | '"' :: r => if r.isEmpty then some [] else none
  | '\\' :: c :: r => (unquote r).map (c :: ·)
  | c :: r => (unquote r).map (c :: ·)

def Arg.ofChars : List Char → Option Arg
  | '"' :: r => (unquote r).map fun s => .str (String.ofList s)
  | s => some (.raw (String.ofList s))

def operand? : List Char → Option (List Char)
  | '"' :: r => (unquote r).bind (after? ['$'])
  | _ => none

def operands? (s : List Char) : Option (List (List Char)) := do
  let inner ← (after? ['\x7b'] s).bind (before? ['\x7d'])
  (argumentsOf inner).mapM operand?

section Shorter

theorem length_unquote {s t : List Char} (h : unquote s = some t) : t.length < s.length := by
  fun_induction unquote s generalizing t with
  | case1 => cases h
  | case2 =>
    cases h
    simp
  | case3 => cases h
  | case4 c r ih =>
    obtain ⟨u, hu, rfl⟩ := Option.map_eq_some_iff.1 h
    have := ih hu
    simp only [List.length_cons]
    omega
  | case5 c r _ _ ih =>
    obtain ⟨u, hu, rfl⟩ := Option.map_eq_some_iff.1 h
    have := ih hu
    simp only [List.length_cons]
    omega

theorem length_after? {start s t : List Char} (h : after? start s = some t) :
    t.length ≤ s.length := by
  unfold after? at h
  split at h
  · cases h
    simp
  · cases h

theorem length_before? {stop s t : List Char} (h : before? stop s = some t) :
    t.length ≤ s.length := by
  obtain ⟨u, hu, rfl⟩ := Option.map_eq_some_iff.1 h
  simpa using length_after? hu

theorem length_operand? {s t : List Char} (h : operand? s = some t) : t.length < s.length := by
  unfold operand? at h
  split at h
  · obtain ⟨u, hu, hafter⟩ := Option.bind_eq_some_iff.1 h
    have := length_unquote hu
    have := length_after? hafter
    simp only [List.length_cons]
    omega
  · cases h

theorem length_of_mem_splitArguments {p : Quoting} {s w : List Char} (h : w ∈ splitArguments p s) :
    w.length ≤ s.length := by
  induction s generalizing p w with
  | nil =>
    obtain rfl := List.mem_singleton.1 h
    exact Nat.le_refl _
  | cons c r ih =>
    unfold splitArguments at h
    split at h
    · rcases List.mem_cons.1 h with rfl | h
      · exact Nat.zero_le _
      · exact Nat.le_succ_of_le (ih h)
    · split at h
      · obtain rfl := List.mem_singleton.1 h
        simp
      · next v vs hvs =>
        have hmem {u : List Char} (hu : u ∈ v :: vs) : u.length ≤ r.length := ih (hvs ▸ hu)
        rcases List.mem_cons.1 h with rfl | h
        · exact Nat.succ_le_succ (hmem List.mem_cons_self)
        · exact Nat.le_succ_of_le (hmem (List.mem_cons_of_mem _ h))

theorem mem_of_mapM {α β : Type} {f : α → Option β} {xs : List α} {ys : List β}
    (h : xs.mapM f = some ys) {y : β} (hy : y ∈ ys) : ∃ x ∈ xs, f x = some y := by
  induction xs generalizing ys with
  | nil =>
    cases h
    cases hy
  | cons x xs ih =>
    rw [List.mapM_cons] at h
    obtain ⟨z, hz, h⟩ := Option.bind_eq_some_iff.1 h
    obtain ⟨zs, hzs, h⟩ := Option.bind_eq_some_iff.1 h
    cases h
    rcases List.mem_cons.1 hy with rfl | hy
    · exact ⟨x, List.mem_cons_self, hz⟩
    · obtain ⟨x', hx', hf⟩ := ih hzs hy
      exact ⟨x', List.mem_cons_of_mem _ hx', hf⟩

theorem length_operands? {s : List Char} {ts : List (List Char)} (h : operands? s = some ts) :
    ∀ t ∈ ts, t.length < s.length := by
  intro t ht
  obtain ⟨inner, hinner, hts⟩ := Option.bind_eq_some_iff.1 h
  obtain ⟨w, hw, hoperand⟩ := mem_of_mapM hts ht
  obtain ⟨u, hu, hbefore⟩ := Option.bind_eq_some_iff.1 hinner
  have := length_operand? hoperand
  have := length_before? hbefore
  have := length_after? hu
  unfold argumentsOf at hw
  split at hw
  · cases hw
  · have := length_of_mem_splitArguments hw
    omega

end Shorter

theorem length_splitOnce {c : Char} {s a b : List Char} (h : splitOnce [c] s = some (a, b)) :
    b.length < s.length := by
  rw [eq_append_of_splitOnce h, List.length_append, List.length_cons]
  omega

namespace Command

/-- Reads a written command: a name up to the first equals sign, and what stands behind it. -/
def ofChars (s : List Char) : Option Command :=
  match hs : splitOnce ['='] s with
  | none => none
  | some (name, rest) =>
    if name = "not".toList then
      match ht : operand? rest with
      | none => none
      | some t =>
        have : t.length < s.length := Nat.lt_trans (length_operand? ht) (length_splitOnce hs)
        (ofChars t).map .not
    else if name = "and".toList ∨ name = "or".toList then
      match hts : operands? rest with
      | none => none
      | some ts =>
        let cs := ts.attach.mapM fun (t : { t // t ∈ ts }) =>
          have : t.1.length < s.length :=
            Nat.lt_trans (length_operands? hts t.1 t.2) (length_splitOnce hs)
          ofChars t.1
        cs.map (if name = "and".toList then .and else .or)
    else ((argumentsOf rest).mapM Arg.ofChars).map (.call (String.ofList name))
termination_by s.length

def read (s : String) : Option Command := ofChars s.toList

end Command

/-- An argument that is written as it is must show where it ends. -/
def Arg.Readable : Arg → Prop
  | .raw s => s ≠ "" ∧ ',' ∉ s.toList ∧ '"' ∉ s.toList
  | .str _ => True

namespace Command

mutual

/-- A call has a name of its own, which shows where it ends. -/
def Readable : Command → Prop
  | .call name args => name ≠ "" ∧ '=' ∉ name.toList ∧ name ∉ ["not", "and", "or"] ∧
      ∀ a ∈ args, a.Readable
  | .not c => c.Readable
  | .and cs => AllReadable cs
  | .or cs => AllReadable cs

def AllReadable : List Command → Prop
  | [] => True
  | c :: r => c.Readable ∧ AllReadable r

end

end Command

/-- Quotes, backslashes and commas of a text that has been escaped do not end its quotes. -/
theorem Quoting.spans_escapeChars (s : List Char) :
    Quoting.Spans .inside (escapeChars s) .inside := by
  induction s with
  | nil => rfl
  | cons c r ih =>
    have hinside (d : Char) : ¬(Quoting.inside = .outside ∧ d = ',') := fun h => nomatch h.1
    unfold escapeChars
    split
    · refine ⟨hinside _, ?_⟩
      exact ⟨fun h => (nomatch h.1), ih⟩
    · next hc =>
      simp only [Bool.or_eq_true, beq_iff_eq, not_or] at hc
      refine ⟨hinside _, ?_⟩
      rw [Quoting.next, if_neg hc.2, if_neg hc.1]
      exact ih

theorem Quoting.spans_quoted (s : List Char) :
    Quoting.Spans .outside ('"' :: (escapeChars s ++ ['"'])) .outside := by
  refine ⟨fun h => (nomatch h.2), ?_⟩
  exact (spans_escapeChars s).append ⟨fun h => (nomatch h.1), rfl⟩

theorem Quoting.spans_raw {s : List Char} (hcomma : ',' ∉ s) (hquote : '"' ∉ s) :
    Quoting.Spans .outside s .outside := by
  induction s with
  | nil => rfl
  | cons c r ih =>
    simp only [List.mem_cons, not_or] at hcomma hquote
    refine ⟨fun h => hcomma.1 h.2.symm, ?_⟩
    rw [Quoting.next, if_neg (Ne.symm hquote.1)]
    exact ih hcomma.2 hquote.2

theorem unquote_escapeChars (s : List Char) : unquote (escapeChars s ++ ['"']) = some s := by
  induction s with
  | nil => rfl
  | cons c r ih =>
    unfold escapeChars
    split
    · rw [List.cons_append, List.cons_append, unquote, ih]
      rfl
    · next hc =>
      simp only [Bool.or_eq_true, beq_iff_eq, not_or] at hc
      rw [List.cons_append, unquote.eq_4, ih]
      · rfl
      · exact hc.2
      · exact fun _ _ h => absurd h hc.1

/-- One argument and those behind the next comma. -/
theorem splitArguments_append {p : Quoting} {w : List Char} (hw : Quoting.Spans p w .outside)
    (rest : List Char) :
    splitArguments p (w ++ ',' :: rest) = w :: splitArguments .outside rest ∧
      splitArguments p w = [w] := by
  induction w generalizing p with
  | nil =>
    cases hw
    exact ⟨if_pos ⟨rfl, rfl⟩, rfl⟩
  | cons c r ih =>
    obtain ⟨hrest, hlast⟩ := ih hw.2
    constructor
    · rw [List.cons_append, splitArguments, if_neg hw.1, hrest]
    · rw [splitArguments, if_neg hw.1, hlast]

/-- Arguments with commas between them are told apart. -/
theorem argumentsOf_intercalate {ws : List (List Char)}
    (hws : ∀ w ∈ ws, w ≠ [] ∧ Quoting.Spans .outside w .outside) :
    argumentsOf ([','].intercalate ws) = ws := by
  have hsplit {w : List Char} {vs : List (List Char)}
      (hvs : ∀ v ∈ w :: vs, v ≠ [] ∧ Quoting.Spans .outside v .outside) :
      splitArguments .outside ([','].intercalate (w :: vs)) = w :: vs := by
    induction vs generalizing w with
    | nil =>
      rw [List.intercalate_singleton]
      exact (splitArguments_append (hvs w List.mem_cons_self).2 []).2
    | cons v vs ih =>
      rw [List.intercalate_cons_cons, List.append_assoc, List.singleton_append,
        (splitArguments_append (hvs w List.mem_cons_self).2 _).1,
        ih fun u hu => hvs u (List.mem_cons_of_mem _ hu)]
  cases ws with
  | nil => rfl
  | cons w vs =>
    have hne : ([','].intercalate (w :: vs)).isEmpty = false := by
      obtain ⟨c, r, rfl⟩ := List.exists_cons_of_ne_nil (hws w List.mem_cons_self).1
      cases vs <;> rfl
    rw [argumentsOf, hne]
    exact hsplit hws

theorem toList_nest (text : String) :
    (Command.nest text).toList = '"' :: (escapeChars ('$' :: text.toList) ++ ['"']) := by
  simp [Command.nest, escape, escapeChars]

theorem operand?_nest (text : String) : operand? (Command.nest text).toList = some text.toList := by
  rw [toList_nest, operand?, unquote_escapeChars]
  rfl

theorem toList_joinWith (parts : List String) :
    (joinWith "," parts).toList = [','].intercalate (parts.map String.toList) :=
  String.toList_intercalate

/-- An argument shows where it ends, and what it is. -/
theorem Arg.ofChars_render {a : Arg} (ha : a.Readable) : a.render.toList ≠ [] ∧
    Quoting.Spans .outside a.render.toList .outside ∧ Arg.ofChars a.render.toList = some a := by
  cases a with
  | raw s =>
    obtain ⟨hne, hcomma, hquote⟩ := ha
    rw [Arg.render]
    refine ⟨by simpa using hne, Quoting.spans_raw hcomma hquote, ?_⟩
    unfold Arg.ofChars
    split
    · next heq => exact absurd (heq ▸ List.mem_cons_self) hquote
    · rw [String.ofList_toList]
  | str s =>
    have hrender : (Arg.str s).render.toList = '"' :: (escapeChars s.toList ++ ['"']) := by
      simp [Arg.render, escape]
    rw [hrender]
    refine ⟨List.cons_ne_nil _ _, Quoting.spans_quoted _, ?_⟩
    rw [Arg.ofChars, unquote_escapeChars, Option.map_some, String.ofList_toList]

theorem attach_mapM {α β : Type} (f : α → Option β) (xs : List α) :
    (xs.attach.mapM fun x => f x.1) = xs.mapM f := by
  rw [List.mapM_subtype (fun _ _ => rfl), List.unattach_attach]

theorem mapM_map_some {α β γ : Type} {f : β → Option γ} {g : α → β} {k : α → γ} {xs : List α}
    (h : ∀ x ∈ xs, f (g x) = some (k x)) : (xs.map g).mapM f = some (xs.map k) := by
  induction xs with
  | nil => rfl
  | cons x xs ih =>
    rw [List.map_cons, List.mapM_cons, h x List.mem_cons_self,
      ih fun y hy => h y (List.mem_cons_of_mem _ hy)]
    rfl

namespace Command

/-- What a text reads as, once its name is known. -/
theorem ofChars_of_splitOnce {s name rest : List Char}
    (h : splitOnce ['='] s = some (name, rest)) : ofChars s =
      if name = "not".toList then (operand? rest).bind fun t => (ofChars t).map .not
      else if name = "and".toList ∨ name = "or".toList then
        (operands? rest).bind fun ts =>
          (ts.mapM ofChars).map (if name = "and".toList then .and else .or)
      else ((argumentsOf rest).mapM Arg.ofChars).map (.call (String.ofList name)) := by
  rw [ofChars]
  split
  · next heq =>
    rw [h] at heq
    cases heq
  next heq =>
  rw [h] at heq
  cases heq
  split
  · split
    · next ht => rw [ht, Option.bind_none]
    · next ht => exact (congrArg (Option.bind · fun t => (ofChars t).map Command.not) ht).symm
  split
  · split
    · next hts => rw [hts, Option.bind_none]
    · next ts hts =>
      have hbind := congrArg (Option.bind · fun ts =>
        (ts.mapM ofChars).map (if name = "and".toList then Command.and else .or)) hts
      rw [hbind, Option.bind_some]
      exact congrArg (Option.map _) (attach_mapM ofChars ts)
  · rfl

theorem ofChars_call {name : String} {args : List Arg} (h : (call name args).Readable) :
    ofChars (call name args).render.toList = some (call name args) := by
  obtain ⟨-, hname, hword, hargs⟩ := h
  have htext : (call name args).render.toList =
      name.toList ++ '=' :: [','].intercalate (args.map fun a => a.render.toList) := by
    simp [render, toList_joinWith, Function.comp_def]
  have hsplit : argumentsOf ([','].intercalate (args.map fun a => a.render.toList)) =
      args.map fun a => a.render.toList := by
    apply argumentsOf_intercalate
    intro w hw
    obtain ⟨a, ha, rfl⟩ := List.mem_map.1 hw
    obtain ⟨hne, hspans, -⟩ := Arg.ofChars_render (hargs a ha)
    exact ⟨hne, hspans⟩
  have hread : (args.map fun a => a.render.toList).mapM Arg.ofChars = some (args.map id) :=
    mapM_map_some fun a ha => (Arg.ofChars_render (hargs a ha)).2.2
  rw [List.map_id] at hread
  simp only [List.mem_cons, List.not_mem_nil, or_false, not_or, ← String.toList_inj] at hword
  rw [htext, ofChars_of_splitOnce (splitOnce_append hname _), if_neg hword.1,
    if_neg (not_or.2 hword.2), hsplit, hread, Option.map_some, String.ofList_toList]

theorem ofChars_not {c : Command} (h : ofChars c.render.toList = some c) :
    ofChars (not c).render.toList = some (not c) := by
  have htext : (not c).render.toList = "not".toList ++ '=' :: (nest c.render).toList := by
    simp [render]
  rw [htext, ofChars_of_splitOnce (splitOnce_append (by decide) _), if_pos rfl, operand?_nest,
    Option.bind_some, h, Option.map_some]

theorem renderAll_eq (cs : List Command) :
    render.renderAll cs = cs.map fun c => nest c.render := by
  induction cs with
  | nil => rfl
  | cons c cs ih => rw [render.renderAll, ih, List.map_cons]

theorem operands?_renderAll (cs : List Command) :
    operands? ('\x7b' :: ([','].intercalate (cs.map fun c => (nest c.render).toList) ++ ['\x7d'])) =
      some (cs.map fun c => c.render.toList) := by
  have hbraces (s : List Char) :
      (after? ['\x7b'] ('\x7b' :: (s ++ ['\x7d']))).bind (before? ['\x7d']) = some s := by
    simp [after?, before?]
  have hsplit : argumentsOf ([','].intercalate (cs.map fun c => (nest c.render).toList)) =
      cs.map fun c => (nest c.render).toList := by
    apply argumentsOf_intercalate
    intro w hw
    obtain ⟨c, -, rfl⟩ := List.mem_map.1 hw
    rw [toList_nest]
    exact ⟨List.cons_ne_nil _ _, Quoting.spans_quoted _⟩
  have hread : (cs.map fun c => (nest c.render).toList).mapM operand? =
      some (cs.map fun c => c.render.toList) := mapM_map_some fun c _ => operand?_nest c.render
  rw [operands?, hbraces]
  simp only [Option.bind_eq_bind, Option.bind_some, hsplit, hread]

/-- A conjunction or disjunction reads back, if what it joins does. -/
theorem ofChars_joined {cs : List Command} (h : ∀ c ∈ cs, ofChars c.render.toList = some c) :
    ofChars (and cs).render.toList = some (and cs) ∧
      ofChars (or cs).render.toList = some (or cs) := by
  have hand : (and cs).render.toList = "and".toList ++ '=' ::
      ('\x7b' :: ([','].intercalate (cs.map fun c => (nest c.render).toList) ++ ['\x7d'])) := by
    simp [render, toList_joinWith, renderAll_eq, Function.comp_def]
  have hor : (or cs).render.toList = "or".toList ++ '=' ::
      ('\x7b' :: ([','].intercalate (cs.map fun c => (nest c.render).toList) ++ ['\x7d'])) := by
    simp [render, toList_joinWith, renderAll_eq, Function.comp_def]
  have hread : (cs.map fun c => c.render.toList).mapM ofChars = some (cs.map id) := mapM_map_some h
  rw [List.map_id] at hread
  constructor
  · rw [hand, ofChars_of_splitOnce (splitOnce_append (by decide) _),
      if_neg (by decide), if_pos (.inl rfl), operands?_renderAll, Option.bind_some, hread]
    rfl
  · rw [hor, ofChars_of_splitOnce (splitOnce_append (by decide) _),
      if_neg (by decide), if_pos (.inr rfl), operands?_renderAll, Option.bind_some, hread]
    rfl

mutual

theorem ofChars_render : {c : Command} → c.Readable → ofChars c.render.toList = some c
  | .call _ _, hc => ofChars_call hc
  | .not _, hc => ofChars_not (ofChars_render hc)
  | .and _, hcs => (ofChars_joined (ofChars_renderAll hcs)).1
  | .or _, hcs => (ofChars_joined (ofChars_renderAll hcs)).2

theorem ofChars_renderAll : {cs : List Command} → AllReadable cs →
    ∀ c ∈ cs, ofChars c.render.toList = some c
  | [], _ => fun _ hc => (nomatch hc)
  | d :: r, hcs => by
    intro c hc
    rcases List.mem_cons.1 hc with heq | hc
    · rw [heq]
      exact ofChars_render hcs.1
    · exact ofChars_renderAll hcs.2 c hc

end

/-- A command reads back as it is written, and no other command is written as it is. -/
theorem render_uniquely_readable {c : Command} (hc : c.Readable) :
    read c.render = some c ∧ ∀ d : Command, d.Readable → d.render = c.render → d = c := by
  refine ⟨ofChars_render hc, fun d hd hsame => ?_⟩
  have hread : ofChars d.render.toList = some d := ofChars_render hd
  rw [hsame, ofChars_render hc] at hread
  exact (Option.some.inj hread).symm

/-- A needle full of signs that mean something to the reader, three levels deep. -/
theorem render_uniquely_readable_nested :
    let c : Command := .and [.not (.or [.contains "d.name=" "a\\\",\x7b$=", .call "d.x" []]), .and []]
    c.Readable ∧ read c.render = some c := by
  intro c
  have hc : c.Readable := by
    simp [c, Readable, AllReadable, contains, Arg.Readable]
  exact ⟨hc, (render_uniquely_readable hc).1⟩

end Command

end TorrentQuery
