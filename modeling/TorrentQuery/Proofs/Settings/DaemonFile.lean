import TorrentQuery.Proofs.Text.Blank
import TorrentQuery.Proofs.Text.Split
import TorrentQuery.Settings.DaemonFile

namespace TorrentQuery.DaemonFile

open Text

inductive Part where
  | literal (s : List Char)
  | reference (name : List Char)

structure Definition where
  name : List Char
  parts : List Part

def IsName (s : List Char) : Prop := s ≠ [] ∧ ∀ c ∈ s, c.isAlphanum = true ∨ c = '.' ∨ c = '_'

namespace Part

def Proper : Part → Prop
  | literal s => '"' ∉ s ∧ '\n' ∉ s
  | reference name => IsName name

def written : Part → List Char
  | literal s => '"' :: (s ++ ['"'])
  | reference name => '(' :: (name ++ [')'])

def value (text : List Char → List Char) : Part → List Char
  | literal s => s
  | reference name => text name

end Part

/-- The text of a name after some definitions, the latest of them first. -/
def textOf : List Definition → List Char → List Char
  | [], _ => []
  | d :: earlier, name =>
    if d.name = name then d.parts.flatMap (Part.value (textOf earlier)) else textOf earlier name

def valueOf (earlier : List Definition) (parts : List Part) : List Char :=
  parts.flatMap (Part.value (textOf earlier))

def arguments (parts : List Part) : List Char := [','].intercalate (parts.map Part.written)

def concatenation (parts : List Part) : List Char :=
  ['(', 'c', 'a', 't', ','] ++ (arguments parts ++ [')'])

/-- A line that tells nothing: a blank one, or a comment that does not go on in the next line. -/
def Silent (s : List Char) : Prop :=
  '\n' ∉ s ∧ (trim s = [] ∨ (trim s).head? = some '#' ∧ (trim s).getLast? ≠ some '\\')

inductive Line where
  | silent (s : List Char)
  | definition (d : Definition)
  /-- Where the daemon listens. -/
  | endpoint (key : String) (parts : List Part)

namespace Line

def definitionKey : String := "method.insert"

def Proper : Line → Prop
  | silent s => Silent s
  | definition d => IsName d.name ∧ ∀ part ∈ d.parts, part.Proper
  | endpoint key parts => key ∈ portKeys ++ localKeys ∧ ∀ part ∈ parts, part.Proper

def pair (key : String) (value : List Char) : List Char := key.toList ++ " = ".toList ++ value

def defining (d : Definition) : List Char :=
  d.name ++ (", private|const|string, ".toList ++ concatenation d.parts)

def written : Line → List Char
  | silent s => s
  | definition d => pair definitionKey (defining d)
  | endpoint key parts => pair key (concatenation parts)

end Line

def told : List Definition → List Line → List (String × String)
  | _, [] => []
  | earlier, .silent _ :: r => told earlier r
  | earlier, .definition d :: r =>
    (Line.definitionKey, String.ofList (valueOf earlier d.parts)) :: told (d :: earlier) r
  | earlier, .endpoint key parts :: r =>
    (key, String.ofList (valueOf earlier parts)) :: told earlier r

-- only the characters of the text are looked at, not all characters there are
instance : DecidablePred IsName := fun s =>
  @instDecidableAnd _ _ (inferInstanceAs (Decidable (s ≠ [])))
    (List.decidableBAll (fun c => c.isAlphanum = true ∨ c = '.' ∨ c = '_') s)

instance : DecidablePred Part.Proper
  | .literal s => inferInstanceAs (Decidable ('"' ∉ s ∧ '\n' ∉ s))
  | .reference name => inferInstanceAs (Decidable (IsName name))

instance : DecidablePred Silent := fun s =>
  inferInstanceAs (Decidable ('\n' ∉ s ∧
    (trim s = [] ∨ (trim s).head? = some '#' ∧ (trim s).getLast? ≠ some '\\')))

instance : DecidablePred Line.Proper
  | .silent s => inferInstanceAs (Decidable (Silent s))
  | .definition d => inferInstanceAs (Decidable (IsName d.name ∧ ∀ part ∈ d.parts, part.Proper))
  | .endpoint key parts =>
    inferInstanceAs (Decidable (key ∈ portKeys ++ localKeys ∧ ∀ part ∈ parts, part.Proper))

def content (ls : List Line) : String := String.ofList (['\n'].intercalate (ls.map Line.written))

section Names

variable {name : List Char}

theorem IsName.not_isBlank (h : IsName name) : ∀ c ∈ name, isBlank c = false := by
  intro c hc
  rcases h.2 c hc with hc | rfl | rfl
  · exact not_isBlank_of_isAlphanum hc
  · decide
  · decide

theorem IsName.isNameChar (h : IsName name) : ∀ c ∈ name, DaemonFile.isNameChar c = true := by
  intro c hc
  rcases h.2 c hc with hc | rfl | rfl
  · rw [DaemonFile.isNameChar, isWordChar, if_pos (ascii_of_isAlphanum hc), hc, Bool.true_or,
      Bool.or_true]
  · decide
  · decide

theorem IsName.not_mem (h : IsName name) {c : Char} (hc : DaemonFile.isNameChar c = false) :
    c ∉ name := by
  intro hmem
  rw [h.isNameChar c hmem] at hc
  cases hc

theorem isName_definitionKey : IsName Line.definitionKey.toList := by
  decide

theorem isName_of_mem {key : String} (h : key ∈ portKeys ++ localKeys) : IsName key.toList := by
  have hall : ∀ key ∈ portKeys ++ localKeys, IsName key.toList := by
    decide
  exact hall key h

end Names

section Expansion

variable {ds : Definitions} {earlier : List Definition} {parts : List Part}

/-- The texts that were noted down are those of the definitions. -/
def Notes (ds : Definitions) (earlier : List Definition) : Prop :=
  ∀ name, IsName name → ds.text name = String.ofList (textOf earlier name)

theorem text_setMember (key value : String) (ds : Definitions) (name : List Char) :
    Definitions.text (Json.setMember key value ds) name =
      if key.toList = trim name then value else ds.text name := by
  induction ds with
  | nil => by_cases h : key.toList = trim name <;> simp [Definitions.text, Json.setMember, h]
  | cons d ds ih =>
    obtain ⟨k, v⟩ := d
    rw [Json.setMember]
    by_cases hk : k = key
    · subst hk
      by_cases h : k.toList = trim name <;> simp [Definitions.text, h]
    · rw [if_neg hk]
      by_cases h : k.toList = trim name
      · have hother : key.toList ≠ trim name := fun hkey => hk (String.toList_inj.1 (h.trans hkey.symm))
        simp [Definitions.text, h, hother]
      · have hskip (es : Definitions) : Definitions.text ((k, v) :: es) name = es.text name := by
          simp [Definitions.text, h]
        rw [hskip, hskip, ih]

/-- One more definition is noted down, in place of any other of the name. -/
theorem Notes.setMember (h : Notes ds earlier) (d : Definition) :
    Notes (Json.setMember (String.ofList d.name) (String.ofList (valueOf earlier d.parts)) ds)
      (d :: earlier) := by
  intro name hn
  rw [text_setMember, String.toList_ofList, trim_of_none hn.not_isBlank, textOf]
  by_cases heq : d.name = name
  · rw [if_pos heq, if_pos heq]
    rfl
  · rw [if_neg heq, if_neg heq]
    exact h name hn

theorem upTo?_append {stop : Char → Bool} {s : List Char} (hs : ∀ c ∈ s, stop c = false) {c : Char}
    (hc : stop c = true) (r : List Char) : upTo? stop (s ++ c :: r) = some (s, c, r) := by
  have hstays : ∀ c ∈ s, (!stop c) = true := fun c hc => by rw [hs c hc]; rfl
  have hstops : (c :: r).head?.all (!!stop ·) = true := by simpa using hc
  obtain ⟨htake, hdrop⟩ := span_append (p := (!stop ·)) hstays hstops
  rw [upTo?, htake, hdrop]

theorem readPart?_written (h : Notes ds earlier) {part : Part} (hpart : part.Proper) (r : List Char) :
    readPart? ds (part.written ++ r) =
      some (String.ofList (part.value (textOf earlier)), r) := by
  cases part with
  | literal s =>
    rw [Part.written, List.cons_append, List.append_assoc, List.singleton_append, readPart?,
      upTo?_append (beq_eq_false_of_not_mem hpart.1) rfl]
    rfl
  | reference name =>
    have hname : IsName name := hpart
    have hparen : ∀ c ∈ name, (c == '(' || c == ')') = false := by
      intro c hc
      have hopening := beq_eq_false_of_not_mem (hname.not_mem (c := '(') (by decide)) c hc
      have hclosing := beq_eq_false_of_not_mem (hname.not_mem (c := ')') (by decide)) c hc
      rw [hopening, hclosing]
      rfl
    rw [Part.written, List.cons_append, List.append_assoc, List.singleton_append, readPart?,
      upTo?_append hparen rfl]
    simp only [h name hname]
    rfl

theorem expandFrom_written (h : Notes ds earlier) {part : Part} (hpart : part.Proper) (fuel : Nat)
    (r : List Char) : expandFrom ds (fuel + 1) (part.written ++ r) =
      String.ofList (part.value (textOf earlier)) ++ expandFrom ds fuel r := by
  have hread := readPart?_written h hpart r
  obtain ⟨c, s, hs⟩ : ∃ c s, part.written ++ r = c :: s := by
    cases part with
    | literal s => exact ⟨_, _, rfl⟩
    | reference name => exact ⟨_, _, rfl⟩
  rw [hs] at hread ⊢
  rw [expandFrom, hread]

theorem expandFrom_arguments (h : Notes ds earlier) (hparts : ∀ part ∈ parts, part.Proper)
    {fuel : Nat} (hfuel : (arguments parts).length ≤ fuel) :
    expandFrom ds fuel (arguments parts) = String.ofList (valueOf earlier parts) := by
  have hend (fuel : Nat) : expandFrom ds fuel [] = "" := by cases fuel <;> rfl
  have hlength (part : Part) : 2 ≤ part.written.length := by
    cases part <;> simp [Part.written]
  induction parts generalizing fuel with
  | nil => exact hend fuel
  | cons part parts ih =>
    obtain ⟨hpart, hparts⟩ := List.forall_mem_cons.1 hparts
    have htwo := hlength part
    cases parts with
    | nil =>
      have hwritten : arguments [part] = part.written ++ [] := by simp [arguments]
      rw [hwritten] at hfuel ⊢
      rw [List.length_append] at hfuel
      obtain ⟨fuel, rfl⟩ : ∃ n, fuel = n + 1 := ⟨fuel - 1, by omega⟩
      rw [expandFrom_written h hpart, hend]
      simp [valueOf]
    | cons next parts =>
      have hwritten : arguments (part :: next :: parts) =
          part.written ++ ',' :: arguments (next :: parts) := by
        simp [arguments]
      rw [hwritten] at hfuel ⊢
      rw [List.length_append, List.length_cons] at hfuel
      -- one step for the part, and one for the comma
      obtain ⟨fuel, rfl⟩ : ∃ n, fuel = n + 1 + 1 := ⟨fuel - 2, by omega⟩
      have hcomma : expandFrom ds (fuel + 1) (',' :: arguments (next :: parts)) =
          expandFrom ds fuel (arguments (next :: parts)) := rfl
      rw [expandFrom_written h hpart, hcomma, ih hparts (by omega), ← String.ofList_append]
      rfl

/-- Each part stands for its text. -/
theorem expand_arguments (h : Notes ds earlier) (hparts : ∀ part ∈ parts, part.Proper) :
    expand ds (arguments parts) = String.ofList (valueOf earlier parts) :=
  expandFrom_arguments h hparts Nat.le.refl

end Expansion

section Evaluation

variable {ds : Definitions} {earlier : List Definition}

theorem concatenation?_concatenation (parts : List Part) :
    concatenation? (concatenation parts) = some (arguments parts) := by
  rw [concatenation?, concatenation, after?_append, Option.bind_some, before?_append]

theorem definition?_defining {d : Definition} (h : IsName d.name) :
    definition? (Line.defining d) = some (String.ofList d.name, arguments d.parts) := by
  have hends : (", private|const|string, ".toList ++ concatenation d.parts).head?.all
      (!isNameChar ·) = true := rfl
  obtain ⟨htake, hdrop⟩ := span_append h.isNameChar hends
  have hname : d.name.isEmpty = false := by simpa using h.1
  have hcomma : after? [','] (", private|const|string, ".toList ++ concatenation d.parts) =
      some (' ' :: ("private|const|string,".toList ++ ' ' :: concatenation d.parts)) :=
    after?_append _ _
  have hkind : after? "private|const|string,".toList (trimStart
      (' ' :: ("private|const|string,".toList ++ ' ' :: concatenation d.parts))) =
      some (' ' :: concatenation d.parts) := after?_append _ _
  have hvalue : concatenation? (trimStart (' ' :: concatenation d.parts)) =
      some (arguments d.parts) := concatenation?_concatenation d.parts
  rw [definition?, Line.defining, htake, hdrop, hname, if_neg Bool.false_ne_true, hcomma,
    Option.bind_eq_bind, Option.bind_some, hkind, Option.bind_some, hvalue]
  rfl

theorem definition?_concatenation (parts : List Part) : definition? (concatenation parts) = none :=
  rfl

theorem getLast?_concatenation (parts : List Part) : (concatenation parts).getLast? = some ')' := by
  rw [concatenation, ← List.append_assoc, List.getLast?_concat]

theorem getLast?_defining (d : Definition) : (Line.defining d).getLast? = some ')' := by
  rw [Line.defining, List.getLast?_append, List.getLast?_append, getLast?_concatenation]
  rfl

theorem head?_defining {d : Definition} (h : IsName d.name) :
    (Line.defining d).head?.all (!isBlank ·) = true := by
  obtain ⟨c, s, hcs⟩ := List.exists_cons_of_ne_nil h.1
  have hblank := h.not_isBlank c (hcs ▸ List.mem_cons_self)
  simp [Line.defining, hcs, hblank]

theorem evaluate_defining (h : Notes ds earlier) {d : Definition} (hd : (Line.definition d).Proper)
    (key : String) : ∃ ds', Notes ds' (d :: earlier) ∧
      evaluate ds key (Line.defining d) = (String.ofList (valueOf earlier d.parts), ds') := by
  refine ⟨_, h.setMember d, ?_⟩
  rw [evaluate, definition?_defining hd.1]
  simp only [expand_arguments h hd.2]

theorem evaluate_concatenation (h : Notes ds earlier) {key : String}
    {parts : List Part} (hline : (Line.endpoint key parts).Proper) :
    evaluate ds key (concatenation parts) = (String.ofList (valueOf earlier parts), ds) := by
  have hkey : (portKeys ++ localKeys).contains key = true := List.contains_iff_mem.2 hline.1
  rw [evaluate, definition?_concatenation]
  simp only [hkey, concatenation?_concatenation, expand_arguments h hline.2, if_true]

end Evaluation

section Reading

variable {ds : Definitions} {key : String} {value s : List Char}

theorem pair_eq (key : String) (value : List Char) :
    Line.pair key value = (key.toList ++ [' ']) ++ '=' :: ' ' :: value := by
  simp [Line.pair]

theorem head?_pair (hkey : IsName key.toList) (value : List Char) :
    ∃ c, (Line.pair key value).head? = some c ∧ isBlank c = false ∧ c ≠ '#' := by
  obtain ⟨c, s, hcs⟩ := List.exists_cons_of_ne_nil hkey.1
  have hmem : c ∈ key.toList := hcs ▸ List.mem_cons_self
  refine ⟨c, ?_, hkey.not_isBlank c hmem, ?_⟩
  · rw [pair_eq, hcs]
    rfl
  · rintro rfl
    exact hkey.not_mem (c := '#') (by decide) hmem

theorem getLast?_pair (hlast : value.getLast? = some ')') :
    (Line.pair key value).getLast? = some ')' := by
  simp [pair_eq, List.getLast?_append, List.getLast?_cons, hlast]

theorem trim_pair (hkey : IsName key.toList) (hlast : value.getLast? = some ')') :
    trim (Line.pair key value) = Line.pair key value := by
  obtain ⟨c, hc, hblank, -⟩ := head?_pair hkey value
  apply trim_of_ends
  · simp [hc, hblank]
  · rw [getLast?_pair hlast]
    rfl

/-- A line of a key and a value. -/
theorem entriesFrom_pair (ds : Definitions) (hkey : IsName key.toList)
    (hhead : value.head?.all (!isBlank ·) = true) (hlast : value.getLast? = some ')')
    (r : List (List Char)) :
    entriesFrom ds false (trim (Line.pair key value) :: r) =
      (key, (evaluate ds key value).1) :: entriesFrom (evaluate ds key value).2 false r := by
  obtain ⟨c, hc, -, hcomment⟩ := head?_pair hkey value
  have hreads : (false || (Line.pair key value).isEmpty ||
      (Line.pair key value).head? == some '#') = false := by
    have hne : (Line.pair key value).isEmpty = false := by simp [pair_eq]
    rw [hne, hc]
    simpa using hcomment
  -- the line ends with the parenthesis, so it does not take the next one along
  have hgoesOn : ((Line.pair key value).getLast? == some '\\') = false := by
    rw [getLast?_pair hlast]
    rfl
  have hequals : '=' ∉ key.toList ++ [' '] := by
    rw [List.mem_append, not_or]
    exact ⟨hkey.not_mem (by decide), by decide⟩
  have hkeyPart : trim (key.toList ++ [' ']) = key.toList := by
    rw [trim_append rfl, trim_of_none hkey.not_isBlank]
  have hvaluePart : trim (' ' :: value) = value := by
    rw [trim_cons rfl]
    apply trim_of_ends hhead
    rw [hlast]
    rfl
  rw [trim_pair hkey hlast, entriesFrom, hreads, hgoesOn, pair_eq, splitOnce_append hequals]
  simp only [hkeyPart, hvaluePart, String.ofList_toList, Bool.false_eq_true, if_false]

/-- A line that tells nothing is passed over. -/
theorem entriesFrom_silent (h : Silent s) (r : List (List Char)) :
    entriesFrom ds false (trim s :: r) = entriesFrom ds false r := by
  rcases h.2 with hempty | ⟨hcomment, hlast⟩
  · rw [hempty]
    rfl
  · have hgoesOn : ((trim s).getLast? == some '\\') = false := beq_eq_false_iff_ne.2 hlast
    rw [entriesFrom, hgoesOn, hcomment]
    simp

/-- Where a line ends does not show once it is trimmed. -/
theorem map_trim_lines (s : List Char) :
    (splitWhere (· == '\n') s).map trim = (lines s).map trim ∨
      (splitWhere (· == '\n') s).map trim = (lines s).map trim ++ [[]] := by
  have hstrip : ∀ l, trim ((before? ['\r'] l).getD l) = trim l := by
    intro l
    cases h : before? ['\r'] l with
    | none => rfl
    | some a =>
      rw [append_of_before? h, trim_append rfl]
      rfl
  have hclosed (ls : List (List Char)) :
      (ls.map fun l => (before? ['\r'] l).getD l).map trim = ls.map trim := by
    rw [List.map_map]
    exact List.map_congr_left fun l _ => hstrip l
  have hne := splitWhere_ne_nil (p := (· == '\n')) s
  have hparts := List.dropLast_concat_getLast hne
  rw [lines, List.getLast?_eq_some_getLast hne]
  cases hlast : (splitWhere (· == '\n') s).getLast hne with
  | nil =>
    right
    rw [hlast] at hparts
    rw [hclosed, ← hparts, List.map_append, List.dropLast_concat]
    rfl
  | cons c r =>
    left
    rw [hlast] at hparts
    rw [List.map_append, hclosed, ← List.map_append, hparts]

/-- A blank line at the end tells nothing. -/
theorem entriesFrom_append_blank (ls : List (List Char)) (ds : Definitions) (continued : Bool) :
    entriesFrom ds continued (ls ++ [[]]) = entriesFrom ds continued ls := by
  induction ls generalizing ds continued with
  | nil => simp [entriesFrom]
  | cons line r ih => simp only [List.cons_append, entriesFrom, ih]

theorem entries_eq (content : String) :
    entries content = entriesFrom [] false ((splitWhere (· == '\n') content.toList).map trim) := by
  rcases map_trim_lines content.toList with h | h
  · rw [h, entries]
  · rw [h, entriesFrom_append_blank, entries]

end Reading

section Content

variable {ds : Definitions} {earlier : List Definition} {ls : List Line}

/-- Lines tell what their definitions say. -/
theorem entriesFrom_told (h : Notes ds earlier) (hls : ∀ l ∈ ls, l.Proper) :
    entriesFrom ds false ((ls.map Line.written).map trim) = told earlier ls := by
  -- what a line defines is noted down for the lines behind it
  induction ls generalizing ds earlier with
  | nil => rfl
  | cons l ls ih =>
    obtain ⟨hl, hrest⟩ := List.forall_mem_cons.1 hls
    rw [List.map_cons, List.map_cons]
    cases l with
    | silent s =>
      rw [Line.written, entriesFrom_silent hl, told]
      exact ih h hrest
    | definition d =>
      obtain ⟨ds', hnotes, heval⟩ := evaluate_defining h hl Line.definitionKey
      have hpair := entriesFrom_pair ds isName_definitionKey (head?_defining hl.1)
        (getLast?_defining d)
      rw [Line.written, hpair, heval, told, ih hnotes hrest]
    | endpoint key parts =>
      have hhead : (concatenation parts).head?.all (!isBlank ·) = true := rfl
      have hpair := entriesFrom_pair ds (isName_of_mem hl.1) hhead (getLast?_concatenation parts)
      rw [Line.written, hpair, evaluate_concatenation h hl, told, ih h hrest]

theorem not_mem_concatenation {parts : List Part} (h : ∀ part ∈ parts, part.Proper) :
    '\n' ∉ concatenation parts := by
  intro hmem
  have hwritten : '\n' ∈ arguments parts := by
    simpa [concatenation] using hmem
  rcases mem_intercalate hwritten with hcomma | ⟨a, ha, hc⟩
  · exact absurd hcomma (by decide)
  · obtain ⟨part, hpart, rfl⟩ := List.mem_map.1 ha
    cases part with
    | literal s =>
      apply (h _ hpart).2
      simpa [Part.written] using hc
    | reference name =>
      have hname : IsName name := h _ hpart
      apply hname.not_mem (c := '\n') (by decide)
      simpa [Part.written] using hc

/-- A line of its own holds no line feed. -/
theorem not_mem_written {l : Line} (h : l.Proper) : '\n' ∉ l.written := by
  have hpair {key : String} (hkey : IsName key.toList) {value : List Char} (hvalue : '\n' ∉ value) :
      '\n' ∉ Line.pair key value := by
    have hkey := hkey.not_mem (c := '\n') (by decide)
    simp [Line.pair, hkey, hvalue]
  cases l with
  | silent s => exact h.1
  | definition d =>
    apply hpair isName_definitionKey
    have hname := h.1.not_mem (c := '\n') (by decide)
    have hparts := not_mem_concatenation h.2
    simp [Line.defining, hname, hparts]
  | endpoint key parts => exact hpair (isName_of_mem h.1) (not_mem_concatenation h.2)

/-- A file says what its definitions say by recursion. -/
theorem entries_content (hls : ∀ l ∈ ls, l.Proper) : entries (content ls) = told [] ls := by
  have hnotes : Notes [] [] := fun _ _ => rfl
  rw [entries_eq, content, String.toList_ofList]
  by_cases hempty : ls = []
  · subst hempty
    rfl
  · rw [splitWhere_intercalate (by simpa using hempty), entriesFrom_told hnotes hls]
    intro a ha
    obtain ⟨l, hl, rfl⟩ := List.mem_map.1 ha
    exact not_mem_written (hls l hl)

/-- A name that is defined by itself, a literal with what separates parts, and a name that nothing
defines. -/
theorem entries_content_chain :
    let ls : List Line := [.silent "# base \\ path".toList,
      .definition ⟨"cfg.base".toList, [.literal "/x(y),=#".toList]⟩, .silent " ".toList,
      .definition ⟨"cfg.base".toList, [.reference "cfg.base".toList, .literal "/".toList,
        .reference "none".toList]⟩,
      .endpoint "network.scgi.open_local" [.reference "cfg.base".toList, .literal "s".toList]]
    (∀ l ∈ ls, l.Proper) ∧ entries (content ls) = [("method.insert", "/x(y),=#"),
      ("method.insert", "/x(y),=#/"), ("network.scgi.open_local", "/x(y),=#/s")] := by
  intro ls
  have hls : ∀ l ∈ ls, l.Proper := by decide +kernel
  refine ⟨hls, ?_⟩
  rw [entries_content hls]
  decide +kernel

/-- A comment goes on in the next line, too, if blanks follow its backslash. -/
theorem entries_blank_after_backslash :
    let comment := "# a\\ ".toList
    let d : Definition := ⟨"a".toList, [.literal "b".toList]⟩
    comment.head? = some '#' ∧ '\n' ∉ comment ∧ comment.getLast? ≠ some '\\' ∧
    (Line.definition d).Proper ∧
    entries (content [.silent comment, .definition d]) ≠
      told [] [.silent comment, .definition d] := by
  decide +kernel

end Content

end TorrentQuery.DaemonFile
