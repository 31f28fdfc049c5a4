import TorrentQuery.Proofs.Filter.Fields
import TorrentQuery.Proofs.Filter.Soundness
import TorrentQuery.Proofs.Torrent.Gate

namespace TorrentQuery

open Number Text

/-- The field is not the command for filtered multicalls itself. -/
def Readable (name : String) : Prop := ¬ "d_multicall.filtered".toList <+: name.toList

instance : DecidablePred Readable := fun _ => inferInstanceAs (Decidable (¬ _))

namespace Call

theorem Plain.of_start {start call : String} (h : start.toList <+: call.toList)
    (hprobe : ¬ start.toList <+: "system.listMethods".toList ∧
      ¬ "system.listMethods".toList <+: start.toList)
    (hfiltered : ¬ start.toList <+: "d.multicall.filtered".toList ∧
      ¬ "d.multicall.filtered".toList <+: start.toList) : Plain call where
  noProbe hcall := by
    rcases List.prefix_or_prefix_of_prefix h hcall with hstart | hstart
    · exact hprobe.1 hstart
    · exact hprobe.2 hstart
  unfiltered hcall := by
    rcases List.prefix_or_prefix_of_prefix h hcall with hstart | hstart
    · exact hfiltered.1 hstart
    · exact hfiltered.2 hstart

theorem plain_of_mem_core {f : Field} (hf : f ∈ Catalogue.coreFields) :
    ∀ call ∈ f.requires, Plain call := by
  have hall : ∀ f ∈ Catalogue.coreFields, ∀ call ∈ f.requires, Plain call := by decide
  exact hall f hf

theorem plain_of_mem_callsFor {prefetch : List String} (h : ∀ call ∈ prefetch, Plain call) :
    ∀ call ∈ Selection.callsFor prefetch, Plain call := by
  have hall : ∀ call ∈ usual ++ base, Plain call := by decide
  intro call hcall
  have hmem : call ∈ usual ++ base ∨ call ∈ prefetch := by
    unfold Selection.callsFor at hcall
    split at hcall
    · exact .inl (List.mem_append_left _ (TextSet.mem_ofList.1 hcall))
    · rcases List.mem_append.1 (TextSet.mem_ofList.1 hcall) with hbase | hprefetch
      · exact .inl (List.mem_append_right _ hbase)
      · exact .inr hprefetch
  rcases hmem with husual | hprefetch
  · exact hall call husual
  · exact h call hprefetch

end Call

namespace Catalogue

/-- Points in place of underscores do not make a filtered multicall of any command. -/
theorem prefix_of_prefix_command {suffix : String}
    (h : "d.multicall.filtered".toList <+: (commandName suffix).toList) :
    "multicall.filtered".toList <+: suffix.toList := by
  have hplain (t : List Char) : "d.multicall.filtered".toList <+: "d.".toList ++ t ↔
      "multicall.filtered".toList <+: t := List.prefix_append_right_inj "d.".toList
  rcases toList_commandName suffix with heq | ⟨hdotted, heq⟩
  · rw [heq, hplain] at h
    exact h
  · have hall : ∀ name ∈ dottedCommands, ¬ "multicall.filtered".toList <+:
        (name.toList.drop 2).map fun c => if c == '_' then '.' else c := by decide
    have hnone := hall _ hdotted
    rw [String.toList_append, show ("d.".toList ++ suffix.toList).drop 2 = suffix.toList from rfl]
      at hnone
    rw [heq, hplain] at h
    exact absurd h hnone

theorem plain_command {suffix : String} (h : ¬ "multicall.filtered".toList <+: suffix.toList) :
    Call.Plain (commandName suffix ++ "=") := by
  have htext : (commandName suffix ++ "=").toList = (commandName suffix).toList ++ ['='] :=
    String.toList_append
  constructor
  · intro hprobe
    have hstart : "d.".toList <+: (commandName suffix ++ "=").toList := by
      rw [htext]
      rcases toList_commandName suffix with heq | ⟨-, heq⟩ <;> rw [heq, List.append_assoc] <;>
        exact List.prefix_append _ _
    rcases List.prefix_or_prefix_of_prefix hstart hprobe with hd | hd <;>
      exact absurd hd (by decide)
  · intro hfiltered
    rw [htext] at hfiltered
    rcases List.prefix_concat_iff.1 hfiltered with heq | hcommand
    · have hlast := congrArg List.getLast? heq
      rw [List.getLast?_concat] at hlast
      exact absurd hlast (by decide)
    · exact h (prefix_of_prefix_command hcommand)

theorem plain_part {part suffix : String}
    (hpart : part = "f" ∨ part = "p" ∨ part = "t") :
    Call.Plain (part ++ ".multicall=," ++ (part ++ "." ++ suffix ++ "=")) := by
  have hstart : (part ++ ".").toList <+:
      (part ++ ".multicall=," ++ (part ++ "." ++ suffix ++ "=")).toList := by
    rcases hpart with rfl | rfl | rfl <;> simp
  rcases hpart with rfl | rfl | rfl <;> exact .of_start hstart (by decide) (by decide)

/-- What a family's field requires is about the item, unless the field is the gated command. -/
theorem plain_requires {name : String} {f : Field} (hname : Readable name)
    (hf : registry.denotes name = .ok (some f)) : ∀ call ∈ f.requires, Call.Plain call := by
  unfold Registry.denotes at hf
  split at hf
  · next hget =>
    cases hf
    exact Call.plain_of_mem_core (List.mem_of_find?_eq_some hget)
  obtain ⟨g, hg, suffix, hstart, hmade⟩ := Registry.of_generateFrom hf
  have hpart (part : String) (h : part = "f" ∨ part = "p" ∨ part = "t")
      (hmade : partCommand part name suffix = .ok (some f)) :
      ∀ call ∈ f.requires, Call.Plain call := by
    unfold partCommand at hmade
    split at hmade
    · cases hmade
    · cases hmade
      exact List.forall_mem_singleton.2 (plain_part h)
  simp only [registry, generators, List.mem_cons, List.not_mem_nil, or_false] at hg
  rcases hg with rfl | rfl | rfl | rfl | rfl | rfl | rfl
  · obtain ⟨key, -, rfl⟩ := Option.map_eq_some_iff.1 (Except.ok.inj hmade)
    have hcustom : "d.custom".toList <+: (customCall key).toList := by
      unfold customCall
      split <;> simp
    have hplain : Call.Plain (customCall key) := .of_start hcustom (by decide) (by decide)
    exact List.forall_mem_singleton.2 hplain
  · simp only [kind] at hmade
    split at hmade
    · cases hmade
    · split at hmade
      · cases hmade
      · cases hmade
        exact List.forall_mem_singleton.2 (by decide)
  · simp only [release] at hmade
    split at hmade
    · cases hmade
    · cases hmade
      exact List.forall_mem_singleton.2 (by decide)
  · simp only [command] at hmade
    split at hmade
    · cases hmade
    · cases hmade
      have hsuffix : ¬ "multicall.filtered".toList <+: suffix.toList := by
        intro hsuffix
        apply hname
        rw [hstart]
        exact (List.prefix_append_right_inj "d_".toList).2 hsuffix
      have hplain := plain_command hsuffix
      exact List.forall_mem_singleton.2 hplain
  · exact hpart "f" (.inl rfl) hmade
  · exact hpart "p" (.inr (.inl rfl)) hmade
  · exact hpart "t" (.inr (.inr rfl)) hmade

end Catalogue

theorem Item.supplied_of_readable {name : String} (hname : Readable name) :
    Item.Supplied [] Call.Plain name where
  required f hf call hcall := .inr (Catalogue.plain_requires hname hf call hcall)
  title _ := .inr (by decide)
  kind _ := .inr (by decide)
  trackers _ _ := .inr (by decide)
  sizes _ _ := .inr (by decide)

theorem readable_of_all {p : Char → Bool} (hpoint : p '.' = false) {name : String}
    (h : ∀ c ∈ name.toList, p c = true) : Readable name := by
  intro hprefix
  have hmem : '.' ∈ name.toList := hprefix.subset (by decide)
  rw [h '.' hmem] at hpoint
  cases hpoint

/-- Filters that are read from a text name no field with a point in its name. -/
theorem Matcher.reads_of_ofText {α : Type} [Scalar α] {now : α} {text : String} {r : Registry}
    (hr : r.Faithful) {m : Matcher α} (h : ((ofText now text).run.run r).1 = .ok m) :
    ∀ f ∈ m.filters, f.Reads Readable := by
  have hleaf : Leaves now Token.Legible fun f : Filter α => f.Reads Readable := by
    have htemplates {field : Field} {op : Operator} {v : Literal} {f : Filter α}
        (hf : Filter.ofCondition now field op v = .ok f) (pieces : List Template.Piece)
        (hpieces : f.test = .pattern (.template pieces)) (name : String)
        (hname : .field name ∈ pieces) : Readable name := by
      obtain ⟨-, s, hread⟩ := Filter.of_ofCondition hf
      rw [hpieces] at hread
      rw [Test.pieces_of_read hread] at hname
      exact readable_of_all (by decide) (Template.isWordChar_of_mem_pieces hname)
    constructor
    · intro depth name op v f hlegible hname hf
      refine ⟨?_, htemplates hf⟩
      rw [hname]
      exact readable_of_all (by decide) hlegible.2.1
    · intro depth v f _ hname hf
      refine ⟨?_, htemplates hf⟩
      rw [hname]
      decide
  cases hread : Stmt.read text with
  | error e =>
    unfold ofText at h
    rw [hread] at h
    cases h
  | ok s =>
    have hfits : (Registry.runner r.denotes).fits r := ⟨hr, fun _ => rfl⟩
    have hm : ((ofText now text).run.run r).1.toOption =
        (ofAlternatives? r.denotes now s).map (pare .any) :=
      (settled_ofText r.denotes now hread r hfits).1
    rw [h] at hm
    obtain ⟨ms, hms, rfl⟩ := Option.map_eq_some_iff.1 hm.symm
    rw [(filters_pare ms).2]
    exact filters_ofAlternatives? (fun name f hf => Registry.name_of_denotes hr hf) hleaf
      (Stmt.legible_of_read hread).2 hms

def Filter.ofTag (tag : String) : Filter Float :=
  ⟨Catalogue.keyed "tagged" .set .taggedAs "" "d.custom=tags", .eq, .eq, ⟨tag, false⟩,
    .tags tag none⟩

inductive Operation (α : Type) where
  | hasMethod (method : String)
  | preFilter (m : Matcher α)
  | items (now : α) (view : String) (matcher : Option (Matcher α)) (prefetch : List String)
  | read (now : α) (item : Item) (name : String)

namespace Operation

variable {α : Type} [Scalar α] {settings : Settings} {s s' : Session} {log : List Exchange}

/-- The operation in the course of a session, which goes on whatever comes of it. -/
def perform (settings : Settings) : Operation α → StateT Session Dialogue Unit
  | .hasMethod method => (fun _ => ()) <$> (Session.hasMethod method).run
  | .preFilter m => (fun _ => ()) <$> (Selection.preFilter settings m).run
  | .items now view matcher prefetch =>
    (fun _ => ()) <$> (Selection.items settings now view matcher prefetch).run
  | .read now item name =>
    (fun _ => ()) <$> ((Item.read settings now name : Reading _ (Value α)).start item).run

def performAll (settings : Settings) : List (Operation α) → StateT Session Dialogue Unit
  | [] => pure ()
  | op :: ops => do
    op.perform settings
    performAll settings ops

/-- Nothing is read or fetched in advance that is one of the gated commands itself. -/
def Allowed : Operation α → Prop
  | .hasMethod _ | .preFilter _ => True
  | .items _ _ matcher prefetch =>
    (∀ m ∈ matcher, ∀ f ∈ m.filters, f.Reads Readable) ∧ ∀ call ∈ prefetch, Call.Plain call
  | .read _ _ name => Readable name

omit [Scalar α] in
/-- Fields of the catalogue can be read. -/
theorem allowed_read {f : Field} (hf : f ∈ Catalogue.coreFields) (now : α) (item : Item) :
    (read now item f.name).Allowed := by
  have hall : ∀ f ∈ Catalogue.coreFields, Readable f.name := by decide
  exact hall f hf

/-- Items can be selected with any filter that can be written, fetching what fields of the catalogue
require. -/
theorem allowed_items {now : α} {text : String} {r : Registry} {m : Matcher α} (hr : r.Faithful)
    (hm : ((Matcher.ofText now text).run.run r).1 = .ok m) {prefetch : List String}
    (hprefetch : ∀ call ∈ prefetch, ∃ f ∈ Catalogue.coreFields, call ∈ f.requires) (now' : α)
    (view : String) : (items now' view (some m) prefetch).Allowed := by
  constructor
  · intro m' hm'
    cases hm'
    exact Matcher.reads_of_ofText hr hm
  · intro call hcall
    obtain ⟨f, hf, hrequires⟩ := hprefetch call hcall
    exact Call.plain_of_mem_core hf call hrequires

def OnlyAsks : Operation α → Prop
  | .hasMethod _ | .preFilter _ => True
  | .items _ _ _ _ | .read _ _ _ => False

theorem gated_of_onlyAsks (hsafe : settings.safetyChecks = true) {op : Operation α}
    (hop : op.OnlyAsks) (h : Session.tracer.runs (op.perform settings) s log () s') :
    Gated s.methods log s'.methods ∧ s'.registry = s.registry := by
  cases op with
  | hasMethod method =>
    obtain ⟨out, -, hwork⟩ := Session.tracer.runs_map.1 h
    have hkeeps := Session.keepsFields_canUse settings method
    rw [Session.canUse_of_safe hsafe] at hkeeps
    exact ⟨(Session.gated_hasMethod hwork).1, hkeeps _ _ _ _ hwork⟩
  | preFilter m =>
    obtain ⟨out, -, hwork⟩ := Session.tracer.runs_map.1 h
    exact ⟨(Selection.hands_preFilter hsafe hwork).1,
      Selection.keepsFields_preFilter m _ _ _ _ hwork⟩
  | items | read => exact absurd hop id

/-- Asking for methods leaves the session as it was, where none are told. -/
theorem eq_of_untold (hsafe : settings.safetyChecks = true) {op : Operation α}
    (hop : op.OnlyAsks) (h : Session.tracer.runs (op.perform settings) s log () s')
    (huntold : log.findSome? Exchange.told? = none) : s' = s := by
  obtain ⟨hgated, hregistry⟩ := gated_of_onlyAsks hsafe hop h
  have hmethods := hgated.methods_eq
  rw [huntold, Option.or_none] at hmethods
  obtain ⟨methods, registry⟩ := s
  obtain ⟨methods', registry'⟩ := s'
  dsimp only at hmethods hregistry
  rw [hmethods, hregistry]

theorem gated_perform (hsafe : settings.safetyChecks = true) {op : Operation α} (hop : op.Allowed)
    (h : Session.tracer.runs (op.perform settings) s log () s') (hs : s.Catalogued) :
    Gated s.methods log s'.methods ∧ s'.Catalogued := by
  have hasks (hasks : op.OnlyAsks) : Gated s.methods log s'.methods ∧ s'.Catalogued := by
    obtain ⟨hgated, hregistry⟩ := gated_of_onlyAsks hsafe hasks h
    rw [Session.Catalogued, hregistry]
    exact ⟨hgated, hs⟩
  cases op with
  | hasMethod method => exact hasks trivial
  | preFilter m => exact hasks trivial
  | items now view matcher prefetch =>
    obtain ⟨out, -, hwork⟩ := Session.tracer.runs_map.1 h
    have hbuilt : ∀ m ∈ matcher, Reading.Built [] Call.Plain (m.eval (Item.read settings now))
        fun _ => True := by
      intro m hm
      apply m.built_eval _ (hop.1 m hm)
      exact fun name hname => Item.built_read settings now (Item.supplied_of_readable hname)
    exact Selection.gated_items hsafe (Call.plain_of_mem_callsFor hop.2) hbuilt hwork hs
  | read now item name =>
    obtain ⟨out, -, hwork⟩ := Session.tracer.runs_map.1 h
    have hbuilt : Reading.Built [] Call.Plain (Item.read settings now name) fun _ => True :=
      Item.built_read settings now (Item.supplied_of_readable hop)
    obtain ⟨x, left, -, hread⟩ := Reading.runs_start hwork
    obtain ⟨sent, hends⟩ := hbuilt.ends hread List.nil_prefix hs
    exact ⟨Item.gated_of_built hbuilt hread hs, hends.catalogued⟩

theorem gated_performAll (hsafe : settings.safetyChecks = true) {ops : List (Operation α)}
    (hops : ∀ op ∈ ops, op.Allowed)
    (h : Session.tracer.runs (performAll settings ops) s log () s') (hs : s.Catalogued) :
    Gated s.methods log s'.methods ∧ s'.Catalogued := by
  induction ops generalizing s log with
  | nil =>
    obtain ⟨rfl, -, rfl⟩ := Session.tracer.runs_pure.1 h
    exact ⟨.nil _, hs⟩
  | cons op ops ih =>
    obtain ⟨hop, hops⟩ := List.forall_mem_cons.1 hops
    obtain ⟨before, _, t, after, rfl, hfirst, hrest⟩ := Session.tracer.runs_bind.1 h
    obtain ⟨hgated, ht⟩ := gated_perform hsafe hop hfirst hs
    obtain ⟨hgated', hs'⟩ := ih hops hrest ht
    exact ⟨hgated.append hgated', hs'⟩

/-- Whatever a daemon answers, its methods are not asked for again once it has told them, and an
answer that does not tell them leaves the session as it was. Filtered multicalls are only sent where
the list has them, with conditions that search for texts only where it has such searches too. -/
theorem capabilities_gate_every_run (hsafe : settings.safetyChecks = true)
    {ops : List (Operation α)} (hops : ∀ op ∈ ops, op.Allowed)
    (hrun : Session.tracer.runs (performAll settings ops) {} log () s') :
    (∀ before e after, log = before ++ e :: after → e.told? ≠ none →
      ∀ e' ∈ after, ∀ r ∈ e'.requests, r.method ≠ "system.listMethods") ∧
    s'.methods = log.findSome? Exchange.told? ∧
    (∀ (op : Operation α) asked t, op.OnlyAsks →
      Session.tracer.runs (op.perform settings) s' asked () t →
      asked.findSome? Exchange.told? = none → t = s') ∧
    ∀ before e after r, log = before ++ e :: after → r ∈ e.requests →
      r.method = "d.multicall.filtered" →
      ∃ known, before.findSome? Exchange.told? = some known ∧ ∃ view text calls,
        r = Selection.request view (some text) calls ∧ Understood known text := by
  have hnew : ({} : Session).Catalogued := ⟨Catalogue.registry_faithful, fun _ => rfl⟩
  obtain ⟨hgated, -⟩ := gated_performAll hsafe hops hrun hnew
  refine ⟨?probed, ?kept, ?untold, ?filtered⟩
  case probed =>
    rintro before e after rfl he
    exact hgated.noProbe_after he
  case kept =>
    rw [hgated.methods_eq]
    exact Option.none_or
  case untold => exact fun op asked t hop h huntold => eq_of_untold hsafe hop h huntold
  case filtered =>
    rintro before e after r rfl hr hfiltered
    exact hgated.understood hr hfiltered

/-- The list comes after a failure and an answer that is no list. It has filtered multicalls but no
searches for texts, so that only the first filter is sent. -/
theorem capabilities_gate_every_run_late_list :
    let calls := ["d.complete=", "d.hash="]
    let ops : List (Operation Float) := [.hasMethod "d.name", .hasMethod "d.name",
      .items 0 "main" (some (.leaf (.ofFlag "is_complete" "d.complete=" true))) ["d.complete="],
      .items 0 "main" (some (.leaf (.ofTag "abc"))) ["d.complete="]]
    let log : List Exchange := [
      .call .probe (.error (.protocol .noHash)),
      .call .probe (.ok .null),
      .call .probe (.ok (.arr [.str "d.multicall.filtered"])),
      .call (Selection.request "main" (some "equal=d.complete=,value=1") calls) (.ok (.arr [])),
      .call (Selection.request "main" none calls) (.ok (.arr []))]
    Session.tracer.runs (performAll {} ops) {} log () { methods := some ["d.multicall.filtered"] } ∧
      Understood ["d.multicall.filtered"] "equal=d.complete=,value=1" := by
  intro calls ops log
  have hrun : Session.tracer.runs (performAll {} ops) {} log ()
      { methods := some ["d.multicall.filtered"] } :=
    Dialogue.Runs.call (.error (.protocol .noHash)) <| .call (.ok .null) <|
      .call (.ok (.arr [.str "d.multicall.filtered"])) <| .call (.ok (.arr [])) <|
      .call (.ok (.arr [])) <| .done _
  have hitems (f : Filter Float) (hname : Readable f.field.name)
      (hf : ∀ pieces, f.test ≠ .pattern (.template pieces)) :
      (items (0 : Float) "main" (some (.leaf f)) ["d.complete="]).Allowed := by
    constructor
    · intro m hm g hg
      cases hm
      obtain rfl := List.mem_singleton.1 hg
      exact ⟨hname, fun pieces h => absurd h (hf pieces)⟩
    · exact List.forall_mem_singleton.2 (by decide)
  have hops : ∀ op ∈ ops, op.Allowed := by
    intro op hop
    simp only [ops, List.mem_cons, List.not_mem_nil, or_false] at hop
    rcases hop with rfl | rfl | rfl | rfl
    · trivial
    · trivial
    · exact hitems _ (by decide) (by nofun)
    · exact hitems _ (by decide) (by nofun)
  obtain ⟨-, -, -, hfiltered⟩ := capabilities_gate_every_run rfl hops hrun
  obtain ⟨known, htold, view, text, calls', hrequest, htext⟩ :=
    hfiltered (log.take 3) _ (log.drop 4) _ rfl (List.mem_singleton_self _) rfl
  cases htold
  have hparams := congrArg Request.params hrequest
  simp only [Selection.request, List.cons.injEq, Json.str.injEq] at hparams
  rw [hparams.2.2.1]
  exact ⟨hrun, htext⟩

end Operation

end TorrentQuery
