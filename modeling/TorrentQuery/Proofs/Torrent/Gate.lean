import TorrentQuery.Proofs.Daemon.Nesting
import TorrentQuery.Proofs.Text.Lower
import TorrentQuery.Proofs.Torrent.Visits

namespace TorrentQuery

open Number Text

def Request.probe : Request := ⟨"system.listMethods", []⟩

namespace Exchange

def requests : Exchange → List Request
  | .call r _ => [r]
  | .batch rs _ => rs

/-- The methods that the daemon tells. Failures, and answers other than lists, tell nothing. -/
def told? : Exchange → Option (List String)
  | .call ⟨"system.listMethods", _⟩ (.ok (.arr items)) => some (Session.names items)
  | _ => none

end Exchange

/-- The daemon lists what a condition takes: filtered multicalls, and searches for texts if the
condition has any, at whatever depth. -/
structure Understood (known : List String) (text : String) : Prop where
  filtered : "d.multicall.filtered" ∈ known
  searches : ∀ c : Command, c.render = text → "string.contains_i" ∈ c.calls →
    "string.contains_i" ∈ known

/-- The request is no question for methods. If it is a filtered multicall, it is one for the items of
a view, and the daemon is known to understand the condition. -/
structure Request.Admitted (methods : Option (List String)) (r : Request) : Prop where
  noProbe : r.method ≠ "system.listMethods"
  filtered : r.method = "d.multicall.filtered" → ∃ known ∈ methods, ∃ view text calls,
    r = Selection.request view (some text) calls ∧ Understood known text

/-- Exchanges that start with some methods known and end with others. The daemon is only asked for
its methods while none are known. -/
inductive Gated : Option (List String) → List Exchange → Option (List String) → Prop
  | nil (methods : Option (List String)) : Gated methods [] methods
  | probe {log : List Exchange} {methods : Option (List String)} (x : Answer) :
      Gated (Exchange.call .probe x).told? log methods → Gated none (.call .probe x :: log) methods
  | sent {methods methods' : Option (List String)} {e : Exchange} {log : List Exchange} :
      (∀ r ∈ e.requests, r.Admitted methods) → Gated methods log methods' →
      Gated methods (e :: log) methods'

namespace Gated

variable {methods methods' methods'' : Option (List String)} {log log' : List Exchange}

theorem append (h : Gated methods log methods') (h' : Gated methods' log' methods'') :
    Gated methods (log ++ log') methods'' := by
  induction h with
  | nil => exact h'
  | probe x _ ih => exact .probe x (ih h')
  | sent he _ ih => exact .sent he (ih h')

theorem split (h : Gated methods (log ++ log') methods'') :
    ∃ methods', Gated methods log methods' ∧ Gated methods' log' methods'' := by
  induction log generalizing methods with
  | nil => exact ⟨methods, .nil methods, h⟩
  | cons e log ih =>
    cases h with
    | probe x h =>
      obtain ⟨between, hfirst, hrest⟩ := ih h
      exact ⟨between, .probe x hfirst, hrest⟩
    | sent he h =>
      obtain ⟨between, hfirst, hrest⟩ := ih h
      exact ⟨between, .sent he hfirst, hrest⟩

theorem told?_of_admitted {e : Exchange} (h : ∀ r ∈ e.requests, r.Admitted methods) :
    e.told? = none := by
  unfold Exchange.told?
  split
  · exact absurd rfl (h _ (List.mem_singleton_self _)).noProbe
  · rfl

/-- The methods known in the end are those that were known before, or else the first ones told. -/
theorem methods_eq (h : Gated methods log methods') :
    methods' = methods.or (log.findSome? Exchange.told?) := by
  induction h with
  | nil => rw [List.findSome?_nil, Option.or_none]
  | @probe log methods x _ ih =>
    rw [ih, List.findSome?_cons, Option.none_or]
    cases (Exchange.call .probe x).told? <;> rfl
  | sent he _ ih => rw [ih, List.findSome?_cons, told?_of_admitted he]

theorem keeps {known : List String} (h : Gated (some known) log methods') :
    methods' = some known := by
  rw [h.methods_eq, Option.some_or]

/-- Where methods are known, they are not asked for. -/
theorem noProbe {known : List String} (h : Gated (some known) log methods') :
    ∀ e ∈ log, ∀ r ∈ e.requests, r.method ≠ "system.listMethods" := by
  generalize hmethods : some known = methods at h
  induction h with
  | nil => exact List.forall_mem_nil _
  | probe => cases hmethods
  | sent he _ ih => exact List.forall_mem_cons.2 ⟨fun r hr => (he r hr).noProbe, ih hmethods⟩

/-- Once methods have been told, they are not asked for again. -/
theorem noProbe_after {before after : List Exchange} {e : Exchange}
    (h : Gated methods (before ++ e :: after) methods') (he : e.told? ≠ none) :
    ∀ e' ∈ after, ∀ r ∈ e'.requests, r.method ≠ "system.listMethods" := by
  obtain ⟨between, -, hrest⟩ := h.split
  cases hrest with
  | probe x hafter =>
    obtain ⟨known, hknown⟩ := Option.ne_none_iff_exists'.1 he
    rw [hknown] at hafter
    exact hafter.noProbe
  | sent hadmitted _ => exact absurd (told?_of_admitted hadmitted) he

/-- What a filtered multicall takes has been told before. -/
theorem understood {before after : List Exchange} {e : Exchange} {r : Request}
    (h : Gated none (before ++ e :: after) methods) (hr : r ∈ e.requests)
    (hfiltered : r.method = "d.multicall.filtered") :
    ∃ known, before.findSome? Exchange.told? = some known ∧ ∃ view text calls,
      r = Selection.request view (some text) calls ∧ Understood known text := by
  obtain ⟨between, hbefore, hrest⟩ := h.split
  have hbetween := hbefore.methods_eq
  rw [Option.none_or] at hbetween
  cases hrest with
  | probe x _ =>
    obtain rfl := List.mem_singleton.1 hr
    exact absurd hfiltered (by decide)
  | sent hadmitted _ =>
    obtain ⟨known, hknown, hrequest⟩ := (hadmitted r hr).filtered hfiltered
    exact ⟨known, hbetween ▸ hknown, hrequest⟩

end Gated

namespace Call

/-- The call is of neither method that takes care, nor of one that starts alike. -/
@[mk_iff]
structure Plain (call : String) : Prop where
  noProbe : ¬ "system.listMethods".toList <+: call.toList
  unfiltered : ¬ "d.multicall.filtered".toList <+: call.toList

instance : DecidablePred Plain := fun call => decidable_of_iff' _ (plain_iff call)

theorem prefix_split (call : String) : (split call).1.toList <+: call.toList := by
  unfold split
  split
  · next method heq =>
    rw [eq_append_of_splitOnce heq, String.toList_ofList]
    exact List.prefix_append _ _
  · next method rest _ heq =>
    rw [eq_append_of_splitOnce heq, String.toList_ofList]
    exact List.prefix_append _ _
  · exact List.prefix_rfl

theorem Plain.admitted {call : String} (h : Plain call) (hash : String)
    (methods : Option (List String)) : (request hash call).Admitted methods := by
  have hprefix : (request hash call).method.toList <+: call.toList := prefix_split call
  constructor
  · intro hprobe
    rw [hprobe] at hprefix
    exact h.noProbe hprefix
  · intro hfiltered
    rw [hfiltered] at hprefix
    exact absurd hprefix h.unfiltered

end Call

namespace Session

variable {s s' : Session} {log : List Exchange}

theorem gated_methodNames {out : Except DaemonError (List String)}
    (h : tracer.runs methodNames.run s log out s') :
    Gated s.methods log s'.methods ∧ ∀ ms, out = .ok ms → s'.methods = some ms := by
  obtain ⟨methods, registry⟩ := s
  cases methods with
  | some ms =>
    cases h
    exact ⟨.nil _, fun _ hok => congrArg some (Except.ok.inj hok)⟩
  | none =>
    cases h with
    | call x h =>
      cases x with
      | error e =>
        cases h
        exact ⟨.probe _ (.nil _), fun _ hok => nomatch hok⟩
      | ok j =>
        cases j with
        | arr items =>
          cases h
          exact ⟨.probe _ (.nil _), fun _ hok => congrArg some (Except.ok.inj hok)⟩
        | _ =>
          cases h
          exact ⟨.probe _ (.nil _), fun _ hok => nomatch hok⟩

/-- A method that the daemon is said to have is on the list that it told. -/
theorem gated_hasMethod {method : String} {out : Except DaemonError Bool}
    (h : tracer.runs (hasMethod method).run s log out s') :
    Gated s.methods log s'.methods ∧ (out = .ok true → ∃ known ∈ s'.methods, method ∈ known) := by
  obtain ⟨x, rfl, hnames⟩ := tracer.runs_except_map h
  obtain ⟨hgated, hknown⟩ := gated_methodNames hnames
  refine ⟨hgated, fun hyes => ?_⟩
  cases x with
  | error e => cases hyes
  | ok ms =>
    refine ⟨ms, hknown ms rfl, ?_⟩
    have hcontains : ms.contains method = true := Except.ok.inj hyes
    simpa using hcontains

theorem canUse_of_safe {settings : Settings} (hsafe : settings.safetyChecks = true)
    (method : String) : canUse settings method = hasMethod method := if_pos hsafe

end Session

theorem Item.gated_of_built {ε α : Type} {w : Reading ε α} {post : α → Prop}
    (h : Reading.Built [] Call.Plain w post) {item item' : Item} {s s' : Session}
    {log : List Exchange} {out : Except ε α}
    (hrun : Item.tracer.runs w.run (item, s) log out (item', s')) (hs : s.Catalogued) :
    Gated s.methods log s'.methods := by
  induction h generalizing item item' s s' log with
  | pure a =>
    obtain ⟨rfl, rfl, hstate⟩ := Item.tracer.runs_pure.1 hrun
    cases hstate
    exact .nil _
  | throw e =>
    obtain ⟨rfl, rfl, hstate⟩ := Item.tracer.runs_pure.1 hrun
    cases hstate
    exact .nil _
  | fetch call hcall =>
    have hplain : Call.Plain call := hcall.resolve_left List.not_mem_nil
    obtain ⟨rfl, ⟨entry, -, rfl, -, -⟩ | ⟨-, rfl, -⟩⟩ := Reading.runs_fetch hrun
    · exact .nil _
    · exact .sent (List.forall_mem_singleton.2 (hplain.admitted _ _)) (.nil _)
  | methodNames =>
    obtain ⟨hwork, rfl⟩ := Reading.runs_ofWork.1 hrun
    exact (Session.gated_methodNames hwork).1
  | resolve name =>
    obtain ⟨hwork, rfl⟩ := Reading.runs_ofWork.1 hrun
    cases hwork
    exact .nil _
  | bind hw _ ihw ihf =>
    rcases Item.tracer.runs_except_bind.1 hrun with
      ⟨e, rfl, hfail⟩ | ⟨before, a, ⟨i, t⟩, after, rfl, hfirst, hrest⟩
    · exact ihw hfail hs
    · obtain ⟨sent, hends⟩ := hw.ends hfirst List.nil_prefix hs
      exact (ihw hfirst hs).append (ihf a (hends.result a rfl).1 hrest hends.catalogued)
  | adapt f _ ih =>
    obtain ⟨x, rfl, hinner⟩ := Item.tracer.runs_adapt.1 hrun
    exact ih hinner hs

namespace Selection

variable {α : Type} [Scalar α] {settings : Settings} {now : α} {s s' : Session}
  {log : List Exchange}

/-- What a search for the condition to send may come to: nothing, or one that is understood. -/
def Hands (s : Session) (log : List Exchange) (out : Except DaemonError (Option String))
    (s' : Session) : Prop :=
  Gated s.methods log s'.methods ∧
    ∀ text, out = .ok (some text) → ∃ known ∈ s'.methods, Understood known text

theorem hands_none {out : Except DaemonError (Option String)}
    (h : Session.tracer.runs (pure none : Work DaemonError (Option String)).run s log out s') :
    Hands s log out s' := by
  obtain ⟨rfl, rfl, rfl⟩ := Session.tracer.runs_pure.1 h
  exact ⟨.nil _, fun _ hok => nomatch hok⟩

theorem hands_bind {method : String} {f : Bool → Work DaemonError (Option String)}
    {out : Except DaemonError (Option String)}
    (h : Session.tracer.runs (Session.hasMethod method >>= f).run s log out s')
    (hf : ∀ b t before after, Gated s.methods before t.methods →
      (b = true → ∃ known ∈ t.methods, method ∈ known) →
      Session.tracer.runs (f b).run t after out s' → Hands t after out s') :
    Hands s log out s' := by
  rcases Session.tracer.runs_except_bind.1 h with
    ⟨e, rfl, hfail⟩ | ⟨before, b, t, after, rfl, hfirst, hrest⟩
  · exact ⟨(Session.gated_hasMethod hfail).1, fun _ hok => nomatch hok⟩
  · obtain ⟨hgated, hlisted⟩ := Session.gated_hasMethod hfirst
    have hnext := hf b t before after hgated (fun hb => hlisted (congrArg Except.ok hb)) hrest
    exact ⟨hgated.append hnext.1, hnext.2⟩

/-- A condition is only handed over where the daemon understands it. -/
theorem hands_preFilter (hsafe : settings.safetyChecks = true) {m : Matcher α}
    {out : Except DaemonError (Option String)}
    (h : Session.tracer.runs (preFilter settings m).run s log out s') : Hands s log out s' := by
  unfold preFilter at h
  rw [Session.canUse_of_safe hsafe, Session.canUse_of_safe hsafe] at h
  split at h
  · exact hands_none h
  apply hands_bind h
  intro filtered t before after _ hlisted h
  split at h
  · exact hands_none h
  next hyes =>
  obtain ⟨known, hknown, hfiltered⟩ := hlisted (by simpa using hyes)
  dsimp only at h
  generalize m.preFilterText settings.level = text at h
  split at h
  · exact hands_none h
  split at h
  · -- the condition may search for texts, which is asked about on the same list
    apply hands_bind h
    intro searches t' before' after' hkept hlisted h
    split at h
    · exact hands_none h
    next hyes' =>
    obtain ⟨known', hknown', hsearches⟩ := hlisted (by simpa using hyes')
    rw [Option.mem_def.1 hknown] at hkept
    obtain rfl : known = known' := Option.mem_unique hkept.keeps hknown'
    obtain ⟨rfl, rfl, rfl⟩ := Session.tracer.runs_pure.1 h
    exact ⟨.nil _, fun text' _ => ⟨known, hknown', hfiltered, fun _ _ _ => hsearches⟩⟩
  · next hsilent =>
    obtain ⟨rfl, rfl, rfl⟩ := Session.tracer.runs_pure.1 h
    refine ⟨.nil _, fun text' hok => ⟨known, hknown, hfiltered, fun c hc hcall => ?_⟩⟩
    cases hok
    have hinfix := Command.infix_render (by decide) c hcall
    rw [hc, ← occursIn_iff_infix] at hinfix
    exact absurd hinfix hsilent

theorem admitted_multicall (methods : Option (List String)) (view : String) (calls : List String) :
    (request view none calls).Admitted methods where
  noProbe := by
    show "d.multicall2" ≠ "system.listMethods"
    decide
  filtered h := by
    change "d.multicall2" = "d.multicall.filtered" at h
    exact absurd h (by decide)

theorem admitted_filtered {methods : Option (List String)} {known : List String} {text : String}
    (hknown : known ∈ methods) (htext : Understood known text) (view : String)
    (calls : List String) : (request view (some text) calls).Admitted methods where
  noProbe := by
    show "d.multicall.filtered" ≠ "system.listMethods"
    decide
  filtered _ := ⟨known, hknown, view, text, calls, rfl, htext⟩

theorem gated_listed {r : Request} {out : Except DaemonError (List Json)}
    (hr : r.Admitted s.methods) (h : Session.tracer.runs (listed r).run s log out s') :
    Gated s.methods log s'.methods := by
  have hsent (x : Answer) : Gated s.methods [.call r x] s.methods :=
    .sent (List.forall_mem_singleton.2 hr) (.nil _)
  rcases Session.tracer.runs_except_bind.1 h with
    ⟨e, rfl, hfail⟩ | ⟨before, j, t, after, rfl, hfirst, hrest⟩
  · obtain ⟨rfl, rfl⟩ := Session.runs_ask hfail
    exact hsent _
  · obtain ⟨rfl, rfl⟩ := Session.runs_ask hfirst
    cases j with
    | arr rows =>
      obtain ⟨rfl, -, rfl⟩ := Session.tracer.runs_pure.1 hrest
      exact hsent _
    | _ =>
      obtain ⟨rfl, -, rfl⟩ := Session.tracer.runs_pure.1 hrest
      exact hsent _

theorem gated_rows (hsafe : settings.safetyChecks = true) {view : String}
    {matcher : Option (Matcher α)} {calls : List String} (hcalls : ∀ call ∈ calls, Call.Plain call)
    {out : Except DaemonError (List Json)}
    (h : Session.tracer.runs (rows settings view matcher calls).run s log out s') :
    Gated s.methods log s'.methods := by
  unfold rows at h
  split at h
  · next hash _ =>
    obtain ⟨x, rfl, hasked⟩ := Session.tracer.runs_except_map h
    obtain ⟨rfl, rfl⟩ := Session.runs_askAll hasked
    refine .sent (fun r hr => ?_) (.nil _)
    obtain ⟨call, hcall, rfl⟩ := List.mem_map.1 hr
    exact (hcalls call hcall).admitted _ _
  · cases matcher with
    | none => exact gated_listed (admitted_multicall _ view calls) h
    | some m =>
      rcases Session.tracer.runs_except_bind.1 h with
        ⟨e, rfl, hfail⟩ | ⟨before, condition, t, after, rfl, hfirst, hrest⟩
      · exact (hands_preFilter hsafe hfail).1
      · obtain ⟨hgated, hhanded⟩ := hands_preFilter hsafe hfirst
        cases condition with
        | none => exact hgated.append (gated_listed (admitted_multicall _ view calls) hrest)
        | some text =>
          obtain ⟨known, hknown, htext⟩ := hhanded text rfl
          exact hgated.append (gated_listed (admitted_filtered hknown htext view calls) hrest)

variable {matcher : Option (Matcher α)}

theorem gated_select {item : Item} {out : Except SelectionError (Option Item)}
    (hbuilt : ∀ m ∈ matcher, Reading.Built [] Call.Plain (m.eval (Item.read settings now))
      fun _ => True)
    (h : Session.tracer.runs (select settings now matcher item).run s log out s')
    (hs : s.Catalogued) : Gated s.methods log s'.methods ∧ s'.Catalogued := by
  cases matcher with
  | none =>
    obtain ⟨rfl, -, rfl⟩ := Session.tracer.runs_pure.1 h
    exact ⟨.nil _, hs⟩
  | some m =>
    obtain ⟨x, -, hadapted⟩ := Session.tracer.runs_except_map h
    obtain ⟨y, -, hstart⟩ := Session.tracer.runs_adapt.1 hadapted
    obtain ⟨answer, left, -, hread⟩ := Reading.runs_start hstart
    obtain ⟨sent, hends⟩ := (hbuilt m rfl).ends hread List.nil_prefix hs
    exact ⟨Item.gated_of_built (hbuilt m rfl) hread hs, hends.catalogued⟩

theorem gated_selectAll {calls : List String} {rows : List Json}
    {out : Except SelectionError (List Item)}
    (hbuilt : ∀ m ∈ matcher, Reading.Built [] Call.Plain (m.eval (Item.read settings now))
      fun _ => True)
    (h : Session.tracer.runs (selectAll settings now matcher calls rows).run s log out s')
    (hs : s.Catalogued) : Gated s.methods log s'.methods ∧ s'.Catalogued := by
  fun_induction selectAll settings now matcher calls rows generalizing s log out with
  | case1 | case2 | case4 =>
    obtain ⟨rfl, -, rfl⟩ := Session.tracer.runs_pure.1 h
    exact ⟨.nil _, hs⟩
  | case3 answers r item hitem ih =>
    rcases Session.tracer.runs_except_bind.1 h with
      ⟨e, rfl, hfail⟩ | ⟨before, selected, t, after, rfl, hfirst, hrest⟩
    · exact gated_select hbuilt hfail hs
    · obtain ⟨hgated, ht⟩ := gated_select hbuilt hfirst hs
      rcases Session.tracer.runs_except_bind.1 hrest with
        ⟨e, rfl, hfail⟩ | ⟨middle, others, t', after, rfl, hothers, hend⟩
      · obtain ⟨hrest, hs'⟩ := ih hfail ht
        exact ⟨hgated.append hrest, hs'⟩
      · obtain ⟨rfl, -, rfl⟩ := Session.tracer.runs_pure.1 hend
        obtain ⟨hrest, hs'⟩ := ih hothers ht
        rw [List.append_nil]
        exact ⟨hgated.append hrest, hs'⟩

theorem gated_items (hsafe : settings.safetyChecks = true) {view : String} {prefetch : List String}
    (hcalls : ∀ call ∈ callsFor prefetch, Call.Plain call)
    (hbuilt : ∀ m ∈ matcher, Reading.Built [] Call.Plain (m.eval (Item.read settings now))
      fun _ => True)
    {out : Except SelectionError (List Item)}
    (h : Session.tracer.runs (items settings now view matcher prefetch).run s log out s')
    (hs : s.Catalogued) : Gated s.methods log s'.methods ∧ s'.Catalogued := by
  obtain ⟨e, -, hfail⟩ | ⟨before, found, t, after, rfl, ht, hrows, hrest⟩ := runs_items h hs
  · refine ⟨gated_rows hsafe hcalls hfail, ?_⟩
    rw [Session.Catalogued, keepsFields_rows view matcher _ _ _ _ _ hfail]
    exact hs
  · obtain ⟨hgated, hs'⟩ := gated_selectAll hbuilt hrest ht
    exact ⟨(gated_rows hsafe hcalls hrows).append hgated, hs'⟩

end Selection

end TorrentQuery
