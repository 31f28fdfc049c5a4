import Mathlib.Data.List.Nodup
import TorrentQuery.Proofs.Daemon.Transcript
import TorrentQuery.Proofs.Field.Denotation
import TorrentQuery.Torrent.Attribute

namespace TorrentQuery

open Number Text

def Item.tracer : Tracer (StateT Item (StateT Session Dialogue)) (Item × Session) where
  runs w s log a s' := Session.tracer.runs (w.run s.1) s.2 log (a, s'.1) s'.2
  runs_pure := by
    rintro α a b ⟨item, s⟩ ⟨item', s'⟩ log
    have hpure :
        Session.tracer.runs ((pure a : StateT Item _ α).run item) s log (b, item') s' ↔ _ :=
      Session.tracer.runs_pure
    rw [hpure]
    simp only [Prod.mk.injEq, and_assoc]
  runs_bind := by
    rintro α β w f ⟨item, s⟩ ⟨item', s'⟩ log b
    have hbind : Session.tracer.runs ((w >>= f).run item) s log (b, item') s' ↔ _ :=
      Session.tracer.runs_bind (w := w.run item) (f := fun r => (f r.1).run r.2)
    rw [hbind]
    constructor
    · rintro ⟨before, ⟨a, i⟩, t, after, hlog, hfirst, hrest⟩
      exact ⟨before, a, (i, t), after, hlog, hfirst, hrest⟩
    · rintro ⟨before, a, ⟨i, t⟩, after, hlog, hfirst, hrest⟩
      exact ⟨before, (a, i), t, after, hlog, hfirst, hrest⟩

/-- Names stand for the fields of the catalogue. -/
def Session.Catalogued (s : Session) : Prop :=
  (Registry.runner Catalogue.registry.denotes).fits s.registry

namespace Item

def calls (item : Item) : List String := item.known.map Prod.fst

/-- The item once the daemon has answered a call. Failures are not noted. -/
def noting (item : Item) (call : String) : Answer → Item
  | .ok j => { item with known := item.known ++ [(call, j)] }
  | .error _ => item

theorem noting_hash (item : Item) (call : String) (x : Answer) :
    (item.noting call x).hash = item.hash := by
  cases x <;> rfl

/-- What is sent about an item in the course of some exchanges, and what has become known of it in
the end. No call is sent of which the answer is known. -/
inductive Learns : Item → List Exchange → List (String × Answer) → Item → Prop
  | nothing (item : Item) : Learns item [] [] item
  | probe {item item' : Item} {e : Exchange} {log : List Exchange} {sent : List (String × Answer)} :
      e.isProbe = true → Learns item log sent item' → Learns item (e :: log) sent item'
  | asked {item item' : Item} {call : String} {log : List Exchange} {sent : List (String × Answer)}
      (x : Answer) : call ∉ item.calls → Learns (item.noting call x) log sent item' →
      Learns item (.call (Call.request item.hash call) x :: log) ((call, x) :: sent) item'

def answered (sent : List (String × Answer)) : List (String × Json) :=
  sent.filterMap fun p => p.2.toOption.map (p.1, ·)

namespace Learns

variable {item item' item'' : Item} {log log' : List Exchange} {sent sent' : List (String × Answer)}

theorem append (h : Learns item log sent item') (h' : Learns item' log' sent' item'') :
    Learns item (log ++ log') (sent ++ sent') item'' := by
  induction h with
  | nothing => exact h'
  | probe he _ ih => exact .probe he (ih h')
  | asked x hcall _ ih => exact .asked x hcall (ih h')

theorem of_probes (h : ∀ e ∈ log, e.isProbe = true) (item : Item) : Learns item log [] item := by
  induction log with
  | nil => exact .nothing item
  | cons e log ih =>
    rw [List.forall_mem_cons] at h
    exact .probe h.1 (ih h.2)

theorem hash_eq (h : Learns item log sent item') : item'.hash = item.hash := by
  induction h with
  | nothing => rfl
  | probe _ _ ih => exact ih
  | asked x _ _ ih => rw [ih, noting_hash]

/-- What was known stays known, and the answers join it in their order. -/
theorem known (h : Learns item log sent item') : item'.known = item.known ++ answered sent := by
  induction h with
  | nothing => exact (List.append_nil _).symm
  | probe _ _ ih => exact ih
  | asked x _ _ ih =>
    cases x with
    | error e => exact ih
    | ok j => rw [ih, noting, List.append_assoc]; rfl

/-- No call is noted twice. -/
theorem nodup (h : Learns item log sent item') (hitem : item.calls.Nodup) : item'.calls.Nodup := by
  induction h with
  | nothing => exact hitem
  | probe _ _ ih => exact ih hitem
  | asked x hcall _ ih =>
    apply ih
    cases x with
    | error e => exact hitem
    | ok j =>
      rw [noting, calls, List.map_append]
      exact hitem.append (List.nodup_singleton _) (List.disjoint_singleton.2 hcall)

/-- The exchanges are those about the item, and questions about the daemon's methods. -/
theorem filter_log (h : Learns item log sent item') :
    log.filter (!·.isProbe) = sent.map fun p => .call (Call.request item.hash p.1) p.2 := by
  induction h with
  | nothing => rfl
  | probe he _ ih => rw [List.filter_cons_of_neg (by simp [he]), ih]
  | asked x _ _ ih =>
    have hask (hash call : String) :
        (Exchange.call (Call.request hash call) x).isProbe = false := Bool.and_false _
    rw [List.filter_cons_of_pos (by simp [hask]), ih, noting_hash, List.map_cons]

theorem not_mem_calls (h : Learns item log sent item') {p : String × Answer} (hp : p ∈ sent) :
    p.1 ∉ item.calls := by
  induction h with
  | nothing => exact absurd hp List.not_mem_nil
  | probe _ _ ih => exact ih hp
  | asked x hcall _ ih =>
    rcases List.mem_cons.1 hp with rfl | hp
    · exact hcall
    · intro hmem
      apply ih hp
      cases x with
      | error e => exact hmem
      | ok j =>
        rw [noting, calls, List.map_append]
        exact List.mem_append_left _ hmem

end Learns

end Item

def Reading.AtHand (known : List (String × Json)) (allowed : String → Prop) (call : String) :
    Prop :=
  call ∈ known.map Prod.fst ∨ allowed call

/-- How a reading is put together, given what is known of the item and which further calls may be
made. What follows a step only has to do for the results that the step can have. -/
inductive Reading.Built (known : List (String × Json)) (allowed : String → Prop) :
    {ε α : Type} → Reading ε α → (α → Prop) → Prop
  | pure {ε α : Type} {post : α → Prop} (a : α) : post a →
      Built known allowed (Pure.pure a : Reading ε α) post
  | throw {ε α : Type} {post : α → Prop} (e : ε) :
      Built known allowed (throw e : Reading ε α) post
  | fetch (call : String) : AtHand known allowed call →
      Built known allowed (Item.fetch call)
        fun j => ∀ entry, known.find? (·.1 = call) = some entry → j = entry.2
  | methodNames : Built known allowed (Reading.ofWork Session.methodNames) fun _ => True
  | resolve (name : String) :
      Built known allowed (Reading.ofWork (Session.lookup (Registry.resolve name)))
        fun f => Catalogue.registry.denotes name = .ok (some f)
  | bind {ε α β : Type} {w : Reading ε α} {f : α → Reading ε β} {mid : α → Prop} {post : β → Prop} :
      Built known allowed w mid → (∀ a, mid a → Built known allowed (f a) post) →
      Built known allowed (w >>= f) post
  | adapt {ε ε' α : Type} {w : Reading ε α} {post : α → Prop} (f : ε → ε') :
      Built known allowed w post → Built known allowed (w.adapt f : Reading ε' α) post

namespace Reading

theorem runs_ofWork {ε α : Type} {w : Work ε α} {item item' : Item} {s s' : Session}
    {log : List Exchange} {out : Except ε α} :
    Item.tracer.runs (ofWork w).run (item, s) log out (item', s') ↔
      Session.tracer.runs w.run s log out s' ∧ item' = item := by
  have hlift : Item.tracer.runs (ofWork w).run (item, s) log out (item', s') ↔
      Session.tracer.runs (w.run >>= fun a => pure (a, item)) s log (out, item') s' := Iff.rfl
  rw [hlift, Session.tracer.runs_bind]
  constructor
  · rintro ⟨before, a, t, after, rfl, hfirst, hrest⟩
    obtain ⟨rfl, hpair, rfl⟩ := Session.tracer.runs_pure.1 hrest
    cases hpair
    rw [List.append_nil]
    exact ⟨hfirst, rfl⟩
  · rintro ⟨h, rfl⟩
    exact ⟨log, out, s', [], (List.append_nil log).symm, h,
      Session.tracer.runs_pure.2 ⟨rfl, rfl, rfl⟩⟩

theorem runs_fetch {call : String} {item item' : Item} {s s' : Session} {log : List Exchange}
    {out : Answer} (h : Item.tracer.runs (Item.fetch call).run (item, s) log out (item', s')) :
    s' = s ∧ ((∃ entry, item.known.find? (·.1 = call) = some entry ∧ log = [] ∧
        out = .ok entry.2 ∧ item' = item) ∨
      (call ∉ item.calls ∧ log = [.call (Call.request item.hash call) out] ∧
        item' = item.noting call out)) := by
  have hread (f : Item → Reading DaemonError Json) :
      Item.tracer.runs (get >>= f).run (item, s) log out (item', s') ↔
        Item.tracer.runs (f item).run (item, s) log out (item', s') := Iff.rfl
  unfold Item.fetch at h
  rw [hread] at h
  cases hfind : item.known.find? (·.1 = call) with
  | some entry =>
    rw [hfind] at h
    cases h
    exact ⟨rfl, .inl ⟨entry, rfl, rfl, rfl, rfl⟩⟩
  | none =>
    rw [hfind] at h
    have hcall : call ∉ item.calls := by
      intro hmem
      obtain ⟨entry, hentry, rfl⟩ := List.mem_map.1 hmem
      exact List.find?_eq_none.1 hfind entry hentry (decide_eq_true rfl)
    dsimp only at h
    rcases Item.tracer.runs_except_bind.1 h with
      ⟨e, rfl, hask⟩ | ⟨before, j, ⟨i, t⟩, after, rfl, hask, hrest⟩
    · obtain ⟨hask, rfl⟩ := runs_ofWork.1 hask
      obtain ⟨rfl, rfl⟩ := Session.runs_ask hask
      exact ⟨rfl, .inr ⟨hcall, rfl, rfl⟩⟩
    · obtain ⟨hask, rfl⟩ := runs_ofWork.1 hask
      obtain ⟨rfl, rfl⟩ := Session.runs_ask hask
      cases hrest
      exact ⟨rfl, .inr ⟨hcall, rfl, rfl⟩⟩

theorem runs_resolve {name : String} {item item' : Item} {s s' : Session} {log : List Exchange}
    {out : Except QueryError Field}
    (h : Item.tracer.runs (ofWork (Session.lookup (Registry.resolve name))).run (item, s) log out
      (item', s')) (hs : s.Catalogued) :
    log = [] ∧ item' = item ∧ s'.Catalogued ∧
      ∀ f, out = .ok f → Catalogue.registry.denotes name = .ok (some f) := by
  obtain ⟨h, rfl⟩ := runs_ofWork.1 h
  have hresolve : Settled (Registry.runner Catalogue.registry.denotes) (Registry.resolve name) _ :=
    Registry.settled_resolve
  obtain ⟨-, hfits⟩ := hresolve s.registry hs
  cases h
  exact ⟨rfl, rfl, hfits, fun f hf => Registry.denotes_of_resolve hs hf⟩

/-- What comes of a reading: what is sent, each call at most once, and no call but the allowed ones;
nothing fails but at the end. -/
structure Ends {ε α : Type} (known : List (String × Json)) (allowed : String → Prop)
    (post : α → Prop) (item : Item) (log : List Exchange) (out : Except ε α) (item' : Item)
    (s' : Session) (sent : List (String × Answer)) : Prop where
  learns : item.Learns log sent item'
  once : (sent.map Prod.fst).Nodup
  sent_atHand : ∀ p ∈ sent, AtHand known allowed p.1
  catalogued : s'.Catalogued
  result : ∀ a, out = .ok a → post a ∧ ∀ p ∈ sent, ∃ j, p.2 = .ok j

section Ends

variable {known : List (String × Json)} {allowed : String → Prop} {ε ε' α β : Type}
  {post : α → Prop} {item item' item'' : Item} {log log' : List Exchange} {s s' : Session}
  {sent sent' : List (String × Answer)}

theorem Ends.of_probes (hlog : ∀ e ∈ log, e.isProbe = true) (hs : s.Catalogued)
    {out : Except ε α} (hpost : ∀ a, out = .ok a → post a) :
    Ends known allowed post item log out item s [] :=
  ⟨.of_probes hlog item, .nil, List.forall_mem_nil _, hs,
    fun a ha => ⟨hpost a ha, List.forall_mem_nil _⟩⟩

theorem Ends.error {e : ε} {post' : β → Prop}
    (h : Ends known allowed post item log (.error e : Except ε α) item' s sent) :
    Ends known allowed post' item log (.error e : Except ε β) item' s sent :=
  ⟨h.learns, h.once, h.sent_atHand, h.catalogued, fun _ hok => nomatch hok⟩

theorem Ends.adapt (f : ε → ε') {out : Except ε α}
    (h : Ends known allowed post item log out item' s sent) :
    Ends known allowed post item log (out.mapError f) item' s sent := by
  refine ⟨h.learns, h.once, h.sent_atHand, h.catalogued, ?_⟩
  intro a ha
  cases out with
  | error e => cases ha
  | ok b =>
    cases ha
    exact h.result a rfl

/-- What is known is not asked for. -/
theorem Ends.sent_allowed {out : Except ε α} (h : Ends known allowed post item log out item' s sent)
    (hknown : known <+: item.known) : ∀ p ∈ sent, allowed p.1 := by
  intro p hp
  rcases h.sent_atHand p hp with hcall | hallowed
  · have hitem : p.1 ∈ item.calls := (hknown.map Prod.fst).subset hcall
    exact absurd hitem (h.learns.not_mem_calls hp)
  · exact hallowed

/-- Where nothing failed, all that was asked is known. -/
theorem Ends.mem_calls {a : α}
    (h : Ends known allowed post item log (.ok a : Except ε α) item' s sent)
    {p : String × Answer} (hp : p ∈ sent) : p.1 ∈ item'.calls := by
  obtain ⟨j, hj⟩ := (h.result a rfl).2 p hp
  have hanswered : (p.1, j) ∈ Item.answered sent := List.mem_filterMap.2 ⟨p, hp, by rw [hj]; rfl⟩
  rw [Item.calls, h.learns.known, List.map_append]
  exact List.mem_append_right _ (List.mem_map.2 ⟨_, hanswered, rfl⟩)

/-- Answers of the first step are known in the second one, so that no call is sent in both. -/
theorem Ends.append {a : α} {post' : β → Prop} {out : Except ε β}
    (h : Ends known allowed post item log (.ok a : Except ε α) item' s sent)
    (h' : Ends known allowed post' item' log' out item'' s' sent') :
    Ends known allowed post' item (log ++ log') out item'' s' (sent ++ sent') := by
  have hsent := (h.result a rfl).2
  refine ⟨h.learns.append h'.learns, ?_, ?_, h'.catalogued, ?_⟩
  · rw [List.map_append]
    apply h.once.append h'.once
    intro call hcall hcall'
    obtain ⟨p, hp, rfl⟩ := List.mem_map.1 hcall
    obtain ⟨p', hp', heq⟩ := List.mem_map.1 hcall'
    apply h'.learns.not_mem_calls hp'
    rw [heq]
    exact h.mem_calls hp
  · exact List.forall_mem_append.2 ⟨h.sent_atHand, h'.sent_atHand⟩
  · intro b hb
    exact ⟨(h'.result b hb).1, List.forall_mem_append.2 ⟨hsent, (h'.result b hb).2⟩⟩

theorem Ends.fetch {call : String} (hcall : AtHand known allowed call)
    (hknown : known <+: item.known) (hs : s.Catalogued) {out : Answer}
    (h : Item.tracer.runs (Item.fetch call).run (item, s) log out (item', s')) :
    ∃ sent, Ends known allowed
      (fun j => ∀ entry, known.find? (·.1 = call) = some entry → j = entry.2)
      item log out item' s' sent := by
  obtain ⟨rfl, ⟨entry, hfind, rfl, rfl, rfl⟩ | ⟨hnew, rfl, rfl⟩⟩ := runs_fetch h
  · refine ⟨[], .of_probes (List.forall_mem_nil _) hs fun j hj entry' hentry' => ?_⟩
    cases hj
    obtain ⟨more, hmore⟩ := hknown
    rw [← hmore, List.find?_append, hentry'] at hfind
    cases hfind
    rfl
  · refine ⟨[(call, out)], .asked out hnew (.nothing _), List.nodup_singleton _,
      List.forall_mem_singleton.2 hcall, hs, fun j hj => ⟨fun entry hentry => ?_, ?_⟩⟩
    · have hentry' := hknown.subset (List.mem_of_find?_eq_some hentry)
      have hname : entry.1 = call := by simpa using List.find?_some hentry
      exact absurd (List.mem_map.2 ⟨entry, hentry', hname⟩) hnew
    · exact List.forall_mem_singleton.2 ⟨j, hj⟩

end Ends

/-- Whatever the daemon answers, a reading sends no other calls than those that it is built of. -/
theorem Built.ends {known : List (String × Json)} {allowed : String → Prop} {ε α : Type}
    {w : Reading ε α} {post : α → Prop} (h : Built known allowed w post) {item item' : Item}
    {s s' : Session} {log : List Exchange} {out : Except ε α}
    (hrun : Item.tracer.runs w.run (item, s) log out (item', s'))
    (hknown : known <+: item.known) (hs : s.Catalogued) :
    ∃ sent, Ends known allowed post item log out item' s' sent := by
  induction h generalizing item item' s s' log with
  | pure a ha =>
    obtain ⟨rfl, rfl, hstate⟩ := Item.tracer.runs_pure.1 hrun
    cases hstate
    refine ⟨[], .of_probes (List.forall_mem_nil _) hs fun b hb => ?_⟩
    cases hb
    exact ha
  | throw e =>
    obtain ⟨rfl, rfl, hstate⟩ := Item.tracer.runs_pure.1 hrun
    cases hstate
    exact ⟨[], .of_probes (List.forall_mem_nil _) hs fun b hb => nomatch hb⟩
  | fetch call hcall => exact Ends.fetch hcall hknown hs hrun
  | methodNames =>
    obtain ⟨hwork, rfl⟩ := runs_ofWork.1 hrun
    obtain ⟨hlog, hregistry⟩ := Session.runs_methodNames hwork
    have hs' : s'.Catalogued := by
      rw [Session.Catalogued, hregistry]
      exact hs
    exact ⟨[], .of_probes hlog hs' fun _ _ => trivial⟩
  | resolve name =>
    obtain ⟨rfl, rfl, hs', hresult⟩ := runs_resolve hrun hs
    exact ⟨[], .of_probes (List.forall_mem_nil _) hs' hresult⟩
  | bind _ _ ihw ihf =>
    rcases Item.tracer.runs_except_bind.1 hrun with
      ⟨e, rfl, hfail⟩ | ⟨before, a, ⟨i, t⟩, after, rfl, hfirst, hrest⟩
    · obtain ⟨sent, hends⟩ := ihw hfail hknown hs
      exact ⟨sent, hends.error⟩
    · obtain ⟨sent, hends⟩ := ihw hfirst hknown hs
      have hprefix : known <+: i.known := by
        rw [hends.learns.known]
        exact hknown.trans (List.prefix_append _ _)
      obtain ⟨sent', hends'⟩ := ihf a (hends.result a rfl).1 hrest hprefix hends.catalogued
      exact ⟨sent ++ sent', hends.append hends'⟩
  | adapt f _ ih =>
    obtain ⟨x, rfl, hinner⟩ := Item.tracer.runs_adapt.1 hrun
    obtain ⟨sent, hends⟩ := ih hinner hknown hs
    exact ⟨sent, hends.adapt f⟩

end Reading

end TorrentQuery
