import TorrentQuery.Proofs.Filter.Fields
import TorrentQuery.Proofs.Torrent.Visits

namespace TorrentQuery

open Number Text Reading

theorem Registry.settled_resolveAll {stands : String → Except QueryError (Option Field)}
    {names : List String} (h : ∀ name ∈ names, ∃ f, stands name = .ok (some f)) :
    ∃ fields, Settled (runner stands) (names.mapM resolve) (some fields) ∧
      ∀ name ∈ names, ∀ f, stands name = .ok (some f) → f ∈ fields := by
  induction names with
  | nil => exact ⟨[], Settled.pure [], fun name hname => absurd hname List.not_mem_nil⟩
  | cons name names ih =>
    rw [List.forall_mem_cons] at h
    obtain ⟨⟨f, hf⟩, hrest⟩ := h
    obtain ⟨fields, hfields, hmem⟩ := ih hrest
    refine ⟨f :: fields, ?_, ?_⟩
    · rw [List.mapM_cons]
      have hfirst : Settled (runner stands) (resolve name) ((stands name).toOption.bind id) :=
        settled_resolve
      rw [hf] at hfirst
      exact hfirst.bind fun _ _ => hfields.bind fun _ _ => Settled.pure _
    · rw [List.forall_mem_cons]
      refine ⟨fun g hg => ?_, fun other hother g hg =>
        List.mem_cons_of_mem _ (hmem other hother g hg)⟩
      rw [hf] at hg
      cases hg
      exact List.mem_cons_self

/-- The calls for some names include all that their fields require. -/
theorem Call.settled_prefetch {stands : String → Except QueryError (Option Field)}
    {names : List String} (h : ∀ name ∈ names, ∃ f, stands name = .ok (some f)) :
    ∃ calls, Settled (Registry.runner stands) (prefetch names) (some calls) ∧
      ∀ name ∈ names, ∀ f, stands name = .ok (some f) → ∀ call ∈ f.requires, call ∈ calls := by
  unfold prefetch
  split
  · next hempty =>
    rw [List.isEmpty_iff.1 hempty]
    exact ⟨_, Settled.pure _, fun name hname => absurd hname List.not_mem_nil⟩
  · obtain ⟨fields, hfields, hmem⟩ := Registry.settled_resolveAll h
    have hrequired : Settled (Registry.runner stands) (Registry.requiredCalls names)
        (some (firstOccurrences (fields.flatMap (·.requires)))) :=
      hfields.bind fun _ _ => Settled.pure _
    refine ⟨ordered (base ++ _), hrequired.bind fun _ _ => Settled.pure _, ?_⟩
    intro name hname f hf call hcall
    apply TextSet.mem_ofList.2
    apply List.mem_append_right
    rw [mem_firstOccurrences, List.mem_flatMap]
    exact ⟨f, hmem name hname f hf, hcall⟩

theorem Selection.mem_callsFor {prefetch : List String} {call : String} (h : call ∈ prefetch) :
    call ∈ callsFor prefetch := by
  unfold callsFor
  split
  · next hempty =>
    rw [List.isEmpty_iff.1 hempty] at h
    exact absurd h List.not_mem_nil
  · exact TextSet.mem_ofList.2 (List.mem_append_right _ h)

namespace Item

/-- A call that values of the named fields may still take: for the trackers where no name of one was
noted, for the sizes of files where no kinds were. -/
inductive MayAsk (names : List String) (item : Item) : String → Prop
  | trackers {j : Json} : "alias" ∈ names → ("d.custom=memo_alias", j) ∈ item.known →
      j.asText.isEmpty = true → MayAsk names item Catalogue.trackerCall
  | sizes {name : String} {j : Json} : name ∈ names →
      name = "kind" ∨ "kind_".toList <+: name.toList → ("d.custom=kind", j) ∈ item.known →
      (trim j.asText.toList).isEmpty = true → MayAsk names item Catalogue.fileSizesCall

theorem exists_noted {known : List (String × Json)} {call : String}
    (h : call ∈ known.map Prod.fst) : ∃ j, known.find? (·.1 = call) = some (call, j) := by
  obtain ⟨entry, hentry, rfl⟩ := List.mem_map.1 h
  cases hfind : known.find? (·.1 = entry.1) with
  | none => exact absurd (decide_eq_true rfl) (List.find?_eq_none.1 hfind entry hentry)
  | some found =>
    have hname : found.1 = entry.1 := by simpa using List.find?_some hfind
    exact ⟨found.2, by rw [← hname]⟩

/-- An item of which all required calls are answered has nothing more to ask, except where an answer
is empty. -/
theorem supplied_of_calls {names : List String} {item : Item}
    (hnames : ∀ name ∈ names, ∃ f, Catalogue.registry.denotes name = .ok (some f))
    (hcalls : ∀ name ∈ names, ∀ f, Catalogue.registry.denotes name = .ok (some f) →
      ∀ call ∈ f.requires, call ∈ item.calls)
    {name : String} (hname : name ∈ names) : Supplied item.known (item.MayAsk names) name := by
  obtain ⟨f, hf⟩ := hnames name hname
  have hrequired := hcalls name hname f hf
  have htitle (h : (after? "guessit_".toList name.toList).isSome = true) :
      "d.name=" ∈ item.calls := by
    apply hrequired
    rw [Catalogue.requires_of_release (prefix_of_after? h) hf]
    exact List.mem_singleton_self _
  have hkind (h : (after? "kind_".toList name.toList).isSome = true) :
      "d.custom=kind" ∈ item.calls := by
    apply hrequired
    rw [Catalogue.requires_of_kind (prefix_of_after? h) hf]
    exact List.mem_singleton_self _
  refine ⟨fun f hf call hcall => .inl (hcalls name hname f hf call hcall),
    fun h => .inl (htitle h), fun h => .inl (hkind h), ?_, ?_⟩
  · rintro rfl hempty
    have hnoted : "d.custom=memo_alias" ∈ item.calls :=
      hcalls _ hname _ (Catalogue.denotes_of_core rfl) _ (by decide)
    obtain ⟨j, hj⟩ := exists_noted hnoted
    exact .inr (.trackers hname (List.mem_of_find?_eq_some hj) (hempty _ hj))
  · intro hkinds hempty
    have hnoted : "d.custom=kind" ∈ item.calls := by
      rcases hkinds with rfl | h
      · exact hcalls _ hname _ (Catalogue.denotes_of_core rfl) _ (by decide)
      · exact hkind h
    obtain ⟨j, hj⟩ := exists_noted hnoted
    have hblank : (trim j.asText.toList).isEmpty = true := hempty ("d.custom=kind", j) hj
    have hname' := hkinds.imp_right fun h => prefix_of_after? h
    exact .inr (.sizes hname hname' (List.mem_of_find?_eq_some hj) hblank)

end Item

namespace Selection

/-- A call about the item of a row, and what was answered. -/
structure Question where
  row : Nat
  item : Item
  call : String
  answer : Answer

namespace Question

def exchange (q : Question) : Exchange := .call (Call.request q.item.hash q.call) q.answer

def key (q : Question) : Nat × String := (q.row, q.call)

end Question

/-- Besides for the daemon's methods, just these questions were asked, none of them twice. -/
structure Asked (about : Question → Prop) (log : List Exchange) (asked : List Question) : Prop where
  exchanges : log.filter (!·.isProbe) = asked.map Question.exchange
  once : (asked.map Question.key).Nodup
  about : ∀ q ∈ asked, about q

section Asked

variable {about about' : Question → Prop} {log log' : List Exchange} {asked asked' : List Question}

theorem Asked.imp (h : Asked about log asked) (himp : ∀ q, about q → about' q) :
    Asked about' log asked :=
  ⟨h.exchanges, h.once, fun q hq => himp q (h.about q hq)⟩

theorem Asked.nil : Asked about [] [] := ⟨rfl, .nil, List.forall_mem_nil _⟩

theorem Asked.append (h : Asked about log asked) (h' : Asked about log' asked')
    (hapart : ∀ q ∈ asked, ∀ q' ∈ asked', q.key ≠ q'.key) :
    Asked about (log ++ log') (asked ++ asked') := by
  refine ⟨?_, ?_, List.forall_mem_append.2 ⟨h.about, h'.about⟩⟩
  · rw [List.filter_append, h.exchanges, h'.exchanges, List.map_append]
  · rw [List.map_append]
    apply h.once.append h'.once
    intro key hkey hkey'
    obtain ⟨q, hq, rfl⟩ := List.mem_map.1 hkey
    obtain ⟨q', hq', heq⟩ := List.mem_map.1 hkey'
    exact hapart q hq q' hq' heq.symm

/-- The questions about one item. -/
theorem asked_of_learns {item first left : Item} {sent : List (String × Answer)} (row : Nat)
    (h : first.Learns log sent left) (hhash : first.hash = item.hash)
    (honce : (sent.map Prod.fst).Nodup) :
    Asked (fun q => q.row = row ∧ q.item = item ∧ q.call ∈ sent.map Prod.fst) log
      (sent.map fun p => ⟨row, item, p.1, p.2⟩) := by
  refine ⟨?_, ?_, ?_⟩
  · rw [h.filter_log, hhash, List.map_map]
    rfl
  · have hkeys : (sent.map fun p => (⟨row, item, p.1, p.2⟩ : Question)).map Question.key =
        (sent.map Prod.fst).map (row, ·) := by
      rw [List.map_map, List.map_map]
      rfl
    rw [hkeys]
    exact honce.map fun _ _ h => (Prod.mk.inj h).2
  · intro q hq
    obtain ⟨p, hp, rfl⟩ := List.mem_map.1 hq
    exact ⟨rfl, rfl, List.mem_map_of_mem hp⟩

/-- The question is one of those about the items of some visits, each with the number of its row. -/
def Question.About (pairs : List (Visit × Nat)) (ok : Visit → String → Prop) (q : Question) :
    Prop :=
  ∃ v, (v, q.row) ∈ pairs ∧ q.item = v.item ∧ ok v q.call

theorem Asked.cons {pairs : List (Visit × Nat)} {ok : Visit → String → Prop} {v : Visit} {row : Nat}
    {first left : Item} {sent : List (String × Answer)} (hrow : row ∉ pairs.map Prod.snd)
    (h : first.Learns log sent left) (hhash : first.hash = v.item.hash)
    (honce : (sent.map Prod.fst).Nodup) (hok : ∀ p ∈ sent, ok v p.1)
    (h' : Asked (Question.About pairs ok) log' asked') :
    ∃ asked, Asked (Question.About ((v, row) :: pairs) ok) (log ++ log') asked := by
  have hhead := asked_of_learns row h hhash honce
  refine ⟨_, (hhead.imp ?_).append (h'.imp ?_) ?_⟩
  · rintro ⟨_, _, call, x⟩ ⟨rfl, rfl, hcall⟩
    obtain ⟨p, hp, rfl⟩ := List.mem_map.1 hcall
    exact ⟨v, List.mem_cons_self, rfl, hok p hp⟩
  · rintro q ⟨v', hmem, hq⟩
    exact ⟨v', List.mem_cons_of_mem _ hmem, hq⟩
  · intro q hq q' hq' hkey
    obtain ⟨hqrow, -, -⟩ := hhead.about q hq
    obtain ⟨v', hmem, -, -⟩ := h'.about q' hq'
    have hsame : q.row = q'.row := (Prod.mk.inj hkey).1
    rw [← hsame, hqrow] at hmem
    exact hrow (List.mem_map.2 ⟨_, hmem, rfl⟩)

end Asked

section Rows

variable {calls : List String} {allowed : Item → String → Prop} {found : List Json}
  {visits : List Visit}

/-- The call was made in the visit. -/
def Visit.Made (v : Visit) (call : String) : Prop := call ∈ v.sent.map Prod.fst

/-- The call may yet be made after the visit. -/
def Visit.Open (allowed : Item → String → Prop) (v : Visit) (call : String) : Prop :=
  call ∉ v.left.calls ∧ allowed v.item call

def Question.OfRows (calls : List String) (allowed : Item → String → Prop) (found : List Json)
    (q : Question) : Prop :=
  ∃ cells, found[q.row]? = some (.arr cells) ∧ Item.ofRow? calls cells = some q.item ∧
    allowed q.item q.call

theorem nodup_zipIdx (visits : List Visit) : (visits.zipIdx.map Prod.snd).Nodup := by
  rw [List.zipIdx_map_snd]
  exact List.nodup_range'

theorem Visited.of_getElem? (h : Visited calls allowed found visits) {i : Nat} {v : Visit}
    (hv : visits[i]? = some v) : ∃ row, found[i]? = some row ∧ v.Of calls allowed row := by
  induction h generalizing i with
  | done => cases hv
  | visit hof _ ih =>
    cases i with
    | zero =>
      cases hv
      exact ⟨_, rfl, hof⟩
    | succ i => exact ih hv

theorem Visited.of_mem_zipIdx (h : Visited calls allowed found visits) {p : Visit × Nat}
    (hp : p ∈ visits.zipIdx) : ∃ row, found[p.2]? = some row ∧ p.1.Of calls allowed row :=
  h.of_getElem? (List.mem_zipIdx_iff_getElem?.1 hp)

theorem Visited.ofRows (h : Visited calls allowed found visits) {ok : Visit → String → Prop}
    {q : Question} (hq : q.About visits.zipIdx ok)
    (hok : ∀ v row, v.Of calls allowed row → ok v q.call → allowed v.item q.call) :
    q.OfRows calls allowed found := by
  obtain ⟨v, hmem, hitem, hcall⟩ := hq
  obtain ⟨row, hrow, hof⟩ := h.of_mem_zipIdx hmem
  have hallowed := hok v row hof hcall
  obtain ⟨⟨cells, rfl, hcells⟩, -⟩ := hof
  rw [← hitem] at hcells hallowed
  exact ⟨cells, hrow, hcells, hallowed⟩

/-- What was asked about a selected item is known when the item is printed. -/
theorem Visited.apart (h : Visited calls allowed found visits) {q q' : Question}
    (hq : q.About visits.zipIdx Visit.Made)
    (hq' : q'.About (visits.zipIdx.filter (·.1.selected)) (Visit.Open allowed)) :
    q.key ≠ q'.key := by
  intro hkey
  obtain ⟨hrow, hcall⟩ := Prod.mk.inj hkey
  obtain ⟨v, hmem, -, hmade⟩ := hq
  obtain ⟨v', hmem', -, hopen, -⟩ := hq'
  obtain ⟨hmem', hselected⟩ := List.mem_filter.1 hmem'
  have hv : visits[q.row]? = some v := List.mem_zipIdx_iff_getElem?.1 hmem
  have hv' : visits[q'.row]? = some v' := List.mem_zipIdx_iff_getElem?.1 hmem'
  rw [← hrow, hv] at hv'
  cases hv'
  obtain ⟨_, -, -, _, hends⟩ := h.of_mem_zipIdx hmem
  rw [eq_ok_of_toOption (of_decide_eq_true hselected)] at hends
  obtain ⟨p, hp, hp'⟩ := List.mem_map.1 hmade
  apply hopen
  rw [← hcall, ← hp']
  exact hends.mem_calls hp

theorem map_left_selected (visits : List Visit) : (visits.filter Visit.selected).map Visit.left =
    (visits.zipIdx.filter (·.1.selected)).map (·.1.left) := by
  calc (visits.filter Visit.selected).map Visit.left
      = ((visits.zipIdx.map Prod.fst).filter Visit.selected).map Visit.left := by
        rw [List.zipIdx_map_fst]
    _ = (visits.zipIdx.filter (·.1.selected)).map (·.1.left) := by
        rw [List.filter_map, List.map_map]
        rfl

/-- What is asked while rows are filtered. -/
theorem asked_visits {pairs : List (Visit × Nat)} (hrows : (pairs.map Prod.snd).Nodup)
    (hpairs : ∀ p ∈ pairs, ∃ row, p.1.Of calls allowed row) :
    ∃ asked, Asked (Question.About pairs Visit.Made) (pairs.flatMap (·.1.log)) asked := by
  induction pairs with
  | nil => exact ⟨[], .nil⟩
  | cons p pairs ih =>
    obtain ⟨hrow, hrows⟩ := List.nodup_cons.1 hrows
    rw [List.forall_mem_cons] at hpairs
    obtain ⟨⟨_, _, _, hends⟩, hothers⟩ := hpairs
    obtain ⟨asked, hasked⟩ := ih hrows hothers
    exact Asked.cons hrow hends.learns rfl hends.once (fun _ hp => List.mem_map_of_mem hp) hasked

theorem Visited.asked (h : Visited calls allowed found visits) :
    ∃ asked, Asked (Question.About visits.zipIdx Visit.Made) (visits.flatMap Visit.log) asked := by
  have hlog : visits.zipIdx.flatMap (·.1.log) = visits.flatMap Visit.log := by
    rw [← List.flatMap_map Prod.fst Visit.log, List.zipIdx_map_fst]
  rw [← hlog]
  exact asked_visits (nodup_zipIdx visits) fun p hp => (h.of_mem_zipIdx hp).imp fun _ h => h.2

variable {α : Type} [Scalar α] {settings : Settings} {now : α} {output : List String}

/-- What is asked while rows are printed. -/
theorem asked_printRows {shown : List (Visit × Nat)} (hrows : (shown.map Prod.snd).Nodup)
    (hshown : ∀ p ∈ shown, ∃ row, p.1.Of calls allowed row)
    (hbuilt : ∀ p ∈ shown, Built p.1.item.known (allowed p.1.item)
      (Cli.row (Item.read settings now) output) fun _ => True)
    {printed : String} {s s' : Session} {log : List Exchange} {out : Cli.Outcome}
    (hrun : Session.tracer.runs (Cli.printRows settings now output printed (shown.map (·.1.left))) s
      log out s') (hs : s.Catalogued) :
    ∃ asked, Asked (Question.About shown (Visit.Open allowed)) log asked := by
  induction shown generalizing printed s log with
  | nil =>
    obtain ⟨rfl, -, -⟩ := Session.tracer.runs_pure.1 hrun
    exact ⟨[], .nil⟩
  | cons p shown ih =>
    obtain ⟨hrow, hrows⟩ := List.nodup_cons.1 hrows
    rw [List.forall_mem_cons] at hshown hbuilt
    obtain ⟨⟨_, _, _, hvisit⟩, hothers⟩ := hshown
    obtain ⟨before, x, t, after, rfl, hline, hrest⟩ := Session.tracer.runs_bind.1 hrun
    obtain ⟨line, left, rfl, hread⟩ := runs_start hline
    have hknown : p.1.item.known <+: p.1.left.known := by
      rw [hvisit.learns.known]
      exact List.prefix_append _ _
    obtain ⟨sent, hends⟩ := hbuilt.1.ends hread hknown hs
    have hopen : ∀ q ∈ sent, p.1.Open allowed q.1 := fun q hq =>
      ⟨hends.learns.not_mem_calls hq, hends.sent_allowed hknown q hq⟩
    obtain ⟨asked, hasked⟩ : ∃ asked, Asked (Question.About shown (Visit.Open allowed)) after
        asked := by
      cases line with
      | error e =>
        obtain ⟨rfl, -, -⟩ := Session.tracer.runs_pure.1 hrest
        exact ⟨[], .nil⟩
      | ok text => exact ih hrows hothers hbuilt.2 hrest hends.catalogued
    exact Asked.cons hrow hends.learns hvisit.learns.hash_eq hends.once hopen hasked

theorem Visited.asked_printRows (h : Visited calls allowed found visits)
    (hbuilt : ∀ cells item, .arr cells ∈ found → Item.ofRow? calls cells = some item →
      Built item.known (allowed item) (Cli.row (Item.read settings now) output) fun _ => True)
    {printed : String} {s s' : Session} {log : List Exchange} {out : Cli.Outcome}
    (hrun : Session.tracer.runs (Cli.printRows settings now output printed
      ((visits.filter Visit.selected).map Visit.left)) s log out s') (hs : s.Catalogued) :
    ∃ asked, Asked (Question.About (visits.zipIdx.filter (·.1.selected)) (Visit.Open allowed)) log
      asked := by
  have hsub : (visits.zipIdx.filter (·.1.selected)).Sublist visits.zipIdx := List.filter_sublist
  have hselected : ∀ p ∈ visits.zipIdx.filter (·.1.selected), ∃ row, p.1.Of calls allowed row :=
    fun p hp => (h.of_mem_zipIdx (hsub.subset hp)).imp fun _ h => h.2
  rw [map_left_selected] at hrun
  refine Selection.asked_printRows ((nodup_zipIdx visits).sublist (hsub.map Prod.snd)) hselected ?_
    hrun hs
  intro p hp
  obtain ⟨_, hrow, ⟨cells, rfl, hitem⟩, -⟩ := h.of_mem_zipIdx (hsub.subset hp)
  exact hbuilt cells p.1.item (List.mem_of_getElem? hrow) hitem

/-- What is asked while rows are filtered and those that are left are printed. -/
theorem asked_of_rows {m : Matcher α}
    (hfilter : ∀ cells item, .arr cells ∈ found → Item.ofRow? calls cells = some item →
      Built item.known (allowed item) (m.eval (Item.read settings now)) fun _ => True)
    (hrow : ∀ cells item, .arr cells ∈ found → Item.ofRow? calls cells = some item →
      Built item.known (allowed item) (Cli.row (Item.read settings now) output) fun _ => True)
    {s t : Session} {between after : List Exchange} {x : Except SelectionError (List Item)}
    (hs : s.Catalogued)
    (hselect : Session.tracer.runs (selectAll settings now (some m) calls found).run s between x t)
    (hfailed : ∀ e, x = .error e → after = [])
    (hprint : ∀ items, x = .ok items → ∃ out s',
      Session.tracer.runs (Cli.printRows settings now output "" items) t after out s') :
    ∃ asked, Asked (Question.OfRows calls allowed found) (between ++ after) asked := by
  have hbuilt : ∀ cells item, .arr cells ∈ found → Item.ofRow? calls cells = some item →
      ∀ m' ∈ some m, Built item.known (allowed item) (m'.eval (Item.read settings now))
        fun _ => True := by
    rintro cells item hcells hitem _ ⟨⟩
    exact hfilter cells item hcells hitem
  obtain ⟨ht, visits, hvisits, rfl, hfound⟩ := runs_selectAll hbuilt hselect hs
  obtain ⟨filtered, hfiltered⟩ := hvisits.asked
  obtain ⟨shown, hshown⟩ : ∃ shown, Asked (Question.About (visits.zipIdx.filter (·.1.selected))
      (Visit.Open allowed)) after shown := by
    cases x with
    | error e =>
      rw [hfailed e rfl]
      exact ⟨[], .nil⟩
    | ok items =>
      obtain ⟨out, s', hprinted⟩ := hprint items rfl
      rw [hfound items rfl] at hprinted
      exact hvisits.asked_printRows hrow hprinted ht
  refine ⟨filtered ++ shown, (hfiltered.imp ?_).append (hshown.imp ?_) ?_⟩
  · intro q hq
    apply hvisits.ofRows hq
    rintro v row ⟨-, _, hends⟩ hmade
    obtain ⟨p, hp, hcall⟩ := List.mem_map.1 hmade
    rw [← hcall]
    exact hends.sent_allowed List.prefix_rfl p hp
  · rintro q ⟨v, hmem, hq⟩
    exact hvisits.ofRows ⟨v, (List.mem_filter.1 hmem).1, hq⟩ fun _ _ _ hopen => hopen.2
  · intro q hq q' hq'
    exact hvisits.apart (hfiltered.about q hq) (hshown.about q' hq')

end Rows

end Selection

namespace Cli

open Selection

/-- Suppose that the fields to print are known, and that templates name no fields but those that are
named anyway. Then the calls to make in advance are found. Once rows have come that hold an answer
to each of these calls, and while they are filtered and printed, the daemon is only asked for its
methods and for what a row leaves open, and never twice for a row. -/
theorem selectionTalk_asks_what_rows_leave_open {α : Type} [Scalar α] {now : α}
    {filter : String} {r r' : Registry} {m : Matcher α} {names output : List String}
    (hr : (Registry.runner Catalogue.registry.denotes).fits r)
    (hr' : (Registry.runner Catalogue.registry.denotes).fits r')
    (hcompile : (lookedUp (compile now filter) r).1 = .ok (m, names))
    (htemplates : ∀ f ∈ m.filters, ∀ pieces, f.test = .pattern (.template pieces) →
      ∀ name, .field name ∈ pieces → name ∈ names ++ output)
    (houtput : ∀ name ∈ output, ∃ f, Catalogue.registry.denotes name = .ok (some f)) :
    ∃ prefetch, (lookedUp (Call.prefetch (names ++ output)) r').1 = .ok prefetch ∧
      ∀ (settings : Settings) (url view : String) s log out s', s.Catalogued →
        Session.tracer.runs (selectionTalk settings now url view m prefetch output) s log out s' →
        ∃ first rest listed t, log = first ++ rest ∧
          Session.tracer.runs (rows settings view (some m) (callsFor prefetch)).run s first listed
            t ∧
          (∀ e, listed = .error e → rest = []) ∧
          ∀ found, listed = .ok found →
            (∀ cells, .arr cells ∈ found → cells.length = (callsFor prefetch).length) →
            ∃ asked, Asked (Question.OfRows (callsFor prefetch) (Item.MayAsk (names ++ output))
              found) rest asked := by
  have hkeeps : Matcher.KeepsNames Catalogue.registry.denotes := fun _ _ =>
    Registry.name_of_denotes Catalogue.registry_faithful
  obtain ⟨hfields, hnames⟩ := Matcher.fields_of_compile hkeeps hr hcompile
  have hall : ∀ name ∈ names ++ output, ∃ f, Catalogue.registry.denotes name = .ok (some f) := by
    refine List.forall_mem_append.2 ⟨fun name hname => ?_, houtput⟩
    obtain ⟨f, hf, rfl⟩ := (hnames name).1 hname
    exact ⟨f.field, hfields f hf⟩
  obtain ⟨prefetch, hprefetch, hrequired⟩ := Call.settled_prefetch hall
  refine ⟨prefetch, eq_ok_of_toOption (hprefetch r' hr').1, ?_⟩
  intro settings url view s log out s' hs hrun
  obtain ⟨before, x, t, after, rfl, hitems, hprint⟩ := Session.tracer.runs_bind.1 hrun
  rcases runs_items hitems hs with
    ⟨e, rfl, hfail⟩ | ⟨first, found, u, between, rfl, hu, hrows, hselect⟩
  · obtain ⟨rfl, -, -⟩ := Session.tracer.runs_pure.1 hprint
    exact ⟨before, [], .error e, t, rfl, hfail, fun _ _ => rfl, fun _ h => nomatch h⟩
  refine ⟨first, between ++ after, .ok found, u, List.append_assoc _ _ _, hrows, ?_, ?_⟩
  · rintro e ⟨⟩
  rintro _ ⟨⟩ hfull
  have hread : ∀ cells item, .arr cells ∈ found →
      Item.ofRow? (callsFor prefetch) cells = some item → ∀ name ∈ names ++ output,
      Built item.known (item.MayAsk (names ++ output)) (Item.read settings now name)
        fun _ => True := by
    intro cells item hcells hitem name hname
    have hcalls : item.calls = callsFor prefetch := by
      rw [Item.calls, Item.known_of_ofRow? hitem, List.map_fst_zip]
      exact Nat.le_of_eq (hfull cells hcells).symm
    apply Item.built_read settings now (Item.supplied_of_calls hall _ hname)
    intro other hother f hf call hcall
    rw [hcalls]
    exact mem_callsFor (hrequired other hother f hf call hcall)
  have hreads : ∀ f ∈ m.filters, f.Reads (· ∈ names ++ output) := fun f hf =>
    ⟨List.mem_append_left _ ((hnames f.field.name).2 ⟨f, hf, rfl⟩), htemplates f hf⟩
  apply asked_of_rows _ _ hu hselect
  · rintro e rfl
    exact (Session.tracer.runs_pure.1 hprint).1
  · rintro items rfl
    exact ⟨out, s', hprint⟩
  · intro cells item hcells hitem
    exact m.built_eval (hread cells item hcells hitem) hreads
  · intro cells item hcells hitem
    exact built_row (hread cells item hcells hitem) fun name hname => List.mem_append_right _ hname

/-- A daemon with one item of which no tracker was noted. -/
def unnoted (r : Request) : Answer :=
  if r.method = "d.multicall2" then .ok (.arr [.arr [.str "", .str "A", .str "x"]])
  else if r.method = "t.multicall" then .ok (.arr [.arr [.str "http://t/announce", .int 1]])
  else .ok .null

def askedOfUnnoted (m : Matcher Float) : List Exchange :=
  let talk := selectionTalk { level := .off } 0 "" "main" m
    ["d.custom=memo_alias", "d.hash=", "d.name="] ["alias", "name"]
  ((talk.run {}).transcript unnoted fun _ => .ok []).tail

/-- The trackers are asked for once, though both the filter and the output tell their name. -/
theorem selectionTalk_asks_what_rows_leave_open_alias :
    ∃ (m : Matcher Float) (asked : List Question),
      (lookedUp (compile 0 "alias=t") Catalogue.registry).1 = .ok (m, ["alias"]) ∧
      Asked (Question.OfRows ["d.custom=memo_alias", "d.hash=", "d.name="]
          (Item.MayAsk ["alias", "alias", "name"]) [.arr [.str "", .str "A", .str "x"]])
        (askedOfUnnoted m) asked ∧ asked.length = 1 := by
  have hscan : Token.scan "alias=t" = .ok [⟨.named "alias" .eq ⟨"t", false⟩, 0⟩] := by
    have hnext : Token.next 0 'a' "lias=t".toList = .ok (.named "alias" .eq ⟨"t", false⟩, []) := rfl
    change Token.scanFrom 0 0 ('a' :: "lias=t".toList) = _
    rw [Token.scanFrom_next rfl hnext, Token.scanFrom.eq_1]
    rfl
  have hread : Stmt.read "alias=t" = .ok [[.named "alias" .eq ⟨"t", false⟩]] := by
    unfold Stmt.read
    rw [hscan]
    rfl
  obtain ⟨m, hcompile, hplain, hlength⟩ : ∃ m : Matcher Float,
      (lookedUp (compile 0 "alias=t") Catalogue.registry).1 = .ok (m, ["alias"]) ∧
        (∀ f ∈ m.filters, ∀ pieces, f.test ≠ .pattern (.template pieces)) ∧
        ((askedOfUnnoted m).filter (!·.isProbe)).length = 1 := by
    unfold compile
    rw [hread]
    refine ⟨_, rfl, fun f hf pieces h => ?_, by decide +kernel⟩
    cases List.mem_singleton.1 hf
    cases h
  have hfits : (Registry.runner Catalogue.registry.denotes).fits Catalogue.registry :=
    ⟨Catalogue.registry_faithful, fun _ => rfl⟩
  have houtput : ∀ name ∈ ["alias", "name"], ∃ f,
      Catalogue.registry.denotes name = .ok (some f) := by
    simp only [List.forall_mem_cons, List.not_mem_nil, false_imp_iff, implies_true, and_true]
    exact ⟨⟨_, Catalogue.denotes_of_core rfl⟩, ⟨_, Catalogue.denotes_of_core rfl⟩⟩
  obtain ⟨prefetch, hprefetch, htalk⟩ := selectionTalk_asks_what_rows_leave_open hfits hfits
    hcompile (fun f hf pieces h => absurd h (hplain f hf pieces)) houtput
  have hcalls : (lookedUp (Call.prefetch (["alias"] ++ ["alias", "name"])) Catalogue.registry).1 =
      .ok ["d.custom=memo_alias", "d.hash=", "d.name="] := rfl
  rw [hcalls] at hprefetch
  cases hprefetch
  have hruns := Dialogue.runs_transcript unnoted (fun _ => .ok [])
    ((selectionTalk { level := .off } (0 : Float) "" "main" m
      ["d.custom=memo_alias", "d.hash=", "d.name="] ["alias", "name"]).run {})
  obtain ⟨first, rest, listed, t, hlog, hrows, -, hasked⟩ := htalk _ _ _ {} _ _ _ hfits hruns
  have hcallsFor : callsFor ["d.custom=memo_alias", "d.hash=", "d.name="] =
      ["d.custom=memo_alias", "d.hash=", "d.name="] := rfl
  rw [hcallsFor] at hrows hasked
  -- the rows are those of the first answer
  cases hrows with
  | call x hrows =>
    have hx := (List.cons.inj hlog).1
    cases hx
    cases hrows
    have hrest : askedOfUnnoted m = rest := congrArg List.tail hlog
    obtain ⟨asked, hasked⟩ := hasked _ rfl (by simp)
    rw [← hrest] at hasked
    refine ⟨m, asked, hcompile, hasked, ?_⟩
    rw [hasked.exchanges, List.length_map] at hlength
    exact hlength

end Cli

end TorrentQuery
