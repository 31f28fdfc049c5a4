import TorrentQuery.Proofs.Torrent.Reading
import TorrentQuery.Proofs.Torrent.Visits

namespace TorrentQuery

open Number Text Reading

variable {reply : Request → Answer} {batch : List Request → Answers} {hash : String}

namespace Item

inductive Access where
  | fetch (call : String)
  | read (name : String)
  | announceUrls

inductive Finding (α : Type) where
  | answer (x : Answer)
  | value (x : Except QueryError (Value α))
  | urls (x : Except DaemonError (List String))

/-- What is known of an item that has only its hash. -/
def ofHash (hash : String) : Item := ⟨hash, [("d.hash=", .str hash)]⟩

/-- Work on an item that comes to the same whatever is known, and sends no call of which the answer
is known. -/
structure Transparent (reply : Request → Answer) (batch : List Request → Answers) (hash : String)
    {β : Type} (w : StateT Item (StateT Session Dialogue) β) : Prop where
  same : ∀ x y, (runner reply batch hash).fits x → (runner reply batch hash).fits y →
    x.2.registry = y.2.registry →
    let r := (runner reply batch hash).run w x
    let r' := (runner reply batch hash).run w y
    (runner reply batch hash).fits r.2 ∧ r.1 = r'.1 ∧ r.2.2.registry = r'.2.2.registry
  learns : ∀ item s log b item' s', tracer.runs w (item, s) log b (item', s') → s.Catalogued →
    s'.Catalogued ∧ ∃ sent, item.Learns log sent item'

namespace Transparent

variable {β γ : Type}

protected theorem pure (b : β) : Transparent reply batch hash (pure b) := by
  refine ⟨fun x y hx _ h => ⟨hx, rfl, h⟩, fun item s log b' item' s' h hs => ?_⟩
  obtain ⟨rfl, -, hstate⟩ := tracer.runs_pure.1 h
  cases hstate
  exact ⟨hs, [], .nothing _⟩

protected theorem bind {w : StateT Item (StateT Session Dialogue) β}
    {f : β → StateT Item (StateT Session Dialogue) γ} (hw : Transparent reply batch hash w)
    (hf : ∀ b, Transparent reply batch hash (f b)) : Transparent reply batch hash (w >>= f) := by
  constructor
  · intro x y hx hy hregistry
    obtain ⟨hfits, hresult, hnext⟩ := hw.same x y hx hy hregistry
    obtain ⟨hfits', -⟩ := hw.same y x hy hx hregistry.symm
    rw [Runner.run_bind, Runner.run_bind, ← hresult]
    exact (hf _).same _ _ hfits hfits' hnext
  · intro item s log b item' s' h hs
    obtain ⟨before, a, ⟨i, t⟩, after, rfl, hfirst, hrest⟩ := tracer.runs_bind.1 h
    obtain ⟨ht, sent, hlearns⟩ := hw.learns _ _ _ _ _ _ hfirst hs
    obtain ⟨hs', sent', hlearns'⟩ := (hf a).learns _ _ _ _ _ _ hrest ht
    exact ⟨hs', _, hlearns.append hlearns'⟩

theorem of_built {ε : Type} {w : Reading ε β} {post : β → Prop}
    (h : Built [] (fun _ => True) w post) : Transparent reply batch hash w.run := by
  constructor
  · intro x y hx hy hregistry
    obtain ⟨hfits, -, hsame⟩ := h.alike x y hx hy
    exact ⟨hfits, hsame hregistry⟩
  · intro item s log b item' s' hrun hs
    obtain ⟨sent, hends⟩ := h.ends hrun List.nil_prefix hs
    exact ⟨hends.catalogued, sent, hends.learns⟩

end Transparent

variable {α : Type} [Scalar α] (settings : Settings) (now : α)

def Access.perform : Access → StateT Item (StateT Session Dialogue) (Finding α)
  | .fetch call => return .answer (← (Item.fetch call).run)
  | .read name => return .value (← (Item.read settings now name).run)
  | .announceUrls => return .urls (← Item.announceUrls.run)

/-- Accesses one after the other. A failure of one does not keep the next from being made. -/
def performAll : List Access → StateT Item (StateT Session Dialogue) (List (Finding α))
  | [] => return []
  | a :: r => return (← a.perform settings now) :: (← performAll r)

theorem transparent_perform (a : Access) :
    Transparent reply batch hash (a.perform settings now) := by
  cases a with
  | fetch call => exact (Transparent.of_built (.fetch call (.inr trivial))).bind fun _ => .pure _
  | read name =>
    have hread : Built [] (fun _ => True) (Item.read settings now name) _ :=
      built_read settings now (supplied_of_all name)
    exact (Transparent.of_built hread).bind fun _ => .pure _
  | announceUrls =>
    exact (Transparent.of_built (built_announceUrls (.inr trivial))).bind fun _ => .pure _

theorem transparent_performAll (accesses : List Access) :
    Transparent reply batch hash (performAll settings now accesses) := by
  induction accesses with
  | nil => exact .pure _
  | cons a r ih => exact (transparent_perform settings now a).bind fun _ => ih.bind fun _ => .pure _

/-- A failing fetch changes nothing. -/
theorem run_fetch_error {x : Item × Session} {call : String} {e : DaemonError}
    (h : ((runner reply batch hash).run (fetch call).run x).1 = .error e) :
    ((runner reply batch hash).run (fetch call).run x).2 = x := by
  have hruns : tracer.runs (fetch call).run x _ ((runner reply batch hash).run (fetch call).run x).1
      ((runner reply batch hash).run (fetch call).run x).2 := runs_exchanges _ x
  rw [h] at hruns
  generalize ((runner reply batch hash).run (fetch call).run x).2 = x' at hruns
  obtain ⟨item, s⟩ := x
  obtain ⟨item', s'⟩ := x'
  obtain ⟨rfl, ⟨_, _, _, hok, _⟩ | ⟨_, _, rfl⟩⟩ := runs_fetch hruns
  · cases hok
  · rfl

/-- Answers of a daemon that answers alike are noted as they are. -/
theorem Learns.fits {item item' : Item} {log : List Exchange} {sent : List (String × Answer)}
    (h : item.Learns log sent item') (hlog : ∀ e ∈ log, e.By reply batch)
    (hi : item.Fits reply hash) : item'.Fits reply hash := by
  induction h with
  | nothing => exact hi
  | probe _ _ ih => exact ih (List.forall_mem_cons.1 hlog).2 hi
  | asked x _ _ ih =>
    obtain ⟨hx, hrest⟩ := List.forall_mem_cons.1 hlog
    apply ih hrest
    rw [← show reply _ = x from hx, hi.hash_eq]
    exact hi.noting

end Item

/-- The cells are the daemon's answers to some calls, as far as they go, about an item that tells
its own hash. -/
def IsRow (reply : Request → Answer) (calls : List String) (cells : List Json) : Prop :=
  ∃ hash, reply (Call.request hash "d.hash=") = .ok (.str hash) ∧
    ∀ call j, (call, j) ∈ calls.zip cells → reply (Call.request hash call) = .ok j

/-- Rows of a view hold the answers that calls about single items get. -/
structure RowsHold (reply : Request → Answer) (batch : List Request → Answers) : Prop where
  listed : ∀ (view : String) (condition : Option String) (calls : List String) (rows : List Json),
    reply (Selection.request view condition calls) = .ok (.arr rows) →
    ∀ cells, .arr cells ∈ rows → IsRow reply calls cells
  single : ∀ (hash : String) (calls : List String) (cells : List Json),
    batch (calls.map (Call.request hash)) = .ok cells → IsRow reply calls cells

namespace Selection

variable {α : Type} [Scalar α] {settings : Settings} {now : α} {matcher : Option (Matcher α)}
  {view : String} {calls prefetch : List String} {s s' : Session} {log : List Exchange}

theorem isRow_of_listed (hdaemon : RowsHold reply batch) {condition : Option String}
    {found : List Json}
    (h : Session.tracer.runs (listed (request view condition calls)).run s log (.ok found) s')
    (hlog : ∀ e ∈ log, e.By reply batch) :
    ∀ cells, .arr cells ∈ found → IsRow reply calls cells := by
  obtain ⟨before, j, t, after, rfl, hask, hend⟩ := Session.tracer.runs_except_bind_ok h
  obtain ⟨rfl, rfl⟩ := Session.runs_ask hask
  cases j with
  | arr rows =>
    obtain ⟨rfl, hfound, -⟩ := Session.tracer.runs_pure.1 hend
    cases hfound
    exact hdaemon.listed view condition calls _ (hlog _ List.mem_cons_self)
  | _ =>
    obtain ⟨-, hfound, -⟩ := Session.tracer.runs_pure.1 hend
    cases hfound

/-- However the condition was found, the rows are those of the one request that follows. -/
theorem isRow_of_rows (hdaemon : RowsHold reply batch) {found : List Json}
    (h : Session.tracer.runs (rows settings view matcher calls).run s log (.ok found) s')
    (hlog : ∀ e ∈ log, e.By reply batch) :
    ∀ cells, .arr cells ∈ found → IsRow reply calls cells := by
  unfold rows at h
  split at h
  · next hash _ =>
    obtain ⟨before, cells, t, after, rfl, hask, hend⟩ := Session.tracer.runs_except_bind_ok h
    obtain ⟨rfl, rfl⟩ := Session.runs_askAll hask
    obtain ⟨rfl, hfound, -⟩ := Session.tracer.runs_pure.1 hend
    cases hfound
    intro cells' hmem
    cases List.mem_singleton.1 hmem
    exact hdaemon.single hash calls cells (hlog _ List.mem_cons_self)
  · dsimp only at h
    cases matcher with
    | none => exact isRow_of_listed hdaemon h hlog
    | some m =>
      obtain ⟨before, condition, t, after, rfl, -, hrest⟩ := Session.tracer.runs_except_bind_ok h
      exact isRow_of_listed hdaemon hrest fun e he => hlog e (List.mem_append_right _ he)

theorem fits_of_ofRow? {cells : List Json} {item : Item} (hcells : IsRow reply calls cells)
    (hitem : Item.ofRow? calls cells = some item) :
    item.Fits reply item.hash ∧
      reply (Call.request item.hash "d.hash=") = .ok (.str item.hash) := by
  obtain ⟨hash, hown, hknown⟩ := hcells
  unfold Item.ofRow? at hitem
  dsimp only at hitem
  split at hitem
  · next call told hfind =>
    split at hitem
    · cases hitem
    · cases hitem
      have hcall : call = "d.hash=" := by simpa using List.find?_some hfind
      subst hcall
      have htold := hknown _ _ (List.mem_of_find?_eq_some hfind)
      rw [hown] at htold
      cases htold
      exact ⟨⟨rfl, hknown⟩, hown⟩
  · cases hitem

/-- Items of a selection are those of its rows, with what has been asked since about them. -/
theorem origin_of_found (hdaemon : RowsHold reply batch) (hs : s.Catalogued) {found : List Item}
    (h : Session.tracer.runs (items settings now view matcher prefetch).run s log (.ok found) s')
    (hlog : ∀ e ∈ log, e.By reply batch) {item : Item} (hitem : item ∈ found) :
    ∃ cells first seen sent, IsRow reply (callsFor prefetch) cells ∧
      Item.ofRow? (callsFor prefetch) cells = some first ∧ seen <:+: log ∧
      first.Learns seen sent item := by
  rcases runs_items h hs with ⟨e, hok, -⟩ | ⟨before, listed, t, after, rfl, ht, hrows, hselect⟩
  · cases hok
  have hbuilt : ∀ cells first, .arr cells ∈ listed →
      Item.ofRow? (callsFor prefetch) cells = some first → ∀ m ∈ matcher,
      Built first.known (fun _ => True) (m.eval (Item.read settings now)) fun _ => True := by
    intro cells first _ _ m _
    exact m.built_eval (fun name _ => Item.built_read settings now (Item.supplied_of_all name))
      fun f _ => ⟨trivial, fun _ _ _ _ => trivial⟩
  obtain ⟨-, visits, hvisits, rfl, hfound⟩ := runs_selectAll hbuilt hselect ht
  rw [hfound _ rfl] at hitem
  obtain ⟨v, hv, rfl⟩ := List.mem_map.1 hitem
  have hv := (List.mem_filter.1 hv).1
  obtain ⟨row, hrow, ⟨cells, rfl, hfirst⟩, _, hends⟩ := hvisits.of_mem hv
  have hcells : IsRow reply (callsFor prefetch) cells :=
    isRow_of_rows hdaemon hrows (fun e he => hlog e (List.mem_append_left _ he)) cells hrow
  refine ⟨cells, v.item, v.log, v.sent, hcells, hfirst, ?_, hends.learns⟩
  obtain ⟨earlier, later, rfl⟩ := List.append_of_mem hv
  refine ⟨before ++ earlier.flatMap Visit.log, later.flatMap Visit.log, ?_⟩
  simp only [List.flatMap_append, List.flatMap_cons, List.append_assoc]

theorem nodup_callsFor (prefetch : List String) : (callsFor prefetch).Nodup := by
  have hordered (calls : List String) : (Call.ordered calls).Nodup := by
    apply (TextSet.ofList calls).ascending.imp
    rintro a b hab rfl
    exact String.lt_irrefl a hab
  unfold callsFor
  split <;> exact hordered _

theorem isPrefix_map_fst_zip {β γ : Type} (xs : List β) (ys : List γ) :
    (xs.zip ys).map Prod.fst <+: xs := by
  induction xs generalizing ys with
  | nil => exact List.prefix_rfl
  | cons x xs ih =>
    cases ys with
    | nil => exact List.nil_prefix
    | cons y ys => exact (List.prefix_cons_inj x).2 (ih ys)

def found? (reply : Request → Answer) (batch : List Request → Answers) (settings : Settings)
    (now : α) (view : String) (matcher : Option (Matcher α)) (prefetch : List String)
    (s : Session) : Except SelectionError (List Item) :=
  ((Session.runner reply batch).run (items settings now view matcher prefetch).run s).1

theorem runs_found? {found : List Item}
    (hfound : found? reply batch settings now view matcher prefetch s = .ok found) :
    ∃ s', Session.tracer.runs (items settings now view matcher prefetch).run s
      (Session.exchanges reply batch (items settings now view matcher prefetch).run s) (.ok found)
      s' := by
  have hruns : Session.tracer.runs (items settings now view matcher prefetch).run s _
      (found? reply batch settings now view matcher prefetch s) _ := Session.runs_exchanges _ s
  rw [hfound] at hruns
  exact ⟨_, hruns⟩

/-- What is known of a found item is what the daemon answers. -/
theorem fits_of_found (hdaemon : RowsHold reply batch) (hs : s.Fits reply) {found : List Item}
    (hfound : found? reply batch settings now view matcher prefetch s = .ok found) {item : Item}
    (hitem : item ∈ found) :
    item.Fits reply item.hash ∧ (Item.ofHash item.hash).Fits reply item.hash := by
  obtain ⟨s', hruns⟩ := runs_found? hfound
  have hlog := Dialogue.by_of_mem_transcript reply batch
    ((items settings now view matcher prefetch).run.run s)
  obtain ⟨cells, first, seen, sent, hcells, hfirst, hseen, hlearns⟩ :=
    origin_of_found hdaemon hs.catalogued hruns hlog hitem
  obtain ⟨hfits, hown⟩ := fits_of_ofRow? hcells hfirst
  rw [hlearns.hash_eq]
  refine ⟨hlearns.fits (fun e he => hlog e (hseen.subset he)) hfits, rfl, fun call j hmem => ?_⟩
  cases List.mem_singleton.1 hmem
  exact hown

/-- Suppose that rows hold what the daemon answers about their items. Whatever calls were made in
advance for an item, and whatever has been asked of it since, an access comes to the same as if only
the hash was known. What is known are always the daemon's answers, a failing call changes nothing,
and no call is answered twice. -/
theorem accesses_same_for_every_prefetch (hdaemon : RowsHold reply batch) {view' : String}
    {matcher' : Option (Matcher α)} {prefetch' : List String} (hs : s.Fits reply)
    (hs' : s'.Fits reply) {found found' : List Item}
    (hfound : found? reply batch settings now view matcher prefetch s = .ok found)
    (hfound' : found? reply batch settings now view' matcher' prefetch' s' = .ok found')
    {item item' : Item} (hitem : item ∈ found) (hitem' : item' ∈ found')
    (hhash : item'.hash = item.hash) {t t' : Session} (ht : t.Fits reply) (ht' : t'.Fits reply)
    (hregistry : t'.registry = t.registry) (accesses : List Item.Access) :
    let runner := Item.runner reply batch item.hash
    let r := runner.run (Item.performAll settings now accesses) (item, t)
    (runner.run (Item.performAll settings now accesses) (item', t')).1 = r.1 ∧
    (runner.run (Item.performAll settings now accesses) (Item.ofHash item.hash, t)).1 = r.1 ∧
    (∀ a : Item.Access, (runner.run (a.perform settings now) r.2).1 =
      (runner.run (a.perform settings now) (Item.ofHash item.hash, r.2.2)).1) ∧
    r.2.1.Fits reply item.hash ∧
    (∀ call e, (runner.run (Item.fetch call).run r.2).1 = .error e →
      (runner.run (Item.fetch call).run r.2).2 = r.2) ∧
    ∃ cells first seen sent, Item.ofRow? (callsFor prefetch) cells = some first ∧
      seen <:+: Session.exchanges reply batch (items settings now view matcher prefetch).run s ∧
      (seen ++ Item.exchanges reply batch (Item.performAll settings now accesses) (item, t)).filter
        (!·.isProbe) = sent.map (fun p => .call (Call.request item.hash p.1) p.2) ∧
      r.2.1.known = first.known ++ Item.answered sent ∧
      (first.calls ++ (Item.answered sent).map Prod.fst).Nodup := by
  intro runner r
  obtain ⟨hi, hbare⟩ := fits_of_found hdaemon hs hfound hitem
  obtain ⟨hi', -⟩ := fits_of_found hdaemon hs' hfound' hitem'
  rw [hhash] at hi'
  have hall : Item.Transparent reply batch item.hash (Item.performAll settings now accesses) :=
    Item.transparent_performAll settings now accesses
  obtain ⟨⟨hri, hrs⟩, -⟩ := hall.same (item, t) (item, t) ⟨hi, ht⟩ ⟨hi, ht⟩ rfl
  have hother := hall.same (item', t') (item, t) ⟨hi', ht'⟩ ⟨hi, ht⟩ hregistry
  have hfresh := hall.same (Item.ofHash item.hash, t) (item, t) ⟨hbare, ht⟩ ⟨hi, ht⟩ rfl
  refine ⟨hother.2.1, hfresh.2.1, fun a => ?_, hri, fun call e => Item.run_fetch_error, ?_⟩
  · have ha : Item.Transparent reply batch item.hash (a.perform settings now) :=
      Item.transparent_perform settings now a
    exact (ha.same _ (_, _) ⟨hri, hrs⟩ ⟨hbare, hrs⟩ rfl).2.1
  -- the exchanges of the accesses go on where those of the selection ended
  obtain ⟨_, hruns⟩ := runs_found? hfound
  obtain ⟨cells, first, seen, sent, hcells, hfirst, hseen, hlearns⟩ :=
    origin_of_found hdaemon hs.catalogued hruns (Dialogue.by_of_mem_transcript reply batch _) hitem
  have hasked : Item.tracer.runs (Item.performAll settings now accesses) (item, t) _ r.1 r.2 :=
    Item.runs_exchanges _ (item, t)
  obtain ⟨-, sent', hlearns'⟩ := hall.learns _ _ _ _ _ _ hasked ht.catalogued
  have hlife := hlearns.append hlearns'
  refine ⟨cells, first, seen, sent ++ sent', hfirst, hseen, ?_, hlife.known, ?_⟩
  · rw [hlearns.hash_eq]
    exact hlife.filter_log
  · have hnodup : first.calls.Nodup := by
      rw [Item.calls, Item.known_of_ofRow? hfirst]
      exact (nodup_callsFor prefetch).sublist (isPrefix_map_fst_zip _ _).sublist
    have hcalls := hlife.nodup hnodup
    rw [Item.calls, hlife.known, List.map_append] at hcalls
    exact hcalls

/-- A daemon with one item, all of which reads `x` but its hash. -/
def oneItem (r : Request) : Answer :=
  match r.params with
  | .str "" :: rest =>
    .ok (.arr [.arr ((rest.drop (if r.method = "d.multicall2" then 1 else 2)).map fun
      | .str call => cell "A" (Call.split call).1
      | j => j)])
  | .str hash :: _ => .ok (cell hash r.method)
  | _ => .ok .null
where
  cell (hash method : String) : Json := .str (if method = "d.hash" then hash else "x")

theorem rowsHold_oneItem : RowsHold oneItem fun _ => .error (.hashNotFound "") := by
  constructor
  · intro view condition calls rows hrows cells hcells
    have hanswer : rows = [.arr (calls.map fun call => oneItem.cell "A" (Call.split call).1)] := by
      cases condition <;> cases hrows <;> simp [request, Function.comp_def]
    rw [hanswer, List.mem_singleton] at hcells
    cases hcells
    refine ⟨"A", rfl, fun call j hmem => ?_⟩
    rw [← List.map_prod_left_eq_zip, List.mem_map] at hmem
    obtain ⟨call, -, heq⟩ := hmem
    cases heq
    rfl
  · intro hash calls cells h
    cases h

theorem accesses_same_for_every_prefetch_one_item :
    let batch : List Request → Answers := fun _ => .error (.hashNotFound "")
    let accesses : List Item.Access := [.read "name", .fetch "d.complete=", .announceUrls]
    let run (item : Item) := ((Item.runner oneItem batch "A").run
      (Item.performAll {} (0 : Float) accesses) (item, {})).1
    run ⟨"A", [("d.hash=", .str "A"), ("d.name=", .str "x")]⟩ =
      run ⟨"A", [("d.complete=", .str "x"), ("d.hash=", .str "A")]⟩ := by
  intro batch accesses run
  have hname : found? oneItem batch {} (0 : Float) "main" none ["d.name="] {} =
      .ok [⟨"A", [("d.hash=", .str "A"), ("d.name=", .str "x")]⟩] := rfl
  have hcomplete : found? oneItem batch {} (0 : Float) "main" none ["d.complete="] {} =
      .ok [⟨"A", [("d.complete=", .str "x"), ("d.hash=", .str "A")]⟩] := rfl
  obtain ⟨hsame, -⟩ := accesses_same_for_every_prefetch rowsHold_oneItem Session.fits_new
    Session.fits_new hcomplete hname (List.mem_singleton_self _) (List.mem_singleton_self _) rfl
    Session.fits_new Session.fits_new rfl accesses
  exact hsame

end Selection

end TorrentQuery
