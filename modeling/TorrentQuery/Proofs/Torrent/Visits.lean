import TorrentQuery.Proofs.Torrent.Calls
import TorrentQuery.Torrent.Selection

namespace TorrentQuery

open Number Text Reading

namespace Reading

theorem runs_start {ε α : Type} {r : Reading ε α} {item : Item} {s s' : Session}
    {log : List Exchange} {out : Except ε (α × Item)}
    (h : Session.tracer.runs (r.start item).run s log out s') :
    ∃ x item', out = x.map (·, item') ∧ Item.tracer.runs r.run (item, s) log x (item', s') := by
  have hrun : Session.tracer.runs (r.run.run item >>= fun p => pure (p.1.map (·, p.2))) s log out
      s' := h
  obtain ⟨before, ⟨x, item'⟩, t, after, rfl, hfirst, hrest⟩ := Session.tracer.runs_bind.1 hrun
  obtain ⟨rfl, rfl, rfl⟩ := Session.tracer.runs_pure.1 hrest
  rw [List.append_nil]
  exact ⟨x, item', rfl, hfirst⟩

end Reading

theorem Item.known_of_ofRow? {calls : List String} {cells : List Json} {item : Item}
    (h : ofRow? calls cells = some item) : item.known = calls.zip cells := by
  unfold ofRow? at h
  dsimp only at h
  split at h
  · split at h
    · cases h
    · cases h
      rfl
  · cases h

namespace Session

/-- The work enters no fields, whatever the daemon answers. -/
def KeepsFields {ε α : Type} (w : Work ε α) : Prop :=
  ∀ s log out s', tracer.runs w.run s log out s' → s'.registry = s.registry

variable {ε α β : Type}

theorem keepsFields_pure (a : α) : KeepsFields (pure a : Work ε α) := by
  intro s log out s' h
  obtain ⟨-, -, rfl⟩ := tracer.runs_pure.1 h
  rfl

theorem keepsFields_throw (e : ε) : KeepsFields (throw e : Work ε α) := by
  intro s log out s' h
  obtain ⟨-, -, rfl⟩ := tracer.runs_pure.1 h
  rfl

theorem KeepsFields.bind {w : Work ε α} {f : α → Work ε β} (hw : KeepsFields w)
    (hf : ∀ a, KeepsFields (f a)) : KeepsFields (w >>= f) := by
  intro s log out s' h
  rcases tracer.runs_except_bind.1 h with ⟨e, -, hfail⟩ | ⟨_, a, t, _, -, hfirst, hrest⟩
  · exact hw _ _ _ _ hfail
  · exact (hf a _ _ _ _ hrest).trans (hw _ _ _ _ hfirst)

theorem keepsFields_ask (r : Request) : KeepsFields (ask r) := by
  intro s log out s' h
  obtain ⟨-, rfl⟩ := runs_ask h
  rfl

theorem keepsFields_askAll (rs : List Request) : KeepsFields (askAll rs) := by
  intro s log out s' h
  obtain ⟨-, rfl⟩ := runs_askAll h
  rfl

theorem keepsFields_canUse (settings : Settings) (method : String) :
    KeepsFields (canUse settings method) := by
  unfold canUse
  split
  · have hnames : KeepsFields methodNames := fun s log out s' h => (runs_methodNames h).2
    exact hnames.bind fun _ => keepsFields_pure _
  · exact keepsFields_pure true

end Session

namespace Selection

section Rows

open Session

variable {α : Type} [Scalar α] {settings : Settings}

theorem keepsFields_preFilter (m : Matcher α) : KeepsFields (preFilter settings m) := by
  unfold preFilter
  split
  · exact keepsFields_pure none
  · apply (keepsFields_canUse settings _).bind
    intro filtered
    split
    · exact keepsFields_pure none
    · dsimp only
      split
      · exact keepsFields_pure none
      · split
        · apply (keepsFields_canUse settings _).bind
          intro contains
          split <;> exact keepsFields_pure _
        · exact keepsFields_pure _

def listed (r : Request) : Work DaemonError (List Json) := do
  match ← ask r with
  | .arr rows => return rows
  | j => throw (.protocol (.noItemList r.method j))

theorem keepsFields_listed (r : Request) : KeepsFields (listed r) := by
  apply (keepsFields_ask r).bind
  intro j
  cases j with
  | arr rows => exact keepsFields_pure rows
  | _ => exact keepsFields_throw _

theorem keepsFields_rows (view : String) (matcher : Option (Matcher α)) (calls : List String) :
    KeepsFields (rows settings view matcher calls) := by
  have hlisted (condition : Option String) : KeepsFields (listed (request view condition calls)) :=
    keepsFields_listed _
  unfold rows
  split
  · exact (keepsFields_askAll _).bind fun _ => keepsFields_pure _
  · cases matcher with
    | none => exact hlisted none
    | some m => exact (keepsFields_preFilter m).bind hlisted

end Rows

/-- How an item is filtered: the item as its row tells it, the filter's answer with the exchanges on
the way to it, and the item as it is left. -/
structure Visit where
  item : Item
  log : List Exchange
  sent : List (String × Answer)
  answer : Except QueryError Bool
  left : Item

namespace Visit

def selected (v : Visit) : Bool := v.answer.toOption = some true

/-- The visit is one of a row, and besides what the row tells it asks for allowed calls only. -/
structure Of (calls : List String) (allowed : Item → String → Prop) (row : Json) (v : Visit) :
    Prop where
  row : ∃ cells, row = .arr cells ∧ Item.ofRow? calls cells = some v.item
  ends : ∃ s,
    Ends v.item.known (allowed v.item) (fun _ => True) v.item v.log v.answer v.left s v.sent

end Visit

/-- Rows are visited in their order, and perhaps not all of them. -/
inductive Visited (calls : List String) (allowed : Item → String → Prop) :
    List Json → List Visit → Prop
  | done (rows : List Json) : Visited calls allowed rows []
  | visit {row : Json} {v : Visit} {rows : List Json} {visits : List Visit} :
      v.Of calls allowed row → Visited calls allowed rows visits →
      Visited calls allowed (row :: rows) (v :: visits)

variable {α : Type} [Scalar α] {settings : Settings} {now : α} {matcher : Option (Matcher α)}
  {calls : List String} {allowed : Item → String → Prop} {log : List Exchange} {s s' : Session}

theorem runs_select {item : Item} {out : Except SelectionError (Option Item)}
    (hbuilt : ∀ m ∈ matcher, Built item.known (allowed item) (m.eval (Item.read settings now))
      fun _ => True)
    (hrun : Session.tracer.runs (select settings now matcher item).run s log out s')
    (hs : s.Catalogued) :
    ∃ (answer : Except QueryError Bool) (left : Item) (sent : List (String × Answer)),
      Ends item.known (allowed item) (fun _ => True) item log answer left s' sent ∧
      out = (answer.mapError SelectionError.query).map fun b => if b then some left else none := by
  cases matcher with
  | none =>
    obtain ⟨rfl, rfl, rfl⟩ := Session.tracer.runs_pure.1 hrun
    exact ⟨.ok true, item, [], .of_probes (List.forall_mem_nil _) hs fun _ _ => trivial, rfl⟩
  | some m =>
    obtain ⟨x, rfl, hadapted⟩ := Session.tracer.runs_except_map hrun
    obtain ⟨y, rfl, hstart⟩ := Session.tracer.runs_adapt.1 hadapted
    obtain ⟨answer, left, rfl, hread⟩ := runs_start hstart
    obtain ⟨sent, hends⟩ := (hbuilt m rfl).ends hread List.prefix_rfl hs
    refine ⟨answer, left, sent, hends, ?_⟩
    cases answer with
    | error e => rfl
    | ok b => cases b <;> rfl

theorem Visited.of_mem {rows : List Json} {visits : List Visit}
    (h : Visited calls allowed rows visits) {v : Visit} (hv : v ∈ visits) :
    ∃ row ∈ rows, v.Of calls allowed row := by
  induction h with
  | done => exact absurd hv List.not_mem_nil
  | visit hof _ ih =>
    rcases List.mem_cons.1 hv with rfl | hv
    · exact ⟨_, List.mem_cons_self, hof⟩
    · obtain ⟨row, hrow, hof⟩ := ih hv
      exact ⟨row, List.mem_cons_of_mem _ hrow, hof⟩

/-- All that a filtered view asks about its items is asked in the visits of its rows. -/
def Filtered (calls : List String) (allowed : Item → String → Prop) (rows : List Json)
    (log : List Exchange) (out : Except SelectionError (List Item)) : Prop :=
  ∃ visits, Visited calls allowed rows visits ∧ log = visits.flatMap Visit.log ∧
    ∀ found, out = .ok found → found = (visits.filter Visit.selected).map Visit.left

theorem filtered_throw (calls : List String) (allowed : Item → String → Prop) (rows : List Json)
    (e : SelectionError) : Filtered calls allowed rows [] (.error e) :=
  ⟨[], .done rows, rfl, fun _ h => nomatch h⟩

theorem runs_selectAll {rows : List Json} {out : Except SelectionError (List Item)}
    (hbuilt : ∀ cells item, .arr cells ∈ rows → Item.ofRow? calls cells = some item →
      ∀ m ∈ matcher, Built item.known (allowed item) (m.eval (Item.read settings now))
        fun _ => True)
    (hrun : Session.tracer.runs (selectAll settings now matcher calls rows).run s log out s')
    (hs : s.Catalogued) : s'.Catalogued ∧ Filtered calls allowed rows log out := by
  fun_induction selectAll settings now matcher calls rows generalizing s log out with
  | case1 =>
    obtain ⟨rfl, rfl, rfl⟩ := Session.tracer.runs_pure.1 hrun
    refine ⟨hs, [], .done _, rfl, ?_⟩
    rintro _ ⟨⟩
    rfl
  | case2 | case4 =>
    obtain ⟨rfl, rfl, rfl⟩ := Session.tracer.runs_pure.1 hrun
    exact ⟨hs, filtered_throw _ _ _ _⟩
  | case3 answers r item hitem ih =>
    have hrow : ∀ m ∈ matcher, Built item.known (allowed item) _ _ :=
      hbuilt answers item List.mem_cons_self hitem
    rcases Session.tracer.runs_except_bind.1 hrun with
      ⟨e, rfl, hfail⟩ | ⟨before, selected, t, after, rfl, hfirst, hrest⟩
    · obtain ⟨answer, left, sent, hends, -⟩ := runs_select hrow hfail hs
      refine ⟨hends.catalogued, [⟨item, log, sent, answer, left⟩], ?_, ?_, fun _ hok => nomatch hok⟩
      · exact .visit ⟨⟨answers, rfl, hitem⟩, _, hends⟩ (.done _)
      · exact (List.append_nil _).symm
    · obtain ⟨answer, left, sent, hends, hout⟩ := runs_select hrow hfirst hs
      have hvisit : Visit.Of calls allowed (.arr answers) ⟨item, before, sent, answer, left⟩ :=
        ⟨⟨answers, rfl, hitem⟩, _, hends⟩
      have hrows := fun cells item hmem => hbuilt cells item (List.mem_cons_of_mem _ hmem)
      rcases Session.tracer.runs_except_bind.1 hrest with
        ⟨e, rfl, hfail⟩ | ⟨middle, others, t', after, rfl, hothers, hend⟩
      · obtain ⟨hs', visits, hvisits, rfl, -⟩ := ih hrows hfail hends.catalogued
        exact ⟨hs', _, .visit hvisit hvisits, rfl, fun _ hok => nomatch hok⟩
      · obtain ⟨rfl, rfl, rfl⟩ := Session.tracer.runs_pure.1 hend
        obtain ⟨hs', visits, hvisits, rfl, hfound⟩ := ih hrows hothers hends.catalogued
        refine ⟨hs', _, .visit hvisit hvisits, by rw [List.append_nil]; rfl, ?_⟩
        rintro _ ⟨⟩
        rw [hfound _ rfl]
        cases answer with
        | error e => cases hout
        | ok b =>
          cases hout
          cases b <;> rfl

/-- A selection gets its rows first and then visits them. -/
theorem runs_items {view : String} {prefetch : List String}
    {out : Except SelectionError (List Item)}
    (hrun : Session.tracer.runs (items settings now view matcher prefetch).run s log out s')
    (hs : s.Catalogued) :
    (∃ e, out = .error (.daemon e) ∧
      Session.tracer.runs (rows settings view matcher (callsFor prefetch)).run s log (.error e)
        s') ∨
    ∃ before found t after, log = before ++ after ∧ t.Catalogued ∧
      Session.tracer.runs (rows settings view matcher (callsFor prefetch)).run s before (.ok found)
        t ∧
      Session.tracer.runs (selectAll settings now matcher (callsFor prefetch) found).run t after out
        s' := by
  rcases Session.tracer.runs_except_bind.1 hrun with
    ⟨e, rfl, hfail⟩ | ⟨before, found, t, after, rfl, hfirst, hrest⟩
  · obtain ⟨x, hx, hasked⟩ := Session.tracer.runs_adapt.1 hfail
    cases x with
    | error e' =>
      cases hx
      exact .inl ⟨e', rfl, hasked⟩
    | ok found => cases hx
  · obtain ⟨x, hx, hasked⟩ := Session.tracer.runs_adapt.1 hfirst
    cases x with
    | error e' => cases hx
    | ok found' =>
      cases hx
      have ht : t.Catalogued := by
        rw [Session.Catalogued, keepsFields_rows view matcher _ _ _ _ _ hasked]
        exact hs
      exact .inr ⟨before, found, t, after, rfl, ht, hasked, hrest⟩

end Selection

end TorrentQuery
