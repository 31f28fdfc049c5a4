import TorrentQuery.Proofs.Filter.Evaluation
import TorrentQuery.Proofs.Filter.Soundness
import TorrentQuery.Proofs.Torrent.Reading
import TorrentQuery.Torrent.Selection

namespace TorrentQuery

open Number Text

variable {reply : Request → Answer} {batch : List Request → Answers} {hash : String}
variable {α : Type} [Scalar α] {settings : Settings} {now : α}

def Item.told (reply : Request → Answer) (batch : List Request → Answers) (settings : Settings)
    (now : α) (hash name : String) : Except QueryError (Value α) :=
  ((Item.runner reply batch hash).run (Item.read settings now name).run (⟨hash, []⟩, {})).1

theorem Item.fits_new : (Item.mk hash []).Fits reply hash := ⟨rfl, fun _ _ h => (nomatch h)⟩

theorem Item.follows_read (name : String) : Follows (Item.runner reply batch hash)
    (Item.read settings now name) (Item.told reply batch settings now hash name) := by
  intro x hx
  have halike : (Item.read settings now name).Alike reply batch hash :=
    Item.alike_read settings now name
  obtain ⟨hfits, hoption, -⟩ := halike x (⟨hash, []⟩, {}) hx ⟨Item.fits_new, Session.fits_new⟩
  exact ⟨hoption, hfits⟩

namespace Selection

theorem mapM_cons_ok {ε β γ : Type} {f : β → Except ε γ} {x : β} {xs : List β} {ys : List γ}
    (h : (x :: xs).mapM f = .ok ys) :
    ∃ y zs, f x = .ok y ∧ xs.mapM f = .ok zs ∧ ys = y :: zs := by
  rw [List.mapM_cons] at h
  cases hx : f x with
  | error e =>
    rw [hx] at h
    cases h
  | ok y =>
    cases hxs : xs.mapM f with
    | error e =>
      rw [hx, hxs] at h
      cases h
    | ok zs =>
      rw [hx, hxs] at h
      cases h
      exact ⟨y, zs, rfl, rfl, rfl⟩

theorem mapM_filter_ok {ε β γ : Type} {f : β → Except ε γ} {p : β → Bool} {xs : List β}
    {ys : List γ} (h : xs.mapM f = .ok ys) : ∃ zs, (xs.filter p).mapM f = .ok zs := by
  induction xs generalizing ys with
  | nil => exact ⟨[], rfl⟩
  | cons x xs ih =>
    obtain ⟨y, ys', hx, hxs, rfl⟩ := mapM_cons_ok h
    obtain ⟨zs, hzs⟩ := ih hxs
    cases hp : p x with
    | true =>
      rw [List.filter_cons_of_pos hp, List.mapM_cons, hx, hzs]
      exact ⟨y :: zs, rfl⟩
    | false =>
      rw [List.filter_cons_of_neg (by simp [hp])]
      exact ⟨zs, hzs⟩

/-- The daemon's row for the item of a hash: its answers to some calls. -/
def rowOf (reply : Request → Answer) (calls : List String) (hash : String) : Answer :=
  Json.arr <$> calls.mapM fun call => reply (Call.request hash call)

/-- Whether the item of a hash is selected, by what the daemon tells of it alone. -/
def verdict (reply : Request → Answer) (batch : List Request → Answers) (settings : Settings)
    (now : α) (m : Matcher α) (hash : String) : Except QueryError Bool :=
  m.eval (Item.told reply batch settings now hash)

/-- The hashes that a verdict selects, unless one of the hashes is empty or has no verdict. -/
def selected? (verdict : String → Option Bool) : List String → Option (List String)
  | [] => some []
  | hash :: r => do
    if hash.isEmpty then none
    let b ← verdict hash
    let others ← selected? verdict r
    return if b then hash :: others else others

/-- Hashes that would not be selected can be left out. -/
theorem selected?_filter {verdict : String → Option Bool} {p : String → Bool}
    {hashes found : List String} (hp : ∀ h ∈ hashes, verdict h = some true → p h = true)
    (h : selected? verdict hashes = some found) :
    selected? verdict (hashes.filter p) = some found := by
  induction hashes generalizing found with
  | nil => exact h
  | cons hash hashes ih =>
    have hrest := fun h hmem => hp h (List.mem_cons_of_mem hash hmem)
    rw [selected?] at h
    split at h
    · cases h
    next hne =>
    obtain ⟨b, hb, h⟩ := Option.bind_eq_some_iff.1 h
    obtain ⟨others, hothers, h⟩ := Option.bind_eq_some_iff.1 h
    cases h
    have hothers' := ih hrest hothers
    cases hph : p hash with
    | true =>
      rw [List.filter_cons_of_pos hph, selected?, if_neg hne, hb]
      simp [hothers']
    | false =>
      -- what is left out was not selected
      have hbf : b = false := by
        by_contra hbt
        rw [Bool.not_eq_false] at hbt
        rw [hp hash List.mem_cons_self (hb.trans (congrArg some hbt))] at hph
        cases hph
      subst hbf
      rw [List.filter_cons_of_neg (by simp [hph])]
      exact hothers'

/-- An item that has been read still has its hash. -/
theorem settled_start {ε ε' β : Type} {r : Reading ε β} {x : Option β} {item : Item}
    (hi : item.Fits reply hash) (hr : Settled (Item.runner reply batch hash) r x) (f : ε → ε') :
    Settled (Session.runner reply batch)
      ((fun p => (p.1, p.2.hash)) <$> (r.start item).adapt f) (x.map (·, hash)) := by
  rw [Settled.map_iff]
  intro s hs
  obtain ⟨hx, hi', hs'⟩ := hr (item, s) ⟨hi, hs⟩
  have hrun : (Session.runner reply batch).run (r.start item).run s =
      (((Item.runner reply batch hash).run r.run (item, s)).1.map
          (·, ((Item.runner reply batch hash).run r.run (item, s)).2.1),
        ((Item.runner reply batch hash).run r.run (item, s)).2.2) :=
    (Session.runner reply batch).run_bind (r.run.run item) _ s
  rw [Runner.run_adapt, hrun]
  refine ⟨?_, hs'⟩
  generalize (Item.runner reply batch hash).run r.run (item, s) = q at hx hi'
  obtain ⟨answer, item', s'⟩ := q
  subst hx
  obtain rfl := hi'.hash_eq
  cases answer <;> rfl

theorem settled_select {m : Matcher α} {item : Item} (hi : item.Fits reply hash) :
    Settled (Session.runner reply batch)
      (Option.map Item.hash <$> select settings now (some m) item)
      ((verdict reply batch settings now m hash).toOption.map fun b =>
        if b then some hash else none) := by
  have heval : Follows (Item.runner reply batch hash) (m.eval (Item.read settings now)) _ :=
    m.follows_eval Item.follows_read
  have hmap := (settled_start hi heval SelectionError.query).map fun p =>
    if p.1 then some p.2 else none
  have hselect : Option.map Item.hash <$> select settings now (some m) item =
      (fun p => if p.1 then some p.2 else none) <$> (fun p => (p.1, p.2.hash)) <$>
        ((m.eval (Item.read settings now)).start item).adapt SelectionError.query := by
    simp only [select, map_eq_pure_bind, bind_assoc, pure_bind]
    congr 1
    funext p
    cases p.1 <;> rfl
  rw [hselect]
  rw [Option.map_map] at hmap
  exact hmap

theorem known_of_mapM {calls : List String} {cells : List Json}
    (h : (calls.mapM fun call => reply (Call.request hash call)) = .ok cells) :
    (∀ call j, (call, j) ∈ calls.zip cells → reply (Call.request hash call) = .ok j) ∧
      ∀ call ∈ calls, ∃ j, (call, j) ∈ calls.zip cells := by
  induction calls generalizing cells with
  | nil =>
    cases h
    simp
  | cons call calls ih =>
    obtain ⟨cell, others, hcell, hothers, rfl⟩ := mapM_cons_ok h
    obtain ⟨hknown, hall⟩ := ih hothers
    constructor
    · intro c j hmem
      rcases List.mem_cons.1 hmem with heq | hmem
      · cases heq
        exact hcell
      · exact hknown c j hmem
    · intro c hc
      rcases List.mem_cons.1 hc with rfl | hc
      · exact ⟨cell, List.mem_cons_self⟩
      · obtain ⟨j, hj⟩ := hall c hc
        exact ⟨j, List.mem_cons_of_mem _ hj⟩

/-- A row has the item of its hash, unless that is empty. -/
theorem ofRow?_rowOf {calls : List String} (hcalls : "d.hash=" ∈ calls)
    (hhash : reply (Call.request hash "d.hash=") = .ok (.str hash)) {row : Json}
    (hrow : rowOf reply calls hash = .ok row) :
    ∃ cells, row = .arr cells ∧
      Item.ofRow? calls cells = (if hash.isEmpty then none else some ⟨hash, calls.zip cells⟩) ∧
      Item.Fits reply hash ⟨hash, calls.zip cells⟩ := by
  cases hcells : calls.mapM fun call => reply (Call.request hash call) with
  | error e =>
    rw [rowOf, hcells] at hrow
    cases hrow
  | ok cells =>
    rw [rowOf, hcells] at hrow
    cases hrow
    obtain ⟨hknown, hall⟩ := known_of_mapM hcells
    refine ⟨cells, rfl, ?_, rfl, hknown⟩
    -- the row has a cell for the hash, and all such cells say the same
    obtain ⟨j, hj⟩ := hall _ hcalls
    have hsome : ((calls.zip cells).find? (·.1 = "d.hash=")).isSome = true := by
      rw [List.find?_isSome]
      exact ⟨_, hj, decide_eq_true rfl⟩
    obtain ⟨⟨call, k⟩, hfind⟩ := Option.isSome_iff_exists.1 hsome
    have hcall : call = "d.hash=" := by simpa using List.find?_some hfind
    subst hcall
    have hk := hknown _ _ (List.mem_of_find?_eq_some hfind)
    rw [hhash] at hk
    cases hk
    rw [Item.ofRow?, hfind]

theorem settled_selectAll {m : Matcher α} {calls : List String} (hcalls : "d.hash=" ∈ calls)
    {hashes : List String}
    (hhash : ∀ h ∈ hashes, reply (Call.request h "d.hash=") = .ok (.str h)) {rows : List Json}
    (hrows : hashes.mapM (rowOf reply calls) = .ok rows) :
    Settled (Session.runner reply batch)
      (List.map Item.hash <$> selectAll settings now (some m) calls rows)
      (selected? (fun h => (verdict reply batch settings now m h).toOption) hashes) := by
  induction hashes generalizing rows with
  | nil =>
    cases hrows
    exact (Settled.pure []).map _
  | cons h hashes ih =>
    obtain ⟨row, others, hrow, hothers, rfl⟩ := mapM_cons_ok hrows
    obtain ⟨cells, rfl, hitem, hfits⟩ := ofRow?_rowOf hcalls (hhash h List.mem_cons_self) hrow
    rw [selectAll, hitem]
    by_cases hne : h.isEmpty = true
    · rw [selected?, if_pos hne, if_pos hne]
      exact (Settled.throw _).map _
    · rw [selected?, if_neg hne, if_neg hne]
      -- only the hashes of items are compared, so both steps are taken to hashes at once
      have hstep : List.map Item.hash <$> (do
          let selected ← select settings now (some m) ⟨h, calls.zip cells⟩
          let others ← selectAll settings now (some m) calls others
          return selected.toList ++ others) = (do
          let selected ← Option.map Item.hash <$> select settings now (some m) ⟨h, calls.zip cells⟩
          let others ← List.map Item.hash <$> selectAll settings now (some m) calls others
          return selected.toList ++ others) := by
        simp only [map_eq_pure_bind, bind_assoc, pure_bind, List.map_append]
        congr 1
        funext selected
        cases selected <;> rfl
      dsimp only
      rw [hstep]
      have hrest := ih (fun h' hmem => hhash h' (List.mem_cons_of_mem _ hmem)) hothers
      have hselect : Settled (Session.runner reply batch) (Option.map Item.hash <$>
          select settings now (some m) ⟨h, calls.zip cells⟩) _ := settled_select hfits
      have hbind := hselect.bind fun selected _ =>
        hrest.bind fun others _ => Settled.pure (selected.toList ++ others)
      cases hv : (verdict reply batch settings now m h).toOption with
      | none =>
        rw [hv] at hbind
        exact hbind
      | some b =>
        rw [hv] at hbind
        cases b <;> exact hbind

theorem settled_canUse
    (hprobe : settings.safetyChecks = true → (Session.methodsOf? reply).isSome = true)
    (method : String) :
    ∃ b, Settled (Session.runner reply batch) (Session.canUse settings method) (some b) := by
  unfold Session.canUse
  split
  · next hs =>
    obtain ⟨ms, hms⟩ := Option.isSome_iff_exists.1 (hprobe hs)
    have hnames : Settled (Session.runner reply batch) Session.methodNames _ :=
      Session.settled_methodNames
    rw [hms] at hnames
    exact ⟨_, hnames.bind fun _ _ => Settled.pure _⟩
  · exact ⟨_, Settled.pure true⟩

/-- The work always comes to the matcher's condition, or always to none. -/
def SendsFor (reply : Request → Answer) (batch : List Request → Answers) (level : Level)
    (m : Matcher α) (w : Work DaemonError (Option String)) : Prop :=
  ∃ condition, Settled (Session.runner reply batch) w (some condition) ∧
    (condition = none ∨ ∃ p, m.preFilter level = some p ∧ condition = some p.render)

section Sends

variable {level : Level} {m : Matcher α}

theorem sendsFor_none : SendsFor reply batch level m (pure none) :=
  ⟨none, Settled.pure none, .inl rfl⟩

theorem sendsFor_preFilterText (hne : (m.preFilterText level).isEmpty = false) :
    SendsFor reply batch level m (pure (some (m.preFilterText level))) := by
  refine ⟨_, Settled.pure _, .inr ?_⟩
  unfold Matcher.preFilterText at hne ⊢
  cases hp : m.preFilter level with
  | none =>
    rw [hp] at hne
    cases hne
  | some p => exact ⟨p, rfl, rfl⟩

theorem sendsFor_bind {β : Type} {w : Work DaemonError β} {b : β}
    {f : β → Work DaemonError (Option String)}
    (hw : Settled (Session.runner reply batch) w (some b))
    (hf : SendsFor reply batch level m (f b)) : SendsFor reply batch level m (w >>= f) := by
  obtain ⟨condition, hcondition, hsent⟩ := hf
  refine ⟨condition, hw.bind (y := fun _ => some condition) ?_, hsent⟩
  intro b' hb
  cases hb
  exact hcondition

end Sends

theorem sendsFor_preFilter {m : Matcher α}
    (hprobe : settings.safetyChecks = true → (Session.methodsOf? reply).isSome = true) :
    SendsFor reply batch settings.level m (preFilter settings m) := by
  have hcanUse (method : String) :
      ∃ b, Settled (Session.runner reply batch) (Session.canUse settings method) (some b) :=
    settled_canUse hprobe method
  obtain ⟨filtered, hfiltered⟩ := hcanUse "d.multicall.filtered"
  obtain ⟨contains, hcontains⟩ := hcanUse "string.contains_i"
  unfold preFilter
  split
  · exact sendsFor_none
  apply sendsFor_bind hfiltered
  split
  · exact sendsFor_none
  dsimp only
  split
  · exact sendsFor_none
  next hne =>
  rw [Bool.not_eq_true] at hne
  split
  · apply sendsFor_bind hcontains
    split
    · exact sendsFor_none
    · exact sendsFor_preFilterText hne
  · exact sendsFor_preFilterText hne

def rowsOf? : Json → Option (List Json)
  | .arr rows => some rows
  | _ => none

theorem settled_rows {m : Matcher α} {view : String} (hview : Call.hashOfView? view = none)
    {condition : Option String}
    (hcondition : Settled (Session.runner reply batch) (preFilter settings m) (some condition))
    {calls hashes : List String}
    (hreply : reply (request view condition calls) =
      Json.arr <$> hashes.mapM (rowOf reply calls)) :
    Settled (Session.runner reply batch) (rows settings view (some m) calls)
      (hashes.mapM (rowOf reply calls)).toOption := by
  have hask : Settled (Session.runner reply batch) (Session.ask (request view condition calls)) _ :=
    Session.settled_ask _
  rw [hreply] at hask
  unfold rows
  rw [hview]
  dsimp only
  have hcells : (Json.arr <$> hashes.mapM (rowOf reply calls)).toOption.bind rowsOf? =
      (hashes.mapM (rowOf reply calls)).toOption := by
    cases hashes.mapM (rowOf reply calls) <;> rfl
  refine hcondition.bind (y := fun _ => (hashes.mapM (rowOf reply calls)).toOption) ?_
  intro c hc
  cases hc
  rw [← hcells]
  apply hask.bind
  intro j hj
  cases j with
  | arr rows => exact Settled.pure rows
  | _ => exact Settled.throw _

theorem hash_mem_callsFor (prefetch : List String) : "d.hash=" ∈ callsFor prefetch := by
  unfold callsFor Call.ordered
  split
  · rw [TextSet.mem_ofList]
    decide
  · rw [TextSet.mem_ofList]
    exact List.mem_append_left _ List.mem_cons_self

theorem settled_items {m : Matcher α} {view : String} (hview : Call.hashOfView? view = none)
    {condition : Option String}
    (hcondition : Settled (Session.runner reply batch) (preFilter settings m) (some condition))
    {prefetch hashes : List String}
    (hreply : reply (request view condition (callsFor prefetch)) =
      Json.arr <$> hashes.mapM (rowOf reply (callsFor prefetch)))
    (hhash : ∀ h ∈ hashes, reply (Call.request h "d.hash=") = .ok (.str h)) :
    Settled (Session.runner reply batch)
      (List.map Item.hash <$> items settings now view (some m) prefetch)
      ((hashes.mapM (rowOf reply (callsFor prefetch))).toOption.bind fun _ =>
        selected? (fun h => (verdict reply batch settings now m h).toOption) hashes) := by
  have hrows := (settled_rows hview hcondition hreply).adapt SelectionError.daemon
  have hitems : List.map Item.hash <$> items settings now view (some m) prefetch =
      (rows settings view (some m) (callsFor prefetch)).adapt .daemon >>= fun rows =>
        List.map Item.hash <$> selectAll settings now (some m) (callsFor prefetch) rows := by
    simp only [items, map_eq_pure_bind, bind_assoc]
  rw [hitems]
  apply hrows.bind
  intro rows hok
  exact settled_selectAll (hash_mem_callsFor prefetch) hhash (eq_ok_of_toOption hok)

/-- What is told of an item does not depend on the level. -/
theorem told_level (level : Level) (hash : String) :
    Item.told reply batch { settings with level } now hash =
      Item.told reply batch settings now hash := by
  rfl

def outcome (reply : Request → Answer) (batch : List Request → Answers) (settings : Settings)
    (now : α) (view : String) (m : Matcher α) (prefetch : List String) (s : Session) :
    Except SelectionError (List Item) :=
  ((Session.runner reply batch).run (items settings now view (some m) prefetch).run s).1

/-- Suppose that the daemon lists the items of a view in some order, and with a condition those of
them on which the condition holds, and that no condition of a single filter loses an item. Then
whatever is selected without sending any condition is selected, in the same order, at every
level. -/
theorem items_same_at_every_level {m : Matcher α} {view : String}
    (hview : Call.hashOfView? view = none) {prefetch hashes : List String}
    (hall : reply (request view none (callsFor prefetch)) =
      Json.arr <$> hashes.mapM (rowOf reply (callsFor prefetch)))
    {call : String → String → List Arg → Bool}
    (hfiltered : ∀ p, m.preFilter settings.level = some p →
      reply (request view (some p.render) (callsFor prefetch)) = Json.arr <$>
        (hashes.filter fun h => p.command.holds (call h)).mapM (rowOf reply (callsFor prefetch)))
    (hhash : ∀ h ∈ hashes, reply (Call.request h "d.hash=") = .ok (.str h))
    (hprobe : settings.safetyChecks = true → (Session.methodsOf? reply).isSome = true)
    (hsound : ∀ h ∈ hashes, ∀ f ∈ m.filters,
      f.Sound (call h) (Item.told reply batch settings now h))
    {s s' : Session} (hs : s.Fits reply) (hs' : s'.Fits reply) {found : List Item}
    (hfound :
      outcome reply batch { settings with level := .off } now view m prefetch s = .ok found) :
    ∃ found', outcome reply batch settings now view m prefetch s' = .ok found' ∧
      found'.map Item.hash = found.map Item.hash := by
  have hoff : Settled (Session.runner reply batch) (preFilter { settings with level := .off } m)
      (some none) := Settled.pure none
  have hitems : Settled (Session.runner reply batch) (List.map Item.hash <$>
      items { settings with level := .off } now view (some m) prefetch) _ :=
    settled_items hview hoff hall hhash
  have hlocal := (Settled.map_iff.1 hitems s hs).1
  rw [show ((Session.runner reply batch).run _ s).1 = _ from hfound] at hlocal
  obtain ⟨rows, hrows, hselected⟩ := Option.bind_eq_some_iff.1 hlocal.symm
  have hverdict (h : String) : verdict reply batch { settings with level := .off } now m h =
      verdict reply batch settings now m h := by
    rw [verdict, told_level, verdict]
  simp only [hverdict] at hselected
  have hfound' : ((Session.runner reply batch).run
      (items settings now view (some m) prefetch).run s').1.toOption.map (List.map Item.hash) =
        some (found.map Item.hash) := by
    have hsent : SendsFor reply batch settings.level m (preFilter settings m) :=
      sendsFor_preFilter hprobe
    obtain ⟨condition, hcondition, rfl | ⟨p, hp, rfl⟩⟩ := hsent
    -- nothing was sent, or only items were left out that the filter says no to
    · rw [(Settled.map_iff.1 (settled_items hview hcondition hall hhash) s' hs').1, hrows]
      exact hselected
    · have hpasses : ∀ h ∈ hashes, (verdict reply batch settings now m h).toOption = some true →
          p.command.holds (call h) = true := by
        intro h hmem hyes
        have hm := Matcher.sound_of_filters settings.level m (hsound h hmem) p hp
        exact hm.superset (eq_ok_of_toOption hyes)
      obtain ⟨zs, hzs⟩ :=
        mapM_filter_ok (p := fun h => p.command.holds (call h)) (eq_ok_of_toOption hrows)
      have hkept : ∀ h ∈ hashes.filter fun h => p.command.holds (call h),
          reply (Call.request h "d.hash=") = .ok (.str h) :=
        fun h hmem => hhash h (List.mem_filter.1 hmem).1
      rw [(Settled.map_iff.1 (settled_items hview hcondition (hfiltered p hp) hkept) s' hs').1, hzs]
      exact selected?_filter hpasses hselected
  obtain ⟨found', hok, hmap⟩ := Option.map_eq_some_iff.1 hfound'
  exact ⟨found', eq_ok_of_toOption hok, hmap⟩

/-- A daemon with two items, of which the first one is complete. -/
def twoItems (r : Request) : Answer :=
  match r.method, r.params with
  | "system.listMethods", _ => .ok (.arr [.str "d.multicall.filtered"])
  | "d.multicall2", _ => .ok (.arr [.arr [.int 1, .str "A"], .arr [.int 0, .str "B"]])
  | "d.multicall.filtered", _ => .ok (.arr [.arr [.int 1, .str "A"]])
  | "d.complete", .str "A" :: _ => .ok (.int 1)
  | "d.complete", _ => .ok (.int 0)
  | _, hash :: _ => .ok hash
  | _, [] => .ok .null

theorem items_same_at_every_level_two_items :
    let m : Matcher Float := .leaf (.ofFlag "is_complete" "d.complete=" true)
    ∃ found, outcome twoItems (fun _ => .ok []) {} 0 "main" m ["d.complete="] {} = .ok found ∧
      found.map Item.hash = ["A"] := by
  intro m
  let texts (hash : String) : Texts := fun _ => if hash = "A" then "1" else "0"
  have hfiltered : ∀ p, m.preFilter .safe = some p →
      twoItems (request "main" (some p.render) (callsFor ["d.complete="])) = Json.arr <$>
        (["A", "B"].filter fun h => p.command.holds (texts h).answer).mapM
          (rowOf twoItems (callsFor ["d.complete="])) := by
    intro p hp
    cases hp
    have hkept : (["A", "B"].filter fun h =>
        (Command.compare "equal" "d.complete=" 1).holds (texts h).answer) = ["A"] := by decide
    change _ = Json.arr <$> (["A", "B"].filter fun h =>
      (Command.compare "equal" "d.complete=" 1).holds (texts h).answer).mapM _
    rw [hkept]
    rfl
  have hhash : ∀ h ∈ ["A", "B"], twoItems (Call.request h "d.hash=") = .ok (.str h) := by
    intro h hh
    simp only [List.mem_cons, List.not_mem_nil, or_false] at hh
    rcases hh with rfl | rfl <;> rfl
  have hsound : ∀ h ∈ ["A", "B"], ∀ f ∈ m.filters,
      f.Sound (texts h).answer (Item.told twoItems (fun _ => .ok []) {} 0 h) := by
    intro h hh f hf p hp
    obtain rfl := List.mem_singleton.1 hf
    cases hp
    apply PreFilter.ofExact_sound
    intro b hb
    simp only [List.mem_cons, List.not_mem_nil, or_false] at hh
    rcases hh with rfl | rfl
    · have hyes : Except.ok (ε := QueryError) true = .ok b := hb
      cases hyes
      decide
    · have hno : Except.ok (ε := QueryError) false = .ok b := hb
      cases hno
      decide
  have hoff : outcome twoItems (fun _ => .ok []) { level := .off } 0 "main" m ["d.complete="] {} =
      .ok [⟨"A", [("d.complete=", .int 1), ("d.hash=", .str "A")]⟩] := rfl
  obtain ⟨found, hfound, hsame⟩ := items_same_at_every_level rfl rfl hfiltered hhash
    (fun _ => rfl) hsound Session.fits_new Session.fits_new hoff
  exact ⟨found, hfound, hsame⟩

end Selection

end TorrentQuery
