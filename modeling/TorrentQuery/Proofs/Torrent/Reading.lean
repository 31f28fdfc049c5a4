import TorrentQuery.Proofs.Torrent.Calls

namespace TorrentQuery

open Number Text

namespace Dialogue

variable {α β : Type}

theorem run_bind (call : Request → Id Answer) (batch : List Request → Id Answers) (d : Dialogue α)
    (f : α → Dialogue β) : (d.bind f).run call batch = (f (d.run call batch)).run call batch := by
  induction d with
  | done a => rfl
  | call r next ih => exact ih _
  | batch rs next ih => exact ih _

end Dialogue

variable {reply : Request → Answer} {batch : List Request → Answers} {hash : String}

def Session.namesOf? : Json → Option (List String)
  | .arr items => some (names items)
  | _ => none

def Session.methodsOf? (reply : Request → Answer) : Option (List String) :=
  (reply ⟨"system.listMethods", []⟩).toOption.bind namesOf?

/-- What a session may have learnt from a daemon that answers alike. -/
structure Session.Fits (reply : Request → Answer) (s : Session) : Prop where
  methods : ∀ ms, s.methods = some ms → methodsOf? reply = some ms
  faithful : s.registry.Faithful
  denotes : ∀ name, s.registry.denotes name = Catalogue.registry.denotes name

/-- What may have become known of the item of a hash. -/
structure Item.Fits (reply : Request → Answer) (hash : String) (item : Item) : Prop where
  hash_eq : item.hash = hash
  known : ∀ call j, (call, j) ∈ item.known → reply (Call.request hash call) = .ok j

theorem Session.fits_new : ({} : Session).Fits reply :=
  ⟨fun _ h => (nomatch h), Catalogue.registry_faithful, fun _ => rfl⟩

namespace Session

def runner (reply : Request → Answer) (batch : List Request → Answers) :
    Runner (StateT Session Dialogue) Session where
  run w s := (w.run s).run (m := Id) reply batch
  fits s := s.Fits reply
  run_pure _ _ := rfl
  run_bind w f s := Dialogue.run_bind reply batch (w.run s) fun r => (f r.1).run r.2

def exchanges (reply : Request → Answer) (batch : List Request → Answers) {α : Type}
    (w : StateT Session Dialogue α) (s : Session) : List Exchange :=
  (w.run s).transcript reply batch

theorem runs_exchanges {α : Type} (w : StateT Session Dialogue α) (s : Session) :
    tracer.runs w s (exchanges reply batch w s) ((runner reply batch).run w s).1
      ((runner reply batch).run w s).2 :=
  Dialogue.runs_transcript reply batch (w.run s)

theorem settled_ask (r : Request) : Settled (runner reply batch) (ask r) (reply r).toOption :=
  fun _ hs => ⟨rfl, hs⟩

def methodsTold (reply : Request → Answer) : Except DaemonError (List String) :=
  match reply ⟨"system.listMethods", []⟩ with
  | .error e => .error e
  | .ok (.arr items) => .ok (names items)
  | .ok j => .error (.protocol (.noMethodList j))

theorem methodsOf?_eq : methodsOf? reply = (methodsTold reply).toOption := by
  unfold methodsOf? methodsTold
  cases reply ⟨"system.listMethods", []⟩ with
  | error e => rfl
  | ok j => cases j <;> rfl

/-- Where the methods are not known, the daemon is asked once, and a list of them is noted. -/
theorem run_methodNames_unknown (batch : List Request → Answers) (registry : Registry) :
    (runner reply batch).run methodNames.run ⟨none, registry⟩ =
      (methodsTold reply, ⟨(methodsTold reply).toOption, registry⟩) := by
  let next : Json → Work DaemonError (List String) := fun
    | .arr items => do
      modify fun s => { s with methods := some (names items) }
      return names items
    | j => throw (.protocol (.noMethodList j))
  change (runner reply batch).run (ExceptT.bindCont next (reply ⟨"system.listMethods", []⟩))
    ⟨none, registry⟩ = _
  unfold methodsTold
  cases reply ⟨"system.listMethods", []⟩ with
  | error e => rfl
  | ok j => cases j <;> rfl

/-- Methods that are known are those that would be told. -/
theorem run_methodNames (batch : List Request → Answers) {s : Session} (hs : s.Fits reply) :
    ∃ s', (runner reply batch).run methodNames.run s = (methodsTold reply, s') ∧
      s'.Fits reply ∧ s'.registry = s.registry := by
  obtain ⟨methods, registry⟩ := s
  cases methods with
  | some ms =>
    have hms := hs.methods ms rfl
    rw [methodsOf?_eq] at hms
    rw [eq_ok_of_toOption hms]
    exact ⟨_, rfl, hs, rfl⟩
  | none =>
    refine ⟨_, run_methodNames_unknown batch registry, ⟨fun ms hms => ?_, hs.faithful, hs.denotes⟩, rfl⟩
    rw [methodsOf?_eq]
    exact hms

theorem settled_methodNames : Settled (runner reply batch) methodNames (methodsOf? reply) := by
  intro s hs
  obtain ⟨s', hrun, hs', -⟩ := run_methodNames batch hs
  rw [ComesTo, hrun, methodsOf?_eq]
  exact ⟨rfl, hs'⟩

end Session

namespace Item

def runner (reply : Request → Answer) (batch : List Request → Answers) (hash : String) :
    Runner (StateT Item (StateT Session Dialogue)) (Item × Session) where
  run w s :=
    let r := (Session.runner reply batch).run (w.run s.1) s.2
    (r.1.1, r.1.2, r.2)
  fits s := s.1.Fits reply hash ∧ s.2.Fits reply
  run_pure _ _ := rfl
  run_bind w f s := by
    have hrun := (Session.runner reply batch).run_bind (w.run s.1) (fun r => (f r.1).run r.2) s.2
    change (((Session.runner reply batch).run (w.run s.1 >>= fun r => (f r.1).run r.2) s.2).1.1,
      ((Session.runner reply batch).run (w.run s.1 >>= fun r => (f r.1).run r.2) s.2).1.2,
      ((Session.runner reply batch).run (w.run s.1 >>= fun r => (f r.1).run r.2) s.2).2) = _
    rw [hrun]

theorem run_ofWork {ε α : Type} (w : Work ε α) (item : Item) (s : Session) :
    (runner reply batch hash).run (Reading.ofWork w).run (item, s) =
      (((Session.runner reply batch).run w.run s).1, item,
        ((Session.runner reply batch).run w.run s).2) := by
  let paired := w.run >>= fun a => pure (a, item)
  have hrun : (Session.runner reply batch).run paired s = _ :=
    (Session.runner reply batch).run_bind w.run _ s
  change (((Session.runner reply batch).run paired s).1.1,
    ((Session.runner reply batch).run paired s).1.2,
    ((Session.runner reply batch).run paired s).2) = _
  rw [hrun]
  rfl

section Fetch

variable (batch : List Request → Answers) {item : Item} (s : Session) {call : String}

theorem run_fetch_known {entry : String × Json}
    (h : item.known.find? (·.1 = call) = some entry) :
    (runner reply batch hash).run (fetch call).run (item, s) = (.ok entry.2, item, s) := by
  have hread (f : Item → Reading DaemonError Json) :
      (runner reply batch hash).run (get >>= f).run (item, s) =
        (runner reply batch hash).run (f item).run (item, s) := rfl
  unfold fetch
  rw [hread, h]
  rfl

/-- Asked for the first time; the answer joins what is known. -/
theorem run_fetch_unknown (h : item.known.find? (·.1 = call) = none) :
    (runner reply batch hash).run (fetch call).run (item, s) =
      (reply (Call.request item.hash call), item.noting call (reply (Call.request item.hash call)),
        s) := by
  have hread (f : Item → Reading DaemonError Json) :
      (runner reply batch hash).run (get >>= f).run (item, s) =
        (runner reply batch hash).run (f item).run (item, s) := rfl
  unfold fetch
  rw [hread, h]
  dsimp only
  rw [ExceptT.run_bind, (runner reply batch hash).run_bind, run_ofWork]
  change (runner reply batch hash).run (ExceptT.bindCont (fun j => do
    modify fun item => { item with known := item.known ++ [(call, j)] }
    return j) (reply (Call.request item.hash call))) (item, s) = _
  cases reply (Call.request item.hash call) <;> rfl

theorem Fits.noting (hi : item.Fits reply hash) :
    (item.noting call (reply (Call.request hash call))).Fits reply hash := by
  cases hj : reply (Call.request hash call) with
  | error e => exact hi
  | ok j =>
    refine ⟨hi.hash_eq, fun c k hmem => ?_⟩
    rcases List.mem_append.1 hmem with hmem | hmem
    · exact hi.known c k hmem
    · cases List.mem_singleton.1 hmem
      exact hj

end Fetch

theorem run_fetch (batch : List Request → Answers) {item : Item} (hi : item.Fits reply hash)
    (s : Session) (call : String) :
    ∃ item', (runner reply batch hash).run (fetch call).run (item, s) =
      (reply (Call.request hash call), item', s) ∧ item'.Fits reply hash := by
  cases hfind : item.known.find? (·.1 = call) with
  | some entry =>
    obtain ⟨c, j⟩ := entry
    have hc : c = call := by simpa using List.find?_some hfind
    rw [run_fetch_known batch s hfind, ← hc, hi.known c j (List.mem_of_find?_eq_some hfind)]
    exact ⟨item, rfl, hi⟩
  | none =>
    rw [run_fetch_unknown batch s hfind, hi.hash_eq]
    exact ⟨_, rfl, hi.noting⟩

def exchanges (reply : Request → Answer) (batch : List Request → Answers) {α : Type}
    (w : StateT Item (StateT Session Dialogue) α) (x : Item × Session) : List Exchange :=
  ((w.run x.1).run x.2).transcript reply batch

theorem runs_exchanges {α : Type} (w : StateT Item (StateT Session Dialogue) α)
    (x : Item × Session) :
    tracer.runs w x (exchanges reply batch w x) ((runner reply batch hash).run w x).1
      ((runner reply batch hash).run w x).2 :=
  Dialogue.runs_transcript reply batch ((w.run x.1).run x.2)

end Item

theorem Session.Fits.catalogued {s : Session} (hs : s.Fits reply) : s.Catalogued :=
  ⟨hs.faithful, hs.denotes⟩

namespace Reading

variable {ε ε' α β : Type}

/-- The reading comes to the same, whatever is known of the item and of the daemon's methods. How it
fails may depend on which fields have been entered. -/
def Alike (reply : Request → Answer) (batch : List Request → Answers) (hash : String)
    (w : Reading ε α) : Prop :=
  ∀ x y, (Item.runner reply batch hash).fits x → (Item.runner reply batch hash).fits y →
    let r := (Item.runner reply batch hash).run w.run x
    let r' := (Item.runner reply batch hash).run w.run y
    (Item.runner reply batch hash).fits r.2 ∧ r.1.toOption = r'.1.toOption ∧
      (x.2.registry = y.2.registry → r.1 = r'.1 ∧ r.2.2.registry = r'.2.2.registry)

theorem toOption_mapError (f : ε → ε') (x : Except ε α) : (x.mapError f).toOption = x.toOption := by
  cases x <;> rfl

theorem alike_fetch (call : String) : Alike reply batch hash (Item.fetch call) := by
  rintro ⟨item, s⟩ ⟨item', s'⟩ ⟨hi, hs⟩ ⟨hi', -⟩
  obtain ⟨i, hrun, hfits⟩ := Item.run_fetch batch hi s call
  obtain ⟨i', hrun', -⟩ := Item.run_fetch batch hi' s' call
  rw [hrun, hrun']
  exact ⟨⟨hfits, hs⟩, rfl, fun h => ⟨rfl, h⟩⟩

theorem alike_methodNames : Alike reply batch hash (ofWork Session.methodNames) := by
  rintro ⟨item, s⟩ ⟨item', s'⟩ ⟨hi, hs⟩ ⟨-, hs'⟩
  obtain ⟨t, hrun, hfits, hregistry⟩ := Session.run_methodNames batch hs
  obtain ⟨t', hrun', -, hregistry'⟩ := Session.run_methodNames batch hs'
  rw [Item.run_ofWork, Item.run_ofWork, hrun, hrun']
  refine ⟨⟨hi, hfits⟩, rfl, fun h => ⟨rfl, ?_⟩⟩
  rw [hregistry, hregistry']
  exact h

theorem alike_resolve (name : String) :
    Alike reply batch hash (ofWork (Session.lookup (Registry.resolve name))) := by
  rintro ⟨item, s⟩ ⟨item', s'⟩ ⟨hi, hs⟩ ⟨-, hs'⟩
  have hresolve : Settled (Registry.runner Catalogue.registry.denotes) (Registry.resolve name) _ :=
    Registry.settled_resolve
  obtain ⟨hx, hfaithful, hdenotes⟩ := hresolve s.registry hs.catalogued
  obtain ⟨hx', -⟩ := hresolve s'.registry hs'.catalogued
  rw [Item.run_ofWork, Item.run_ofWork]
  refine ⟨⟨hi, hs.methods, hfaithful, hdenotes⟩, hx.trans hx'.symm, fun h => ?_⟩
  dsimp only at h
  change ((Registry.resolve name).run.run s.registry).1 = _ ∧
    ((Registry.resolve name).run.run s.registry).2 = _
  rw [h]
  exact ⟨rfl, rfl⟩

theorem Alike.bind {w : Reading ε α} {f : α → Reading ε β} (hw : Alike reply batch hash w)
    (hf : ∀ x a, (Item.runner reply batch hash).fits x →
      ((Item.runner reply batch hash).run w.run x).1 = .ok a → Alike reply batch hash (f a)) :
    Alike reply batch hash (w >>= f) := by
  intro x y hx hy
  obtain ⟨hfits, hoption, hsame⟩ := hw x y hx hy
  obtain ⟨hfits', -⟩ := hw y x hy hx
  have hnext := fun a => hf x a hx
  rw [ExceptT.run_bind, Runner.run_bind, Runner.run_bind]
  dsimp only at hfits hoption hsame hfits' ⊢
  generalize (Item.runner reply batch hash).run w.run x = r at *
  generalize (Item.runner reply batch hash).run w.run y = r' at *
  obtain ⟨out, t⟩ := r
  obtain ⟨out', t'⟩ := r'
  cases out with
  | error e =>
    cases out' with
    | ok a => cases hoption
    | error e' =>
      refine ⟨hfits, rfl, fun h => ?_⟩
      obtain ⟨he, hregistry⟩ := hsame h
      cases he
      exact ⟨rfl, hregistry⟩
  | ok a =>
    obtain rfl := eq_ok_of_toOption hoption.symm
    obtain ⟨h₁, h₂, h₃⟩ := hnext a rfl t t' hfits hfits'
    exact ⟨h₁, h₂, fun h => h₃ (hsame h).2⟩

theorem Alike.adapt {w : Reading ε α} (hw : Alike reply batch hash w) (f : ε → ε') :
    Alike reply batch hash (w.adapt f : Reading ε' α) := by
  intro x y hx hy
  obtain ⟨hfits, hoption, hsame⟩ := hw x y hx hy
  dsimp only at hfits hoption hsame ⊢
  rw [Runner.run_adapt, Runner.run_adapt]
  refine ⟨hfits, ?_, fun h => ⟨congrArg (Except.mapError f) (hsame h).1, (hsame h).2⟩⟩
  rw [toOption_mapError, toOption_mapError]
  exact hoption

/-- What a reading comes to has what its parts promise. -/
theorem Built.result {allowed : String → Prop} {w : Reading ε α} {post : α → Prop}
    (h : Built [] allowed w post) {x : Item × Session} (hx : (Item.runner reply batch hash).fits x)
    {a : α} (ha : ((Item.runner reply batch hash).run w.run x).1 = .ok a) : post a := by
  have hlog : Item.tracer.runs w.run x _ ((Item.runner reply batch hash).run w.run x).1 _ :=
    Item.runs_exchanges w.run x
  rw [ha] at hlog
  obtain ⟨sent, hends⟩ := h.ends hlog (List.nil_prefix) hx.2.catalogued
  exact (hends.result a rfl).1

/-- Where the daemon answers alike, what is known makes no difference to any reading. -/
theorem Built.alike {allowed : String → Prop} {w : Reading ε α} {post : α → Prop}
    (h : Built [] allowed w post) : Alike reply batch hash w := by
  induction h with
  | pure a => exact fun x y hx _ => ⟨hx, rfl, fun h => ⟨rfl, h⟩⟩
  | throw e => exact fun x y hx _ => ⟨hx, rfl, fun h => ⟨rfl, h⟩⟩
  | fetch call => exact alike_fetch call
  | methodNames => exact alike_methodNames
  | resolve name => exact alike_resolve name
  | bind hw _ ihw ihf => exact ihw.bind fun x a hx ha => ihf a (hw.result hx ha)
  | adapt f _ ih => exact ih.adapt f

end Reading

namespace Item

variable {α : Type} [Scalar α] (settings : Settings) (now : α)

/-- The value of a field is the same whatever is known so far. -/
theorem alike_read (name : String) : (read settings now name).Alike reply batch hash :=
  (built_read settings now (supplied_of_all name)).alike

end Item

end TorrentQuery
