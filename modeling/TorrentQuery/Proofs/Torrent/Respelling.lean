import TorrentQuery.Proofs.Daemon.Respelling
import TorrentQuery.Proofs.Paired
import TorrentQuery.Proofs.Torrent.Cache

namespace TorrentQuery

open Number Text Reading

/-- No field that is always known has a name like those of the families that are read by name. -/
theorem Catalogue.not_family_of_core {name : String} {f : Field} (h : core? name = some f) :
    after? "kind_".toList name.toList = none ∧ after? "guessit_".toList name.toList = none := by
  have hall : ∀ f ∈ coreFields, after? "kind_".toList f.name.toList = none ∧
      after? "guessit_".toList f.name.toList = none := by decide
  have hname : f.name = name := by simpa using List.find?_some h
  rw [← hname]
  exact hall f (List.mem_of_find?_eq_some h)

namespace Item

/-- Whether the value of a field is the text of an answer. -/
def showsAnswer (f : Field) : Bool :=
  match f.filter, f.type with
  | .files, _ | _, .bool | _, .int | _, .byteSize | _, .timestamp | _, .float => false
  | _, _ => true

def textCalls : (name : String) → List String
  | "tracker" | "views" => []
  | "alias" => ["d.custom=memo_alias"]
  | "path" => ["d.directory=", "d.name="]
  | "stopped" | "leechtime" | "seedtime" => ["d.custom=activations"]
  | "kind" => ["d.custom=kind"]
  | name =>
    if (after? "kind_".toList name.toList).isSome then ["d.custom=kind"]
    else if (after? "guessit_".toList name.toList).isSome then ["d.name="]
    else match Catalogue.registry.denotes name with
      | .ok (some f) => if showsAnswer f then f.requires else []
      | _ => []

/-- How many lists may stand around an integer in the answer to a call, if the value of a field is
not to depend on its spelling: none where the answer is taken as one text, one around the views, and
two where rows are looked at. -/
def depth (name call : String) : Nat :=
  if call ∈ textCalls name then 0 else if name = "views" ∧ call = "d.views=" then 1 else 2

/-- How deep an access looks at the answer to a call. A fetch gives the answer as it is. -/
def Access.depth : Access → String → Nat
  | .fetch _, _ => 0
  | .read name, call => Item.depth name call
  | .announceUrls, _ => 2

theorem depth_eq_zero {name call : String} (h : call ∈ textCalls name) : depth name call = 0 :=
  if_pos h

theorem depth_le_two (name call : String) : depth name call ≤ 2 := by
  unfold depth
  split
  · omega
  · split <;> omega

section Fields

variable {depth : String → Nat} {name : String} (hdepth : ∀ call, depth call ≤ Item.depth name call)

include hdepth

theorem whole {call : String} (hcall : call ∈ textCalls name) : depth call = 0 :=
  Nat.le_zero.1 (Nat.le_trans (hdepth call) (Nat.le_of_eq (depth_eq_zero hcall)))

theorem rows (call : String) : depth call ≤ 2 :=
  Nat.le_trans (hdepth call) (depth_le_two name call)

end Fields

/-- A field that is not put together from several answers takes those as texts that it shows, or that
its family takes as texts. -/
theorem textCalls_of_simple {α : Type} [Scalar α] {settings : Settings} {now : α} {name : String}
    (hname : composed? settings now name = none) :
    textCalls name =
      if (after? "kind_".toList name.toList).isSome then ["d.custom=kind"]
      else if (after? "guessit_".toList name.toList).isSome then ["d.name="]
      else match Catalogue.registry.denotes name with
        | .ok (some f) => if showsAnswer f then f.requires else []
        | _ => [] := by
  unfold textCalls
  split
  all_goals first | rfl | cases hname

/-- A pair of runs in which calls have the same answers but for the spelling of integers. -/
structure Respelled (P : RunnerPair (StateT Item (StateT Session Dialogue)) (Item × Session))
    (depth : String → Nat) (settings : Settings) : Prop where
  fetch : ∀ call, P.Relates (Json.Respelled (depth call)) (fetch call) (fetch call)
  canUse : ∀ method : String, (∀ n : Int, method ≠ toString n) →
    P.Same (ofWork (Session.canUse settings method))
  resolve : ∀ name, P.Relates
    (fun f g => f = g ∧ Catalogue.registry.denotes name = .ok (some f))
    (ofWork (Session.lookup (Registry.resolve name)))
    (ofWork (Session.lookup (Registry.resolve name)))

namespace Respelled

variable {P : RunnerPair (StateT Item (StateT Session Dialogue)) (Item × Session)}
  {depth : String → Nat} {settings : Settings} (h : Respelled P depth settings)

include h

section Calls

variable {call : String}

theorem same_text (hcall : depth call = 0) : P.Same (text call) := by
  apply (h.fetch call).same_of_eq
  intro j k hjk
  rw [hcall] at hjk
  exact hjk.asText_eq

theorem same_integer (call : String) : P.Same (integer call) :=
  (h.fetch call).same_of_eq fun _ _ hjk => hjk.asInteger_eq

theorem same_flag (call : String) : P.Same (flag call) :=
  (h.same_integer call).bind fun _ => RunnerPair.same_pure _

theorem same_rows (hcall : depth call ≤ 2) {β : Type} {f : List Json → Option β}
    (hf : ∀ cells cells', List.Forall₂ Json.SameScalar cells cells' → f cells = f cells') :
    P.Same (do return (← Item.fetch call).asRows.filterMap f) :=
  (h.fetch call).same_of_eq fun _ _ hjk => (hjk.mono hcall).filterMap_rows_eq hf

end Calls

theorem same_announceUrls (hcall : depth Catalogue.trackerCall ≤ 2) : P.Same announceUrls := by
  apply h.same_rows hcall
  rintro _ _ (_ | ⟨hurl, _ | ⟨henabled, _⟩⟩)
  · rfl
  · rfl
  · simp only [hurl.asText_eq, henabled.asInteger_eq]

theorem same_fileSizes (hcall : depth Catalogue.fileSizesCall ≤ 2) : P.Same fileSizes := by
  apply h.same_rows hcall
  rintro _ _ (_ | ⟨hpath, _ | ⟨hsize, _⟩⟩)
  · rfl
  · rfl
  · simp only [hpath.asText_eq, hsize.asInteger_eq]

theorem same_trackerName (hnoted : depth "d.custom=memo_alias" = 0)
    (hcall : depth Catalogue.trackerCall ≤ 2) : P.Same (trackerName settings) := by
  apply (h.same_text hnoted).bind
  intro noted
  dsimp only
  split
  · exact ((h.same_announceUrls hcall).map _).bind fun _ => RunnerPair.same_pure _
  · exact (RunnerPair.same_pure _).bind fun _ => RunnerPair.same_pure _

theorem same_dataPath (hdirectory : depth "d.directory=" = 0) (hname : depth "d.name=" = 0) :
    P.Same dataPath := by
  apply (h.same_text hdirectory).bind
  intro directory
  apply (h.same_flag _).bind
  intro multi
  split
  · exact RunnerPair.same_pure _
  · exact (h.same_text hname).bind fun _ => RunnerPair.same_pure _

theorem same_keptTime {method : String} (hmethod : method.toList.any Char.isAlpha = true) :
    P.Same (keptTime settings method) := by
  apply (h.canUse method (ne_toString_of_isAlpha hmethod)).bind
  intro kept
  split
  · exact h.same_integer _
  · exact RunnerPair.same_pure _

theorem same_history (hcall : depth "d.custom=activations" = 0) : P.Same (history settings) :=
  (h.canUse _ (ne_toString_of_isAlpha (by decide))).bind fun _ => h.same_text hcall

variable {α : Type} [Scalar α] (now : α)

theorem same_completion : P.Same (completion (α := α)) := by
  apply (h.same_integer _).bind
  intro size
  apply (h.same_integer _).bind
  intro completed
  split <;> exact RunnerPair.same_pure _

theorem same_stopTime (hcall : depth "d.custom=activations" = 0) : P.Same (stopTime α) :=
  (h.same_text hcall).bind fun _ => RunnerPair.same_pure _

theorem same_leechTime (hcall : depth "d.custom=activations" = 0) :
    P.Same (leechTime settings now) := by
  apply (h.same_integer _).bind
  intro completed
  apply (h.same_history hcall).bind
  intro told
  split
  · exact RunnerPair.same_pure _
  · exact (h.same_integer _).bind fun _ => RunnerPair.same_pure _

theorem same_seedTime (hcall : depth "d.custom=activations" = 0) :
    P.Same (seedTime settings now) := by
  apply (h.same_flag _).bind
  intro complete
  split
  · exact (h.same_integer _).bind fun _ => (h.same_history hcall).bind fun _ => RunnerPair.same_pure _
  · exact RunnerPair.same_pure _

theorem same_fileKinds (α : Type) [Scalar α] (limit : Nat) (hnoted : depth "d.custom=kind" = 0)
    (hcall : depth Catalogue.fileSizesCall ≤ 2) : P.Same (fileKinds α limit) := by
  apply (h.same_text hnoted).bind
  intro noted
  dsimp only
  split
  · exact ((h.same_fileSizes hcall).map _).bind fun _ => RunnerPair.same_pure _
  · exact (RunnerPair.same_pure _).bind fun _ => RunnerPair.same_pure _

theorem same_answerFor {f : Field} (hrows : ∀ call, depth call ≤ 2)
    (htext : showsAnswer f = true → ∀ call ∈ f.requires, depth call = 0) :
    P.Same (answerFor (α := α) f) := by
  have hvalue {call : String} (hcall : call ∈ f.requires) {j k : Json}
      (hjk : j.Respelled (depth call) k) : valueOf (α := α) f j = valueOf f k := by
    unfold valueOf
    split
    · rw [firstColumn, firstColumn, (hjk.mono (hrows call)).filterMap_rows_eq]
      rintro _ _ (_ | ⟨hcell, _⟩)
      · rfl
      · exact congrArg some hcell.asText_eq
    iterate 5 rw [hjk.asInteger_eq]
    · have hshows : showsAnswer f = true := by
        unfold showsAnswer
        split <;> simp_all
      rw [htext hshows call hcall] at hjk
      rw [hjk.asText_eq]
  unfold answerFor
  split
  · next call hcall =>
    exact ((h.fetch call).adapt ReadError.daemon).same_of_eq fun _ _ hjk =>
      hvalue (List.mem_of_head? hcall) hjk
  · exact RunnerPair.same_throw _

section Values

variable {name : String} (hdepth : ∀ call, depth call ≤ Item.depth name call)

include hdepth

theorem same_composed {r : Reading DaemonError (Value α)}
    (hr : composed? settings now name = some r) : P.Same r := by
  have hwhole {call : String} (hcall : call ∈ textCalls name) : depth call = 0 := whole hdepth hcall
  have hrows := rows hdepth
  have hpure {β : Type} (f : β → Value α) (b : β) :
      P.Same (pure (f b) : Reading DaemonError (Value α)) := RunnerPair.same_pure _
  unfold composed? at hr
  split at hr
  all_goals cases hr
  · exact (h.same_announceUrls (hrows _)).bind fun _ => hpure _ _
  · exact (h.same_trackerName (hwhole (by decide)) (hrows _)).bind fun _ => hpure _ _
  · exact (h.same_dataPath (hwhole (by decide)) (hwhole (by decide))).bind fun _ => hpure _ _
  · exact h.same_completion.bind fun _ => hpure _ _
  · exact (h.same_integer _).bind fun _ => (h.same_integer _).bind fun _ => hpure _ _
  · exact (h.same_keptTime (by decide)).bind fun _ => hpure _ _
  · exact (h.same_keptTime (by decide)).bind fun _ => hpure _ _
  · exact (h.same_stopTime (hwhole (by decide))).bind fun _ => hpure _ _
  · exact (h.same_leechTime now (hwhole (by decide))).bind fun _ => hpure _ _
  · exact (h.same_seedTime now (hwhole (by decide))).bind fun _ => hpure _ _
  · exact (h.same_text (hwhole (by decide))).bind fun _ => hpure _ _
  · have hviews : depth "d.views=" ≤ 1 := hdepth "d.views="
    exact (h.fetch _).same_of_eq fun _ _ hjk => congrArg Value.set (hjk.mono hviews).asTextSet_eq
  · exact (h.same_fileKinds α 0 (hwhole (by decide)) (hrows _)).bind fun _ => hpure _ _

theorem same_familyValue (hname : composed? settings now name = none) :
    P.Same (familyValue (α := α) name) := by
  have hcalls := textCalls_of_simple hname
  unfold familyValue
  split
  · next hlimit =>
    rw [hlimit] at hcalls
    split
    · next n _ =>
      have hkinds := h.same_fileKinds α n (whole hdepth (by simp [hcalls])) (rows hdepth _)
      exact (hkinds.adapt ReadError.daemon).bind fun _ => RunnerPair.same_pure _
    · exact RunnerPair.same_throw _
  · next hkind hkey =>
    rw [hkind, hkey] at hcalls
    have htitle := h.same_text (whole hdepth (show "d.name=" ∈ textCalls name by simp [hcalls]))
    exact (htitle.adapt ReadError.daemon).bind fun _ => RunnerPair.same_pure _
  · next hkind hkey =>
    rw [hkind, hkey] at hcalls
    apply ((h.resolve name).adapt ReadError.query).bind
    rintro f _ ⟨rfl, hf⟩
    apply h.same_answerFor (rows hdepth)
    intro hshows call hcall
    exact whole hdepth (by simpa [hcalls, hf, hshows] using hcall)

/-- Integers that stand no deeper than the field looks can be spelt either way. -/
theorem same_read : P.Same (read settings now name) := by
  apply RunnerPair.Relates.adapt
  unfold value
  split
  · next hcomposed => exact (h.same_composed now hdepth hcomposed).adapt _
  · next f hname hcore =>
    obtain ⟨hkind, hkey⟩ := Catalogue.not_family_of_core hcore
    have hcalls := textCalls_of_simple hname
    rw [hkind, hkey, Catalogue.denotes_of_core hcore] at hcalls
    apply h.same_answerFor (rows hdepth)
    intro hshows call hcall
    exact whole hdepth (by simpa [hcalls, hshows] using hcall)
  · next hname _ => exact h.same_familyValue now hdepth hname

end Values

end Respelled

end Item

namespace Session

/-- The same methods, apart from names that are written integers. -/
def SameMethods (ms ms' : List String) : Prop :=
  ∀ method : String, (∀ n : Int, method ≠ toString n) → (method ∈ ms ↔ method ∈ ms')

theorem mem_names {items : List Json} {method : String} :
    method ∈ names items ↔ .str method ∈ items := by
  induction items with
  | nil => simp [names]
  | cons j items ih => cases j <;> simp [names, ih]

theorem sameMethods_names {items items' : List Json} {depth : Nat}
    (h : List.Forall₂ (Json.Respelled depth) items items') :
    SameMethods (names items) (names items') := by
  intro method hmethod
  rw [mem_names, mem_names]
  induction h with
  | nil => exact Iff.rfl
  | cons hjk _ ih => simp only [List.mem_cons, hjk.eq_str_iff hmethod, ih]

end Session

/-- Daemons whose answers about an item are the same but for the spelling of integers, which stand in
at most `depth` lists; and so is what they tell of their methods. -/
structure Respelling (depth : String → Nat) (hash : String) (reply reply' : Request → Answer) :
    Prop where
  about : ∀ call, Agree (Json.Respelled (depth call)) (reply (Call.request hash call))
    (reply' (Call.request hash call))
  methods : Agree (Json.Respelled 2) (reply ⟨"system.listMethods", []⟩)
    (reply' ⟨"system.listMethods", []⟩)

/-- If what is told of the methods is no list, it is told in one spelling: the failure shows it. -/
def Session.ToldAlike (reply reply' : Request → Answer) : Prop :=
  ∀ j k, reply ⟨"system.listMethods", []⟩ = .ok j → reply' ⟨"system.listMethods", []⟩ = .ok k →
    namesOf? j = none → j = k

variable {depth : String → Nat} {hash : String} {reply reply' : Request → Answer}
  {batch batch' : List Request → Answers}

theorem Respelling.methodsTold (h : Respelling depth hash reply reply')
    (halike : Session.ToldAlike reply reply') :
    Agree Session.SameMethods (Session.methodsTold reply) (Session.methodsTold reply') := by
  have hsame (x : Except DaemonError (List String)) : Agree Session.SameMethods x x :=
    Agree.refl (fun _ _ _ => Iff.rfl) x
  have hmethods := h.methods
  unfold Session.ToldAlike at halike
  unfold Session.methodsTold
  generalize reply ⟨"system.listMethods", []⟩ = x at hmethods halike
  generalize reply' ⟨"system.listMethods", []⟩ = y at hmethods halike
  cases hmethods with
  | error e => exact .error e
  | @ok j k hjk =>
    rcases hjk with hjk | ⟨items, items', rfl, rfl, hitems⟩
    · cases hjk with
      | refl => exact hsame _
      | toText => cases halike _ _ rfl rfl rfl
      | ofText => cases halike _ _ rfl rfl rfl
    · exact .ok (Session.sameMethods_names hitems)

namespace Item

/-- What is known of an item from two daemons, which spell integers in different ways. -/
structure Twins (depth : String → Nat) (hash : String) (x y : Item × Session) : Prop where
  hash_left : x.1.hash = hash
  hash_right : y.1.hash = hash
  known : List.Forall₂ (fun p q => p.1 = q.1 ∧ Json.Respelled (depth p.1) p.2 q.2)
    x.1.known y.1.known
  catalogued : x.2.Catalogued
  registry : y.2.registry = x.2.registry
  methods : Option.Rel Session.SameMethods x.2.methods y.2.methods

theorem find?_known {known known' : List (String × Json)} (call : String)
    (h : List.Forall₂ (fun p q => p.1 = q.1 ∧ Json.Respelled (depth p.1) p.2 q.2) known known') :
    Option.Rel (fun p q => Json.Respelled (depth call) p.2 q.2)
      (known.find? (·.1 = call)) (known'.find? (·.1 = call)) := by
  induction h with
  | nil => exact .none
  | @cons p q known known' hpq hrest ih =>
    obtain ⟨hcall, hjson⟩ := hpq
    by_cases hp : p.1 = call
    · rw [List.find?_cons_of_pos (by simpa using hp),
        List.find?_cons_of_pos (by simpa [← hcall] using hp)]
      rw [hp] at hjson
      exact .some hjson
    · rw [List.find?_cons_of_neg (by simpa using hp),
        List.find?_cons_of_neg (by simpa [← hcall] using hp)]
      exact ih

def pair (depth : String → Nat) (hash : String) (reply reply' : Request → Answer)
    (batch batch' : List Request → Answers) :
    RunnerPair (StateT Item (StateT Session Dialogue)) (Item × Session) :=
  ⟨runner reply batch hash, runner reply' batch' hash, Twins depth hash⟩

theorem relates_of_runs {ε β γ : Type} {R : β → γ → Prop} {w : Reading ε β} {w' : Reading ε γ}
    (h : ∀ item s item' s', Twins depth hash (item, s) (item', s') →
      Agree R ((runner reply batch hash).run w.run (item, s)).1
        ((runner reply' batch' hash).run w'.run (item', s')).1 ∧
      Twins depth hash ((runner reply batch hash).run w.run (item, s)).2
        ((runner reply' batch' hash).run w'.run (item', s')).2) :
    (pair depth hash reply reply' batch batch').Relates R w w' :=
  fun x y => h x.1 x.2 y.1 y.2

/-- Work of the sessions leaves the items as they are. -/
theorem relates_ofWork {ε β γ : Type} {R : β → γ → Prop} {w : Work ε β} {w' : Work ε γ}
    (h : ∀ s s' : Session, s.Catalogued → s'.registry = s.registry →
      Option.Rel Session.SameMethods s.methods s'.methods →
      let r := (Session.runner reply batch).run w.run s
      let r' := (Session.runner reply' batch').run w'.run s'
      Agree R r.1 r'.1 ∧ r.2.Catalogued ∧ r'.2.registry = r.2.registry ∧
        Option.Rel Session.SameMethods r.2.methods r'.2.methods) :
    (pair depth hash reply reply' batch batch').Relates R (ofWork w) (ofWork w') := by
  apply relates_of_runs
  intro item s item' s' htwins
  obtain ⟨hresult, hcatalogued, hregistry, hmethods⟩ :=
    h s s' htwins.catalogued htwins.registry htwins.methods
  rw [run_ofWork, run_ofWork]
  exact ⟨hresult, htwins.hash_left, htwins.hash_right, htwins.known, hcatalogued, hregistry, hmethods⟩

theorem Twins.noting {item item' : Item} {s s' : Session} {call : String} {x x' : Answer}
    (htwins : Twins depth hash (item, s) (item', s'))
    (h : Agree (Json.Respelled (depth call)) x x') :
    Twins depth hash (item.noting call x, s) (item'.noting call x', s') := by
  cases h with
  | error e => exact htwins
  | ok hjk =>
    exact ⟨htwins.hash_left, htwins.hash_right, List.rel_append htwins.known (.cons ⟨rfl, hjk⟩ .nil),
      htwins.catalogued, htwins.registry, htwins.methods⟩

theorem relates_fetch (h : Respelling depth hash reply reply') (call : String) :
    (pair depth hash reply reply' batch batch').Relates (Json.Respelled (depth call)) (fetch call)
      (fetch call) := by
  apply relates_of_runs
  intro item s item' s' htwins
  have hfind := find?_known call htwins.known
  generalize hleft : item.known.find? _ = entry at hfind
  generalize hright : item'.known.find? _ = entry' at hfind
  cases hfind with
  | some hjk =>
    rw [run_fetch_known batch s hleft, run_fetch_known batch' s' hright]
    exact ⟨.ok hjk, htwins⟩
  | none =>
    rw [run_fetch_unknown batch s hleft, run_fetch_unknown batch' s' hright, htwins.hash_left,
      htwins.hash_right]
    exact ⟨h.about call, htwins.noting (h.about call)⟩

theorem relates_methodNames (h : Respelling depth hash reply reply')
    (halike : Session.ToldAlike reply reply') :
    (pair depth hash reply reply' batch batch').Relates Session.SameMethods
      (ofWork Session.methodNames) (ofWork Session.methodNames) := by
  apply relates_ofWork
  rintro ⟨methods, registry⟩ ⟨methods', registry'⟩ hcatalogued hregistry hmethods
  cases hmethods with
  | some hms => exact ⟨.ok hms, hcatalogued, hregistry, .some hms⟩
  | none =>
    rw [Session.run_methodNames_unknown, Session.run_methodNames_unknown]
    have htold := h.methodsTold halike
    refine ⟨htold, hcatalogued, hregistry, ?_⟩
    generalize Session.methodsTold reply = told at htold
    generalize Session.methodsTold reply' = told' at htold
    cases htold with
    | error e => exact .none
    | ok hms => exact .some hms

theorem relates_resolve (name : String) :
    (pair depth hash reply reply' batch batch').Relates
      (fun f g => f = g ∧ Catalogue.registry.denotes name = .ok (some f))
      (ofWork (Session.lookup (Registry.resolve name)))
      (ofWork (Session.lookup (Registry.resolve name))) := by
  apply relates_ofWork
  intro s s' hs hregistry hmethods
  have hresolve : Settled (Registry.runner Catalogue.registry.denotes) (Registry.resolve name) _ :=
    Registry.settled_resolve
  obtain ⟨-, hcatalogued⟩ := hresolve s.registry hs
  refine ⟨?_, hcatalogued, ?_, hmethods⟩
  · change Agree _ ((Registry.resolve name).run.run s.registry).1
      ((Registry.resolve name).run.run s'.registry).1
    rw [hregistry]
    cases hfound : ((Registry.resolve name).run.run s.registry).1 with
    | error e => exact .error e
    | ok f => exact .ok ⟨rfl, Registry.denotes_of_resolve hs hfound⟩
  · change ((Registry.resolve name).run.run s'.registry).2 =
      ((Registry.resolve name).run.run s.registry).2
    rw [hregistry]

/-- Runs with two daemons of which one respells what the other tells. -/
theorem respelled_pair {settings : Settings} (h : Respelling depth hash reply reply')
    (halike : settings.safetyChecks = true → Session.ToldAlike reply reply') :
    Respelled (pair depth hash reply reply' batch batch') depth settings := by
  refine ⟨relates_fetch h, fun method hmethod => ?_, relates_resolve⟩
  unfold Session.canUse
  split
  · next hchecks =>
    rw [Session.hasMethod, ofWork_bind]
    apply (relates_methodNames h (halike hchecks)).bind
    intro ms ms' hms
    apply RunnerPair.relates_pure
    rw [Bool.eq_iff_iff, List.contains_iff_mem, List.contains_iff_mem]
    exact hms method hmethod
  · exact RunnerPair.same_pure _

section Accesses

variable {α : Type} [Scalar α] (settings : Settings) (now : α) {x y : Item × Session}

theorem perform_same (batch batch' : List Request → Answers)
    (h : Respelling depth hash reply reply')
    (halike : settings.safetyChecks = true → Session.ToldAlike reply reply') {a : Access}
    (hraw : ∀ call, a ≠ .fetch call) (hdepth : ∀ call, depth call ≤ a.depth call)
    (htwins : Twins depth hash x y) :
    let r := (runner reply batch hash).run (a.perform settings now) x
    let r' := (runner reply' batch' hash).run (a.perform settings now) y
    r.1 = r'.1 ∧ Twins depth hash r.2 r'.2 := by
  have hpair : Respelled (pair depth hash reply reply' batch batch') depth settings :=
    respelled_pair h halike
  cases a with
  | fetch call => exact absurd rfl (hraw call)
  | read name =>
    have hread : RunnerPair.Same _ (Item.read settings now name) := hpair.same_read now hdepth
    obtain ⟨hresult, hnext⟩ := hread x y htwins
    rw [Access.perform, Runner.run_bind, Runner.run_bind, Runner.run_pure, Runner.run_pure]
    exact ⟨congrArg Finding.value hresult.eq, hnext⟩
  | announceUrls =>
    obtain ⟨hresult, hnext⟩ := hpair.same_announceUrls (hdepth _) x y htwins
    rw [Access.perform, Runner.run_bind, Runner.run_bind, Runner.run_pure, Runner.run_pure]
    exact ⟨congrArg Finding.urls hresult.eq, hnext⟩

/-- Suppose that two daemons, and what is known of an item from each of them, tell the same but for
the spelling of integers: at the top of answers and inside the rows of lists, as deep as the accesses
look. Then the accesses come to the same, failures included. -/
theorem accesses_same_in_every_spelling (h : Respelling depth hash reply reply')
    (halike : settings.safetyChecks = true → Session.ToldAlike reply reply')
    (htwins : Twins depth hash x y) (accesses : List Access)
    (hraw : ∀ call, .fetch call ∉ accesses)
    (hdepth : ∀ a ∈ accesses, ∀ call, depth call ≤ a.depth call) :
    ((runner reply batch hash).run (performAll settings now accesses) x).1 =
      ((runner reply' batch' hash).run (performAll settings now accesses) y).1 := by
  induction accesses generalizing x y with
  | nil => rfl
  | cons a accesses ih =>
    obtain ⟨ha, hrest⟩ := List.forall_mem_cons.1 hdepth
    have hfirst : ∀ call, a ≠ .fetch call := fun call heq =>
      hraw call (heq ▸ List.mem_cons_self)
    have hlater : ∀ call, .fetch call ∉ accesses := fun call hmem =>
      hraw call (List.mem_cons_of_mem a hmem)
    obtain ⟨hresult, hnext⟩ := perform_same settings now batch batch' h halike hfirst ha htwins
    have hmore := ih hnext hlater hrest
    rw [performAll, Runner.run_bind, Runner.run_bind, Runner.run_bind, Runner.run_bind,
      Runner.run_pure, Runner.run_pure, hresult, hmore]

end Accesses

/-- A daemon of one item that tells five of everything but the hash and the methods. -/
def fives (five methods : Json) (r : Request) : Answer :=
  if r.method = "d.hash" then .ok (.str "A")
  else if r.method = "system.listMethods" then .ok methods
  else if ["t.multicall", "d.name", "d.views"].contains r.method then .ok (.arr [.arr [five, five]])
  else .ok five

theorem respelling_fives {methods methods' : Json} (h : methods.Respelled 2 methods') :
    Respelling (fun _ => 2) "A" (fives (.int 5) methods) (fives (.str "5") methods') := by
  have hfive : Json.SameScalar (.int 5) (.str "5") := .toText ⟨by decide, by decide⟩
  have hrow : Json.Respelled 2 (.arr [.arr [.int 5, .int 5]]) (.arr [.arr [.str "5", .str "5"]]) :=
    .inr ⟨_, _, rfl, rfl, .cons (.inr ⟨_, _, rfl, rfl, .cons hfive (.cons hfive .nil)⟩) .nil⟩
  have hall (r : Request) : Agree (Json.Respelled 2) (fives (.int 5) methods r)
      (fives (.str "5") methods' r) := by
    unfold fives
    split_ifs
    · exact .ok (.inl (.refl _))
    · exact .ok h
    · exact .ok hrow
    · exact .ok (.inl hfive)
  exact ⟨fun _ => hall _, hall _⟩

def sized (size : Json) : Item := ⟨"A", [("d.hash=", .str "A"), ("d.size_bytes=", size)]⟩

theorem twins_sized : Twins (fun _ => 2) "A" (sized (.int 5), {}) (sized (.str "5"), {}) := by
  have hfive : Json.SameScalar (.int 5) (.str "5") := .toText ⟨by decide, by decide⟩
  exact ⟨rfl, rfl, .cons ⟨rfl, .inl (.refl _)⟩ (.cons ⟨rfl, .inl hfive⟩ .nil),
    ⟨Catalogue.registry_faithful, fun _ => rfl⟩, rfl, .none⟩

theorem accesses_same_in_every_spelling_size_and_trackers :
    let accesses : List Access := [.read "size", .read "tracker", .announceUrls, .read "active"]
    let run (five : Json) := ((runner (fives five (.arr [five])) (fun _ => .ok []) "A").run
      (performAll {} (0 : Float) accesses) (sized five, {})).1
    run (.int 5) = run (.str "5") := by
  intro accesses run
  have hfive : Json.SameScalar (.int 5) (.str "5") := .toText ⟨by decide, by decide⟩
  have hmethods : Json.Respelled 2 (.arr [.int 5]) (.arr [.str "5"]) :=
    .inr ⟨_, _, rfl, rfl, .cons (.inl hfive) .nil⟩
  have halike : Session.ToldAlike (fives (.int 5) (.arr [.int 5]))
      (fives (.str "5") (.arr [.str "5"])) := by
    intro j k hj _ hnolist
    cases hj
    cases hnolist
  apply accesses_same_in_every_spelling {} 0 (respelling_fives hmethods) (fun _ => halike) twins_sized
    accesses
  · intro call hcall
    simp [accesses] at hcall
  · intro a ha call
    simp only [accesses, List.mem_cons, List.not_mem_nil, or_false] at ha
    rcases ha with rfl | rfl | rfl | rfl
    all_goals exact Nat.le_refl 2

/-- A list that a field shows as one text is shown in its spelling, and so is a row among the views
and what a daemon tells in place of a list of methods. -/
theorem lists_shown_as_spelt :
    let reply := fives (.int 5) (.int 5)
    let reply' := fives (.str "5") (.str "5")
    let tell (reply : Request → Answer) (five : Json) (name : String) :=
      ((runner reply (fun _ => .ok []) "A").run (read {} (0 : Float) name).run (sized five, {})).1
    Respelling (fun _ => 2) "A" reply reply' ∧
    Twins (fun _ => 2) "A" (sized (.int 5), {}) (sized (.str "5"), {}) ∧
    ∀ name ∈ ["name", "views", "active"], tell reply (.int 5) name ≠ tell reply' (.str "5") name := by
  intro reply reply' tell
  have hfive : Json.SameScalar (.int 5) (.str "5") := .toText ⟨by decide, by decide⟩
  have hname : tell reply (.int 5) "name" = .ok (.str "[[5,5]]") := rfl
  have hname' : tell reply' (.str "5") "name" = .ok (.str "[[\"5\",\"5\"]]") := rfl
  have hviews : tell reply (.int 5) "views" = .ok (.set (.ofList ["[5,5]"])) := rfl
  have hviews' : tell reply' (.str "5") "views" = .ok (.set (.ofList ["[\"5\",\"5\"]"])) := rfl
  have hactive : tell reply (.int 5) "active" =
      .error (.attribute "active" "Protocol error: Expected a method list, got 5") := rfl
  have hactive' : tell reply' (.str "5") "active" =
      .error (.attribute "active" "Protocol error: Expected a method list, got \"5\"") := rfl
  refine ⟨respelling_fives (.inl hfive), twins_sized, fun name hmem h => ?_⟩
  simp only [List.mem_cons, List.not_mem_nil, or_false] at hmem
  rcases hmem with rfl | rfl | rfl
  · rw [hname, hname'] at h
    exact absurd (Value.str.inj (Except.ok.inj h)) (by decide)
  · rw [hviews, hviews'] at h
    exact absurd (congrArg TextSet.toList (Value.set.inj (Except.ok.inj h))) (by decide)
  · rw [hactive, hactive'] at h
    exact absurd (QueryError.attribute.inj (Except.error.inj h)).2 (by decide)

end Item

end TorrentQuery
