import TorrentQuery.Cli.Output
import TorrentQuery.Filter.Matcher
import TorrentQuery.Proofs.Torrent.Questions

namespace TorrentQuery

open Number Text

namespace Reading

variable {known : List (String × Json)} {allowed : String → Prop} {ε ε' α β : Type}

theorem Built.imp {w : Reading ε α} {post post' : α → Prop} (h : Built known allowed w post)
    (hpost : ∀ a, post a → post' a) : Built known allowed w post' := by
  rw [← bind_pure w]
  exact h.bind fun a ha => .pure a (hpost a ha)

theorem built_pure (a : α) : Built known allowed (pure a : Reading ε α) fun _ => True :=
  .pure a trivial

theorem Built.map {w : Reading ε α} {post : α → Prop} (h : Built known allowed w post) (f : α → β) :
    Built known allowed (f <$> w) fun _ => True := by
  rw [map_eq_pure_bind]
  exact h.bind fun a _ => .pure (f a) trivial

theorem ofWork_bind (w : Work ε α) (f : α → Work ε β) :
    ofWork (w >>= f) = ofWork w >>= fun a => ofWork (f a) := by
  apply ExceptT.ext
  apply StateT.ext
  intro item
  have hleft : (ofWork (w >>= f)).run.run item =
      (w.run >>= ExceptT.bindCont f) >>= fun x => pure (x, item) := rfl
  have hright : (ofWork w >>= fun a => ofWork (f a)).run.run item =
      (w.run >>= fun x => pure (x, item)) >>= fun p =>
        ExceptT.bindCont (fun a => ofWork (f a)) p.1 p.2 := rfl
  rw [hleft, hright, bind_assoc, bind_assoc]
  congr 1
  funext x
  rw [pure_bind]
  cases x with
  | error e => exact pure_bind _ _
  | ok a => rfl

theorem built_canUse (settings : Settings) (method : String) :
    Built known allowed (ofWork (Session.canUse settings method)) fun _ => True := by
  unfold Session.canUse
  split
  · rw [Session.hasMethod, ofWork_bind]
    exact Built.methodNames.bind fun _ _ => built_pure _
  · exact built_pure _

end Reading

namespace Item

open Reading

variable {known : List (String × Json)} {allowed : String → Prop}

section Calls

variable {call : String}

theorem built_text (h : AtHand known allowed call) :
    Built known allowed (text call)
      fun t => ∀ entry, known.find? (·.1 = call) = some entry → t = entry.2.asText := by
  apply (Built.fetch call h).bind
  intro j hj
  exact .pure _ fun entry hentry => congrArg Json.asText (hj entry hentry)

theorem built_integer (h : AtHand known allowed call) :
    Built known allowed (integer call) fun _ => True :=
  (Built.fetch call h).bind fun _ _ => built_pure _

theorem built_flag (h : AtHand known allowed call) :
    Built known allowed (flag call) fun _ => True :=
  (built_integer h).bind fun _ _ => built_pure _

end Calls

theorem built_announceUrls (h : AtHand known allowed Catalogue.trackerCall) :
    Built known allowed announceUrls fun _ => True :=
  (Built.fetch _ h).bind fun _ _ => built_pure _

theorem built_fileSizes (h : AtHand known allowed Catalogue.fileSizesCall) :
    Built known allowed fileSizes fun _ => True :=
  (Built.fetch _ h).bind fun _ _ => built_pure _

/-- The noted answer to a call, if it is known, is empty in the sense of `empty`. -/
def NotedEmpty (known : List (String × Json)) (empty : String → Bool) (call : String) : Prop :=
  ∀ entry, known.find? (·.1 = call) = some entry → empty entry.2.asText = true

/-- All calls are at hand that the value of a field may take. -/
structure Supplied (known : List (String × Json)) (allowed : String → Prop) (name : String) :
    Prop where
  required : ∀ f, Catalogue.registry.denotes name = .ok (some f) →
    ∀ call ∈ f.requires, AtHand known allowed call
  title : (after? "guessit_".toList name.toList).isSome = true → AtHand known allowed "d.name="
  kind : (after? "kind_".toList name.toList).isSome = true → AtHand known allowed "d.custom=kind"
  trackers : name = "alias" → NotedEmpty known String.isEmpty "d.custom=memo_alias" →
    AtHand known allowed Catalogue.trackerCall
  sizes : name = "kind" ∨ (after? "kind_".toList name.toList).isSome = true →
    NotedEmpty known (fun t => (trim t.toList).isEmpty) "d.custom=kind" →
    AtHand known allowed Catalogue.fileSizesCall

/-- Where every call is allowed, nothing need be known. -/
theorem supplied_of_all (name : String) : Supplied known (fun _ => True) name :=
  ⟨fun _ _ _ _ => .inr trivial, fun _ => .inr trivial, fun _ => .inr trivial,
    fun _ _ => .inr trivial, fun _ _ => .inr trivial⟩

variable {α : Type} [Scalar α] (settings : Settings) (now : α)

theorem built_trackerName (hnoted : AtHand known allowed "d.custom=memo_alias")
    (htrackers : NotedEmpty known String.isEmpty "d.custom=memo_alias" →
      AtHand known allowed Catalogue.trackerCall) :
    Built known allowed (trackerName settings) fun _ => True := by
  apply (built_text hnoted).bind
  intro noted hvalue
  dsimp only
  split
  · next hempty =>
    have h := htrackers fun entry hentry => hvalue entry hentry ▸ hempty
    exact ((built_announceUrls h).map _).bind fun _ _ => built_pure _
  · exact (built_pure _).bind fun _ _ => built_pure _

theorem built_fileKinds (α : Type) [Scalar α] (limit : Nat)
    (hnoted : AtHand known allowed "d.custom=kind")
    (hsizes : NotedEmpty known (fun t => (trim t.toList).isEmpty) "d.custom=kind" →
      AtHand known allowed Catalogue.fileSizesCall) :
    Built known allowed (fileKinds α limit) fun _ => True := by
  apply (built_text hnoted).bind
  intro noted hvalue
  dsimp only
  split
  · next hempty =>
    have h := hsizes fun entry hentry => hvalue entry hentry ▸ hempty
    exact ((built_fileSizes h).map _).bind fun _ _ => built_pure _
  · exact (built_pure _).bind fun _ _ => built_pure _

theorem built_dataPath (hdirectory : AtHand known allowed "d.directory=")
    (hmulti : AtHand known allowed "d.is_multi_file=") (hname : AtHand known allowed "d.name=") :
    Built known allowed dataPath fun _ => True := by
  apply (built_text hdirectory).bind
  intro directory _
  apply (built_flag hmulti).bind
  intro multi _
  split
  · exact built_pure _
  · exact (built_text hname).bind fun _ _ => built_pure _

theorem built_completion (hsize : AtHand known allowed "d.size_bytes=")
    (hcompleted : AtHand known allowed "d.completed_bytes=") :
    Built known allowed (completion (α := α)) fun _ => True := by
  apply (built_integer hsize).bind
  intro size _
  apply (built_integer hcompleted).bind
  intro completed _
  split <;> exact built_pure _

theorem built_keptTime {method : String} (h : AtHand known allowed (method ++ "=")) :
    Built known allowed (keptTime settings method) fun _ => True := by
  apply (built_canUse settings method).bind
  intro kept _
  split
  · exact built_integer h
  · exact built_pure _

section History

variable (hhistory : AtHand known allowed "d.custom=activations")
  (hcompleted : AtHand known allowed "d.custom=tm_completed")

include hhistory

theorem built_history : Built known allowed (history settings) fun _ => True :=
  (built_canUse settings _).bind fun _ _ => (built_text hhistory).imp fun _ _ => trivial

theorem built_stopTime : Built known allowed (stopTime α) fun _ => True :=
  (built_text hhistory).bind fun _ _ => built_pure _

include hcompleted

theorem built_leechTime (hstarted : AtHand known allowed "d.custom=tm_started") :
    Built known allowed (leechTime settings now) fun _ => True := by
  apply (built_integer hcompleted).bind
  intro completed _
  apply (built_history settings hhistory).bind
  intro told _
  split
  · exact built_pure _
  · exact (built_integer hstarted).bind fun _ _ => built_pure _

theorem built_seedTime (hcomplete : AtHand known allowed "d.complete=") :
    Built known allowed (seedTime settings now) fun _ => True := by
  apply (built_flag hcomplete).bind
  intro complete _
  split
  · apply (built_integer hcompleted).bind
    intro completed _
    exact (built_history settings hhistory).bind fun _ _ => built_pure _
  · exact built_pure _

end History

theorem built_answerFor {f : Field} (h : ∀ call ∈ f.requires, AtHand known allowed call) :
    Built known allowed (answerFor (α := α) f) fun _ => True := by
  unfold answerFor
  split
  · next call hcall =>
    have hfetch := (Built.fetch call (h call (List.mem_of_head? hcall))).adapt ReadError.daemon
    exact hfetch.bind fun _ _ => built_pure _
  · exact .throw _

section Values

variable {name : String} (hs : Supplied known allowed name)

include hs

theorem Supplied.core {f : Field} (hf : Catalogue.core? name = some f) :
    ∀ call ∈ f.requires, AtHand known allowed call :=
  hs.required f (Catalogue.denotes_of_core hf)

theorem built_composed {r : Reading DaemonError (Value α)}
    (h : composed? settings now name = some r) : Built known allowed r fun _ => True := by
  unfold composed? at h
  split at h
  all_goals cases h
  · have hcalls := hs.core rfl
    exact (built_announceUrls (hcalls _ (by decide))).bind fun _ _ => built_pure _
  · have hcalls := hs.core rfl
    exact (built_trackerName settings (hcalls _ (by decide)) (hs.trackers rfl)).bind
      fun _ _ => built_pure _
  · have hcalls := hs.core rfl
    exact (built_dataPath (hcalls _ (by decide)) (hcalls _ (by decide)) (hcalls _ (by decide))).bind
      fun _ _ => built_pure _
  · have hcalls := hs.core rfl
    exact (built_completion (hcalls _ (by decide)) (hcalls _ (by decide))).bind
      fun _ _ => built_pure _
  · have hcalls := hs.core rfl
    exact (built_integer (hcalls _ (by decide))).bind fun _ _ =>
      (built_integer (hcalls _ (by decide))).bind fun _ _ => built_pure _
  · have hcalls := hs.core rfl
    exact (built_keptTime settings (hcalls _ (by decide))).bind fun _ _ => built_pure _
  · have hcalls := hs.core rfl
    exact (built_keptTime settings (hcalls _ (by decide))).bind fun _ _ => built_pure _
  · have hcalls := hs.core rfl
    exact (built_stopTime (hcalls _ (by decide))).bind fun _ _ => built_pure _
  · have hcalls := hs.core rfl
    exact (built_leechTime settings now (hcalls _ (by decide)) (hcalls _ (by decide))
      (hcalls _ (by decide))).bind fun _ _ => built_pure _
  · have hcalls := hs.core rfl
    exact (built_seedTime settings now (hcalls _ (by decide)) (hcalls _ (by decide))
      (hcalls _ (by decide))).bind fun _ _ => built_pure _
  · have hcalls := hs.core rfl
    exact (built_text (hcalls _ (by decide))).bind fun _ _ => built_pure _
  · have hcalls := hs.core rfl
    exact (Built.fetch _ (hcalls _ (by decide))).bind fun _ _ => built_pure _
  · have hcalls := hs.core rfl
    exact (built_fileKinds α 0 (hcalls _ (by decide)) (hs.sizes (.inl rfl))).bind
      fun _ _ => built_pure _

theorem built_familyValue : Built known allowed (familyValue (α := α) name) fun _ => True := by
  unfold familyValue
  split
  · next hlimit =>
    have hstart : (after? "kind_".toList name.toList).isSome = true := by rw [hlimit]; rfl
    split
    · next n _ =>
      have hkinds := built_fileKinds α n (hs.kind hstart) (hs.sizes (.inr hstart))
      exact (hkinds.adapt ReadError.daemon).bind fun _ _ => built_pure _
    · exact .throw _
  · next hkey =>
    have htitle := built_text (hs.title (by rw [hkey]; rfl))
    exact (htitle.adapt ReadError.daemon).bind fun _ _ => built_pure _
  · apply ((Built.resolve name).adapt ReadError.query).bind
    intro f hf
    exact built_answerFor (hs.required f hf)

/-- Reading a field takes no calls but those that are at hand. -/
theorem built_read : Built known allowed (read settings now name) fun _ => True := by
  apply Built.adapt
  unfold value
  split
  · next hcomposed => exact (built_composed settings now hs hcomposed).adapt _
  · next hcore => exact built_answerFor (hs.core hcore)
  · exact built_familyValue hs

end Values

end Item

open Reading

section Fields

variable {known : List (String × Json)} {allowed : String → Prop} {α : Type} [Scalar α]
  {read : String → Reading QueryError (Value α)} {reads : String → Prop}

structure Filter.Reads (reads : String → Prop) (f : Filter α) : Prop where
  field : reads f.field.name
  template : ∀ pieces, f.test = .pattern (.template pieces) →
    ∀ name, .field name ∈ pieces → reads name

theorem Operator.built_apply (op : Operator) {eq gt : Reading QueryError Bool}
    (heq : Built known allowed eq fun _ => True) (hgt : Built known allowed gt fun _ => True) :
    Built known allowed (op.apply eq gt) fun _ => True := by
  cases op with
  | eq => exact heq
  | ne => exact heq.bind fun _ _ => built_pure _
  | gt => exact hgt
  | ge =>
    apply heq.bind
    intro b _
    split
    · exact built_pure _
    · exact hgt
  | le | lt =>
    apply heq.bind
    intro b _
    split
    · exact built_pure _
    · exact hgt.bind fun _ _ => built_pure _

variable (hread : ∀ name, reads name → Built known allowed (read name) fun _ => True)

include hread

theorem Test.built_fillIn {pieces : List Template.Piece}
    (h : ∀ name, .field name ∈ pieces → reads name) :
    Built known allowed (fillIn read pieces) fun _ => True := by
  induction pieces with
  | nil => exact built_pure _
  | cons piece pieces ih =>
    have hrest := ih fun name hname => h name (List.mem_cons_of_mem _ hname)
    cases piece with
    | text s => exact hrest.bind fun _ _ => built_pure _
    | field name =>
      have hname := hread name (h name List.mem_cons_self)
      exact hname.bind fun v _ => hrest.bind fun _ _ => built_pure _

theorem Test.built_equal {test : Test α}
    (h : ∀ pieces, test = .pattern (.template pieces) → ∀ name, .field name ∈ pieces → reads name)
    (v : Value α) : Built known allowed (test.equal read v) fun _ => True := by
  cases test with
  | pattern p =>
    cases p with
    | template pieces => exact (built_fillIn hread (h pieces rfl)).bind fun _ _ => built_pure _
    | _ => exact built_pure _
  | _ => exact built_pure _

theorem Filter.built_eval {f : Filter α} (hf : f.Reads reads) :
    Built known allowed (f.eval read) fun _ => True := by
  obtain ⟨field, operator, effective, value, test⟩ := f
  obtain ⟨hfield, htemplate⟩ := hf
  have hequal := (hread field.name hfield).bind fun v _ => test.built_equal hread htemplate v
  cases test with
  | time | duration =>
    apply (hread field.name hfield).bind
    intro v _
    dsimp only
    split <;> exact built_pure _
  | number | size =>
    exact Operator.built_apply _ hequal ((hread field.name hfield).bind fun v _ => built_pure _)
  | flag | tags | pattern | files =>
    exact Operator.built_apply _ hequal (.throw _)

omit hread

namespace Matcher

mutual

theorem built_eval (hread : ∀ name, reads name → Built known allowed (read name) fun _ => True) :
    (m : Matcher α) → (∀ f ∈ m.filters, f.Reads reads) →
      Built known allowed (m.eval read) fun _ => True
  | .leaf f, h => by
    simp only [eval]
    exact Filter.built_eval hread (h f (List.mem_singleton_self f))
  | .all ms, h => by
    simp only [eval]
    exact built_evalAll hread ms h
  | .any ms, h => by
    simp only [eval]
    exact built_evalAny hread ms h
  | .group invert m, h => by
    simp only [eval]
    exact (built_eval hread m h).bind fun _ _ => built_pure _

theorem built_evalAll (hread : ∀ name, reads name → Built known allowed (read name) fun _ => True) :
    (ms : List (Matcher α)) → (∀ f ∈ filters.filtersOfAll ms, f.Reads reads) →
      Built known allowed (evalAll read ms) fun _ => True
  | [], _ => by
    simp only [evalAll]
    exact built_pure _
  | m :: ms, h => by
    obtain ⟨hm, hms⟩ := List.forall_mem_append.1 h
    simp only [evalAll]
    apply (built_eval hread m hm).bind
    intro b _
    split
    · exact built_evalAll hread ms hms
    · exact built_pure _

theorem built_evalAny (hread : ∀ name, reads name → Built known allowed (read name) fun _ => True) :
    (ms : List (Matcher α)) → (∀ f ∈ filters.filtersOfAll ms, f.Reads reads) →
      Built known allowed (evalAny read ms) fun _ => True
  | [], _ => by
    simp only [evalAny]
    exact built_pure _
  | m :: ms, h => by
    obtain ⟨hm, hms⟩ := List.forall_mem_append.1 h
    simp only [evalAny]
    apply (built_eval hread m hm).bind
    intro b _
    split
    · exact built_pure _
    · exact built_evalAny hread ms hms

end

end Matcher

include hread

theorem Cli.built_row {names : List String} (h : ∀ name ∈ names, reads name) :
    Built known allowed (row read names) fun _ => True := by
  have hvalues : Built known allowed
      (names.mapM fun name => do return (← read name).render) fun _ => True := by
    induction names with
    | nil => exact built_pure _
    | cons name names ih =>
      rw [List.forall_mem_cons] at h
      rw [List.mapM_cons]
      have hname := (hread name h.1).bind fun v _ => built_pure v.render
      exact hname.bind fun _ _ => (ih h.2).bind fun _ _ => built_pure _
  exact hvalues.bind fun _ _ => built_pure _

end Fields

end TorrentQuery
