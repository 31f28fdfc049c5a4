import TorrentQuery.Daemon.Snapshot
import TorrentQuery.Proofs.Daemon.Readable
import TorrentQuery.Proofs.Text.Split
import TorrentQuery.Proofs.Torrent.Selection

namespace TorrentQuery

open Number Text

theorem Call.joinWith_split {call : String} (h : '=' ∈ call.toList) :
    (split call).1 ++ "=" ++ joinWith "," (split call).2 = call := by
  obtain ⟨method, rest, hcall, hmethod⟩ := List.eq_append_cons_of_mem h
  have hsplit : split call = (String.ofList method,
      if rest = [] then [] else (splitWhere (· == ',') rest).map String.ofList) := by
    unfold split
    rw [hcall, splitOnce_append hmethod]
    cases rest <;> rfl
  rw [hsplit, ← String.toList_inj, String.toList_append, String.toList_append, toList_joinWith,
    String.toList_ofList, hcall]
  split
  · next hrest => simp [hrest]
  · simp [Function.comp_def, intercalate_splitWhere]

theorem mapM_of_forall_ok {ε β γ : Type} {f : β → Except ε γ} {g : β → γ} {xs : List β}
    (h : ∀ x ∈ xs, f x = .ok (g x)) : xs.mapM f = .ok (xs.map g) := by
  induction xs with
  | nil => rfl
  | cons x xs ih =>
    obtain ⟨hx, hxs⟩ := List.forall_mem_cons.1 h
    rw [List.mapM_cons, hx, ih hxs]
    rfl

namespace Snapshot

variable {d : Snapshot} {calls : List String} {item : List (String × Json)}
  {hash call : String}

/-- The answer to a method is not fixed. -/
def Untouched (d : Snapshot) (method : String) : Prop :=
  find? method d.faults = none ∧ find? method d.replies = none

def listings : List String := ["system.listMethods", "d.multicall2", "d.multicall.filtered"]

/-- The items alone tell what some calls and lists of the items come to. -/
structure Tells (d : Snapshot) (calls : List String) : Prop where
  told : ∀ item ∈ d.items, ∃ hash, find? "d.hash=" item = some (.str hash)
  distinct : ∀ a ∈ d.items, ∀ b ∈ d.items, find? "d.hash=" a = find? "d.hash=" b → a = b
  lists : ∀ method ∈ listings, d.Untouched method
  single : ∀ call ∈ calls, '=' ∈ call.toList ∧ d.Untouched (Call.split call).1 ∧
    (Call.split call).1 ∉ listings

def hashOf (item : List (String × Json)) : String := textOf (itemAnswer item "d.hash=")

theorem hasHash_iff : hasHash hash item = true ↔ find? "d.hash=" item = some (.str hash) := by
  unfold hasHash
  split
  · next h heq => simp [heq]
  · next hno => simpa using hno hash

theorem find?_hash (hd : d.Tells calls) (hitem : item ∈ d.items) :
    find? "d.hash=" item = some (.str (hashOf item)) := by
  obtain ⟨hash, hhash⟩ := hd.told item hitem
  rw [hashOf, itemAnswer, hhash]
  rfl

theorem find?_hasHash (hd : d.Tells calls) (hitem : item ∈ d.items) :
    d.items.find? (hasHash (hashOf item)) = some item := by
  have hhash := find?_hash hd hitem
  cases hfind : d.items.find? (hasHash (hashOf item)) with
  | none => exact absurd (hasHash_iff.2 hhash) (List.find?_eq_none.1 hfind item hitem)
  | some other =>
    have hother := hasHash_iff.1 (List.find?_some hfind)
    rw [hd.distinct other (List.mem_of_find?_eq_some hfind) item hitem (hother.trans hhash.symm)]

theorem answer_request (hd : d.Tells calls) (hcall : call ∈ calls) (hitem : item ∈ d.items) :
    d.answer (Call.request (hashOf item) call) = .ok (itemAnswer item call) := by
  obtain ⟨hequals, ⟨hfault, hreply⟩, hlisting⟩ := hd.single call hcall
  simp only [listings, List.mem_cons, List.not_mem_nil, or_false, not_or] at hlisting
  obtain ⟨hmethods, hall, hfiltered⟩ := hlisting
  have hsingle : d.answer (Call.request (hashOf item) call) =
      d.itemReply (Call.split call).1 (.str (hashOf item) :: (Call.split call).2.map .str) := by
    simp only [answer, Call.request, hfault, hreply]
  have htexts (args : List String) : (args.map Json.str).map textOf = args := by
    simp [Function.comp_def, textOf]
  rw [hsingle, itemReply]
  simp only [List.head?_cons, Option.map_some, Option.getD_some, textOf, List.drop_succ_cons,
    List.drop_zero, htexts, Call.joinWith_split hequals, find?_hasHash hd hitem]

theorem mapM_rowOf (hd : d.Tells calls) :
    (d.items.map hashOf).mapM (Selection.rowOf d.answer calls) =
      .ok (d.items.map fun item => .arr (calls.map (itemAnswer item))) := by
  rw [List.mapM_map]
  apply mapM_of_forall_ok
  intro item hitem
  have hcells : calls.mapM (fun call => d.answer (Call.request (hashOf item) call)) = .ok _ :=
    mapM_of_forall_ok fun call hcall => answer_request hd hcall hitem
  rw [Function.comp, Selection.rowOf, hcells]
  rfl

/-- Rows of a view hold the answers that calls about single items get. -/
theorem answer_list (hd : d.Tells calls) (view : String) (condition : Option String) :
    d.answer (Selection.request view condition calls) =
      Json.arr <$> (d.items.map hashOf).mapM (Selection.rowOf d.answer calls) := by
  obtain ⟨hfault, hreply⟩ := hd.lists "d.multicall2" (by decide)
  obtain ⟨hfault', hreply'⟩ := hd.lists "d.multicall.filtered" (by decide)
  have htexts (f : String → Json) : (calls.map Json.str).map (fun call => f (textOf call)) =
      calls.map f := by
    simp [Function.comp_def, textOf]
  have hrows : .ok (d.rows (calls.map .str)) =
      Json.arr <$> (d.items.map hashOf).mapM (Selection.rowOf d.answer calls) := by
    rw [mapM_rowOf hd, rows]
    simp only [htexts]
    rfl
  cases condition with
  | none => simpa [answer, Selection.request, hfault, hreply] using hrows
  | some c => simpa [answer, Selection.request, hfault', hreply'] using hrows

/-- Whatever is sent of a filter, what is selected in a snapshot are the items on which it holds, in
their order. -/
theorem settled_items_of_snapshot {α : Type} [Scalar α] {settings : Settings} {now : α} {m : Matcher α}
    {view : String} {prefetch : List String} {batch : List Request → Answers}
    (hd : d.Tells (Selection.callsFor prefetch)) (hview : Call.hashOfView? view = none)
    (hprobe : settings.safetyChecks = true → (Session.methodsOf? d.answer).isSome = true) :
    Settled (Session.runner d.answer batch)
      (List.map Item.hash <$> Selection.items settings now view (some m) prefetch)
      (Selection.selected? (fun hash =>
        (Selection.verdict d.answer batch settings now m hash).toOption) (d.items.map hashOf)) := by
  have hsends : Selection.SendsFor d.answer batch settings.level m (Selection.preFilter settings m) :=
    Selection.sendsFor_preFilter hprobe
  obtain ⟨condition, hcondition, -⟩ := hsends
  have hlist := answer_list hd view condition
  have hhash : ∀ hash ∈ d.items.map hashOf,
      d.answer (Call.request hash "d.hash=") = .ok (.str hash) := by
    intro hash hmem
    obtain ⟨item, hitem, rfl⟩ := List.mem_map.1 hmem
    rw [answer_request hd (Selection.hash_mem_callsFor prefetch) hitem, itemAnswer,
      find?_hash hd hitem, Option.getD_some]
  have hitems : Settled (Session.runner d.answer batch)
      (List.map Item.hash <$> Selection.items settings now view (some m) prefetch) _ :=
    Selection.settled_items hview hcondition hlist hhash
  rwa [mapM_rowOf hd] at hitems

example : Tells { items := [[("d.hash=", .str "A")], [("d.hash=", .str "B"), ("d.name=", .str "x")]] }
    ["d.hash=", "d.name="] where
  told := by simp [find?]
  distinct := by simp [find?]
  lists := by simp [Untouched, find?]
  single := by
    rw [List.forall_mem_cons, List.forall_mem_singleton]
    exact ⟨⟨by decide, ⟨rfl, rfl⟩, by decide⟩, ⟨by decide, ⟨rfl, rfl⟩, by decide⟩⟩

end Snapshot

end TorrentQuery
