import Mathlib.Data.List.Basic
import TorrentQuery.Rpc.Client
import TorrentQuery.Rpc.Frame

namespace TorrentQuery.Rpc

open Number

open Frame (Bytes bytesOf)

theorem collapse_ne_null {j : Json} (h : j ≠ .null) : j.collapse ≠ .null := by
  cases j with
  | null => exact absurd rfl h
  | _ => simp [Json.collapse]

theorem member?_ne_null {key : String} {members : List (String × Json)} {j : Json}
    (h : member? key members = some (some j)) : j ≠ .null := by
  unfold member? at h
  split at h
  · cases h
  · cases h
  · next hnull _ =>
    cases h
    exact hnull
  · cases h

theorem optional_ne_null {j j' : Json} (h : optional j = some j') : j' ≠ .null := by
  unfold optional at h
  split at h
  · cases h
  · next hnull =>
    cases h
    exact hnull

namespace Response

/-- The response is for the call of a number, and it has a result and no error. -/
structure Answers (r : Response) (id : Nat) (j : Json) : Prop where
  number : r.number? = some id
  error : r.error = none
  result : r.result = some j
  ne_null : j ≠ .null

/-- The text that a response has as its result. -/
def text? (r : Response) : Option String :=
  match r.result with
  | some (.str s) => some s
  | _ => none

theorem answers_of_text {r : Response} {k : Nat} {s : String}
    (h : (r.number?, r.text?, r.error.isNone) = (some k, some s, true)) : r.Answers k (.str s) := by
  simp only [Prod.mk.injEq, Option.isNone_iff_eq_none] at h
  obtain ⟨hnumber, htext, herror⟩ := h
  unfold text? at htext
  split at htext
  · next hresult =>
    cases htext
    exact ⟨hnumber, herror, hresult, Json.noConfusion⟩
  · cases htext

theorem ofParts?_result {id result error : Option Json} {r : Response}
    (h : ofParts? id result error = some r) : r.result = result.map Json.collapse := by
  unfold ofParts? at h
  cases error with
  | none =>
    cases h
    rfl
  | some e =>
    obtain ⟨e', -, h⟩ := Option.bind_eq_some_iff.1 h
    cases h
    rfl

theorem result_ne_null {j : Json} {r : Response} (h : ofJson? j = some r) :
    r.result ≠ some .null := by
  have hparts {id result error : Option Json} (h : ofParts? id result error = some r)
      (hresult : ∀ j', result = some j' → j' ≠ .null) : r.result ≠ some .null := by
    rw [ofParts?_result h, ne_eq, Option.map_eq_some_iff]
    rintro ⟨j', hj', hnull⟩
    exact collapse_ne_null (hresult j' hj') hnull
  unfold ofJson? at h
  split at h
  · obtain ⟨id, -, h⟩ := Option.bind_eq_some_iff.1 h
    obtain ⟨result, hresult, h⟩ := Option.bind_eq_some_iff.1 h
    obtain ⟨error, -, h⟩ := Option.bind_eq_some_iff.1 h
    apply hparts h
    rintro j' rfl
    exact member?_ne_null hresult
  · exact hparts h fun j' => optional_ne_null
  · cases h

theorem result_ne_null_of_mapM {items : List Json} {rs : List Response}
    (h : items.mapM ofJson? = some rs) : ∀ r ∈ rs, r.result ≠ some .null := by
  induction items generalizing rs with
  | nil =>
    cases h
    exact List.forall_mem_nil _
  | cons j items ih =>
    rw [List.mapM_cons] at h
    obtain ⟨first, hfirst, h⟩ := Option.bind_eq_some_iff.1 h
    obtain ⟨others, hothers, h⟩ := Option.bind_eq_some_iff.1 h
    cases h
    exact List.forall_mem_cons.2 ⟨result_ne_null hfirst, ih hothers⟩

end Response

theorem results_ne_null {bytes : Bytes} {rs : List Response} (h : Response.readAll? bytes = some rs) :
    ∀ r ∈ rs, r.result ≠ some .null := by
  unfold Response.readAll? at h
  split at h
  · exact Response.result_ne_null_of_mapM h
  · cases h

section Single

variable {id : Nat} {method : String} {bytes : Bytes} {r : Response} {j : Json}

theorem answer_eq_ok_iff :
    answer id method r = .ok j ↔ r.number? = some id ∧ r.error = none ∧ r.result = some j := by
  unfold answer
  by_cases hid : r.number? = some id
  · rw [if_neg (by simp [hid])]
    cases r.error <;> cases r.result <;> simp [hid]
  · rw [if_pos (by simp [hid])]
    simp [hid]

theorem readAnswer_eq_ok_iff :
    readAnswer id method bytes = .ok j ↔ ∃ r, Response.read? bytes = some r ∧ r.Answers id j := by
  rw [readAnswer]
  cases hread : Response.read? bytes with
  | none => simp
  | some r =>
    obtain ⟨j', -, hj'⟩ := Option.bind_eq_some_iff.1 hread
    simp only [answer_eq_ok_iff, Option.some.injEq, exists_eq_left']
    constructor
    · rintro ⟨hnumber, herror, hresult⟩
      refine ⟨hnumber, herror, hresult, ?_⟩
      rintro rfl
      exact Response.result_ne_null hj' hresult
    · intro h
      exact ⟨h.number, h.error, h.result⟩

end Single

section Batch

variable {count : Nat} {rs : List Response} {results : List Json}

/-- The first of the responses is for the call at this place. -/
theorem collect_cons {r : Response} {place : Nat} :
    collect place (r :: rs) = .ok (results, []) ↔ ∃ j rest, results = j :: rest ∧
      (r.number? = some place ∧ r.error = none ∧ r.result = some j) ∧
      collect (place + 1) rs = .ok (rest, []) := by
  rw [collect]
  generalize collect (place + 1) rs = later
  by_cases hplace : r.number? = some place
  · rw [if_neg (by simp [hplace])]
    cases r.error with
    | some e => cases later <;> simp [bind, Except.bind]
    | none =>
      cases r.result with
      | none => simp
      | some j =>
        cases later with
        | error e => simp [bind, Except.bind]
        | ok p => simp [bind, Except.bind, hplace, Prod.ext_iff, eq_comm]
  · rw [if_pos (by simp [hplace])]
    simp [hplace]

theorem collect_eq_ok_iff {place : Nat} : collect place rs = .ok (results, []) ↔
    rs.map Response.number? = (List.range' place rs.length).map some ∧
      (∀ r ∈ rs, r.error = none) ∧ rs.map Response.result = results.map some := by
  induction rs generalizing place results with
  | nil => cases results <;> simp [collect]
  | cons r rs ih =>
    rw [collect_cons, List.length_cons, List.range'_succ, List.forall_mem_cons]
    simp only [ih, List.map_cons, List.cons.injEq]
    constructor
    · rintro ⟨j, rest, rfl, ⟨hnumber, herror, hresult⟩, hnumbers, herrors, hresults⟩
      exact ⟨⟨hnumber, hnumbers⟩, ⟨herror, herrors⟩, by rw [hresult, hresults]; rfl⟩
    · rintro ⟨⟨hnumber, hnumbers⟩, ⟨herror, herrors⟩, hresults⟩
      cases results with
      | nil => cases hresults
      | cons j rest =>
        obtain ⟨hresult, hrest⟩ := List.cons.inj hresults
        exact ⟨j, rest, rfl, ⟨hnumber, herror, hresult⟩, hnumbers, herrors, hrest⟩

theorem answers_eq_ok_iff : answers count rs = .ok results ↔
    rs.length = count ∧ collect 0 (rs.mergeSort comesBefore) = .ok (results, []) := by
  unfold answers
  by_cases hcount : rs.length = count
  · rw [if_neg (by simp [hcount])]
    cases collect 0 (rs.mergeSort comesBefore) with
    | error e => simp [bind, Except.bind]
    | ok p =>
      obtain ⟨found, faults⟩ := p
      cases faults with
      | nil => simp [bind, Except.bind, hcount]
      | cons e es => cases es <;> simp [bind, Except.bind]
  · rw [if_pos (by simp [hcount])]
    simp [hcount]

theorem comesBefore_trans (a b c : Response) (hab : comesBefore a b = true)
    (hbc : comesBefore b c = true) : comesBefore a c = true := by
  simp only [comesBefore, decide_eq_true_eq] at *
  omega

theorem comesBefore_total (a b : Response) : (comesBefore a b || comesBefore b a) = true := by
  simp only [comesBefore, Bool.or_eq_true, decide_eq_true_eq]
  omega

/-- Responses with the numbers of all calls are put into the order of the calls. -/
theorem numbers_sorted (h : (rs.map Response.number?).Perm ((List.range count).map some)) :
    (rs.mergeSort comesBefore).map Response.number? = (List.range count).map some := by
  let key (r : Response) : Nat := r.number?.getD maxUInt64
  have hperm : ((rs.mergeSort comesBefore).map Response.number?).Perm
      ((List.range count).map some) := ((List.mergeSort_perm rs comesBefore).map _).trans h
  have hsorted : ((rs.mergeSort comesBefore).map key).Pairwise (· ≤ ·) := by
    rw [List.pairwise_map]
    apply (List.pairwise_mergeSort comesBefore_trans comesBefore_total rs).imp
    intro a b h
    exact of_decide_eq_true h
  -- both lists of keys ascend, so they are the same list
  have hkeys : (rs.mergeSort comesBefore).map key = List.range count := by
    have hkeysPerm := hperm.map (·.getD maxUInt64)
    rw [List.map_map, List.map_map] at hkeysPerm
    have hrange : (List.range count).map ((·.getD maxUInt64) ∘ some) = List.range count :=
      List.map_id _
    rw [hrange] at hkeysPerm
    have hascending : (List.range count).Pairwise (· ≤ ·) :=
      List.pairwise_lt_range.imp fun h => Nat.le_of_lt h
    exact hkeysPerm.eq_of_pairwise (fun _ _ _ _ => Nat.le_antisymm) hsorted hascending
  rw [← hkeys, List.map_map]
  apply List.map_congr_left
  intro r hr
  have hmem := hperm.subset (List.mem_map_of_mem (f := Response.number?) hr)
  obtain ⟨i, -, hi⟩ := List.mem_map.1 hmem
  show r.number? = some (r.number?.getD maxUInt64)
  rw [← hi]
  rfl

/-- There is exactly one response for each call, and each of them has a result. -/
structure Complete (count : Nat) (rs : List Response) : Prop where
  numbers : (rs.map Response.number?).Perm ((List.range count).map some)
  answered : ∀ r ∈ rs, ∃ id j, r.Answers id j

theorem number_range {r : Response} (hr : r ∈ rs)
    (h : rs.map Response.number? = (List.range count).map some) : ∃ id, r.number? = some id := by
  have hmem : r.number? ∈ (List.range count).map some := h ▸ List.mem_map_of_mem hr
  obtain ⟨id, -, hid⟩ := List.mem_map.1 hmem
  exact ⟨id, hid.symm⟩

/-- What an answered batch says about its responses in the order of the calls. -/
theorem sorted_of_answers (h : answers count rs = .ok results) :
    (rs.mergeSort comesBefore).map Response.number? = (List.range count).map some ∧
      (∀ r ∈ rs, r.error = none) ∧
      (rs.mergeSort comesBefore).map Response.result = results.map some := by
  obtain ⟨hcount, hcollect⟩ := answers_eq_ok_iff.1 h
  obtain ⟨hnumbers, herrors, hresults⟩ := collect_eq_ok_iff.1 hcollect
  rw [List.length_mergeSort, hcount, ← List.range_eq_range'] at hnumbers
  exact ⟨hnumbers, fun r hr => herrors r (List.mem_mergeSort.2 hr), hresults⟩

theorem complete_of_answers (hnull : ∀ r ∈ rs, r.result ≠ some .null)
    (h : answers count rs = .ok results) : Complete count rs := by
  obtain ⟨hnumbers, herrors, hresults⟩ := sorted_of_answers h
  constructor
  · rw [← hnumbers]
    exact ((List.mergeSort_perm rs comesBefore).map _).symm
  · intro r hr
    have hsorted : r ∈ rs.mergeSort comesBefore := List.mem_mergeSort.2 hr
    obtain ⟨id, hid⟩ := number_range hsorted hnumbers
    have hmem : r.result ∈ results.map some := hresults ▸ List.mem_map_of_mem hsorted
    obtain ⟨j, -, hj⟩ := List.mem_map.1 hmem
    refine ⟨id, j, hid, herrors r hr, hj.symm, ?_⟩
    rintro rfl
    exact hnull r hr hj.symm

theorem answers_of_complete (h : Complete count rs) :
    ∃ results, answers count rs = .ok results := by
  have hlength : rs.length = count := by simpa using h.numbers.length_eq
  have hanswered : ∀ r ∈ rs.mergeSort comesBefore, ∃ id j, r.Answers id j := fun r hr =>
    h.answered r (List.mem_mergeSort.1 hr)
  refine ⟨(rs.mergeSort comesBefore).map (·.result.getD .null),
    answers_eq_ok_iff.2 ⟨hlength, collect_eq_ok_iff.2 ⟨?_, ?_, ?_⟩⟩⟩
  · rw [List.length_mergeSort, hlength, ← List.range_eq_range']
    exact numbers_sorted h.numbers
  · intro r hr
    obtain ⟨id, j, hj⟩ := hanswered r hr
    exact hj.error
  · rw [List.map_map]
    apply List.map_congr_left
    intro r hr
    obtain ⟨id, j, hj⟩ := hanswered r hr
    show r.result = some (r.result.getD .null)
    rw [hj.result]
    rfl

/-- Every result stands at the place of its call. -/
theorem getElem?_answers (h : answers count rs = .ok results) {r : Response} (hr : r ∈ rs)
    {id : Nat} {j : Json} (hj : r.Answers id j) : results[id]? = some j := by
  obtain ⟨hnumbers, -, hresults⟩ := sorted_of_answers h
  have hsorted : r ∈ rs.mergeSort comesBefore := List.mem_mergeSort.2 hr
  obtain ⟨place, hplace⟩ := List.mem_iff_getElem?.1 hsorted
  have hnumber := congrArg (·[place]?) hnumbers
  have hresult := congrArg (·[place]?) hresults
  simp only [List.getElem?_map, hplace, Option.map_some, hj.number, hj.result] at hnumber hresult
  -- the number of the response is its place among the sorted ones
  have hid : id = place := by
    obtain ⟨i, hi, hsome⟩ := Option.map_eq_some_iff.1 hnumber.symm
    cases hsome
    obtain ⟨hlt, hrange⟩ := List.getElem?_eq_some_iff.1 hi
    rw [← hrange, List.getElem_range]
  obtain ⟨j', hj', hsome⟩ := Option.map_eq_some_iff.1 hresult.symm
  cases hsome
  rw [hid, hj']

theorem length_results (h : answers count rs = .ok results) : results.length = count := by
  have hlength := congrArg List.length (sorted_of_answers h).1
  have hresults := congrArg List.length (sorted_of_answers h).2.2
  simp only [List.length_map, List.length_range] at hlength hresults
  omega

theorem readAnswers_eq_ok_iff {bytes : Bytes} : readAnswers count bytes = .ok results ↔
    ∃ rs, Response.readAll? bytes = some rs ∧ answers count rs = .ok results := by
  unfold readAnswers
  cases Response.readAll? bytes <;> simp

end Batch

theorem batchItems_eq (rs : List Request) (id : Nat) :
    batchItems id rs = rs.mapIdx fun i r => requestToJson (id + i) r := by
  induction rs generalizing id with
  | nil => rfl
  | cons r rs ih =>
    rw [batchItems, ih, List.mapIdx_cons]
    simp only [Nat.add_zero, Nat.add_assoc, Nat.add_comm 1]

section Runs

inductive Task where
  | call (r : Request)
  | batch (rs : List Request)

def Task.isCall : Task → Bool
  | .call _ => true
  | .batch _ => false

/-- A wire on which a reply may be anything, whatever has been sent up to it. -/
def wire (reply : List Json → Except DaemonError Bytes) (message : Json) :
    StateM (List Json) (Except DaemonError Bytes) := do
  modify (· ++ [message])
  return reply (← get)

variable (reply : List Json → Except DaemonError Bytes)

/-- What a client makes of a call, with all that has been sent in the end. -/
def callOn (r : Request) (state : Client × List Json) : Answer × Client × List Json :=
  let ((answer, client), sent) := ((Client.call (wire reply) r).run state.1).run state.2
  (answer, client, sent)

def batchOn (rs : List Request) (state : Client × List Json) : Answers × Client × List Json :=
  let ((answers, client), sent) := ((Client.batch (wire reply) rs).run state.1).run state.2
  (answers, client, sent)

def Task.perform (state : Client × List Json) : Task → Client × List Json
  | .call r => (callOn reply r state).2
  | .batch rs => (batchOn reply rs state).2

def afterTasks (tasks : List Task) : Client × List Json := tasks.foldl (Task.perform reply) ({}, [])

theorem callOn_eq (r : Request) (client : Client) (sent : List Json) :
    let message := requestToJson client.nextId r
    callOn reply r (client, sent) =
      ((reply (sent ++ [message])).bind (readAnswer client.nextId r.method), ⟨client.nextId + 1⟩,
        sent ++ [message]) := rfl

theorem batchOn_eq {rs : List Request} (hrs : rs ≠ []) (client : Client) (sent : List Json) :
    let message := Json.arr (rs.mapIdx requestToJson)
    batchOn reply rs (client, sent) =
      ((reply (sent ++ [message])).bind (readAnswers rs.length), client, sent ++ [message]) := by
  have hmessage : batchToJson rs = .arr (rs.mapIdx requestToJson) := by
    rw [batchToJson, batchItems_eq]
    simp only [Nat.zero_add]
  cases rs with
  | nil => exact absurd rfl hrs
  | cons r rs =>
    rw [← hmessage]
    rfl

theorem bind_readAnswer_eq_ok_iff {replied : Except DaemonError Bytes} {id : Nat} {method : String}
    {j : Json} : replied.bind (readAnswer id method) = .ok j ↔ ∃ bytes response,
      replied = .ok bytes ∧ Response.read? bytes = some response ∧ response.Answers id j := by
  cases replied with
  | error e => simp [Except.bind]
  | ok bytes => simp [Except.bind, readAnswer_eq_ok_iff]

theorem bind_readAnswers_eq_ok_iff {replied : Except DaemonError Bytes} {count : Nat}
    {results : List Json} : replied.bind (readAnswers count) = .ok results ↔ ∃ bytes responses,
      replied = .ok bytes ∧ Response.readAll? bytes = some responses ∧
        answers count responses = .ok results := by
  cases replied with
  | error e => simp [Except.bind]
  | ok bytes => simp [Except.bind, readAnswers_eq_ok_iff]

theorem nextId_perform (task : Task) (client : Client) (sent : List Json) :
    (task.perform reply (client, sent)).1.nextId =
      client.nextId + if task.isCall then 1 else 0 := by
  cases task with
  | call r => rfl
  | batch rs =>
    cases rs with
    | nil => rfl
    | cons r rs => rfl

/-- Calls are counted, whatever becomes of them. -/
theorem nextId_afterTasks (tasks : List Task) :
    (afterTasks reply tasks).1.nextId = tasks.countP Task.isCall + 1 := by
  have hfrom (client : Client) (sent : List Json) :
      (tasks.foldl (Task.perform reply) (client, sent)).1.nextId =
        client.nextId + tasks.countP Task.isCall := by
    induction tasks generalizing client sent with
    | nil => rfl
    | cons task tasks ih =>
      rw [List.foldl_cons, ih, nextId_perform, List.countP_cons]
      omega
  rw [afterTasks, hfrom, Nat.add_comm]

/-- Whatever was asked before and whatever was replied, the next call has the number of calls so
far as its own, and its answer is the result of a response with that number and no other. The calls
of a batch are numbered by their places; the batch is answered just where there is one response with
a result for each place, and then the results stand in the order of the calls. -/
theorem results_are_for_their_calls (tasks : List Task) :
    let state := afterTasks reply tasks
    let k := tasks.countP Task.isCall + 1
    (∀ r : Request,
      let message := requestToJson k r
      message.get? "id" = some (.int k) ∧
      (callOn reply r state).2 = (⟨k + 1⟩, state.2 ++ [message]) ∧
      ∀ j, (callOn reply r state).1 = .ok j ↔ ∃ bytes response,
        reply (state.2 ++ [message]) = .ok bytes ∧ Response.read? bytes = some response ∧
          response.Answers k j) ∧
    ∀ rs : List Request, rs ≠ [] →
      let message := Json.arr (rs.mapIdx requestToJson)
      (batchOn reply rs state).2 = (state.1, state.2 ++ [message]) ∧
      ((∃ results, (batchOn reply rs state).1 = .ok results) ↔ ∃ bytes responses,
        reply (state.2 ++ [message]) = .ok bytes ∧ Response.readAll? bytes = some responses ∧
          Complete rs.length responses) ∧
      ∀ results bytes responses, (batchOn reply rs state).1 = .ok results →
        reply (state.2 ++ [message]) = .ok bytes → Response.readAll? bytes = some responses →
        results.length = rs.length ∧
          ∀ response ∈ responses, ∀ id j, response.Answers id j → results[id]? = some j := by
  intro state k
  have hk : state.1.nextId = k := nextId_afterTasks reply tasks
  constructor
  · intro r message
    have hcall := callOn_eq reply r state.1 state.2
    rw [hk] at hcall
    change callOn reply r state = _ at hcall
    rw [hcall]
    exact ⟨rfl, rfl, fun j => bind_readAnswer_eq_ok_iff⟩
  · intro rs hrs message
    have hbatch : batchOn reply rs state = _ := batchOn_eq reply hrs state.1 state.2
    rw [hbatch]
    refine ⟨rfl, ?_, ?_⟩
    · constructor
      · rintro ⟨results, hresults⟩
        obtain ⟨bytes, responses, hbytes, hresponses, h⟩ := bind_readAnswers_eq_ok_iff.1 hresults
        exact ⟨bytes, responses, hbytes, hresponses,
          complete_of_answers (results_ne_null hresponses) h⟩
      · rintro ⟨bytes, responses, hbytes, hresponses, h⟩
        obtain ⟨results, hresults⟩ := answers_of_complete h
        exact ⟨results, bind_readAnswers_eq_ok_iff.2 ⟨bytes, responses, hbytes, hresponses, hresults⟩⟩
    · intro results bytes responses hresults hbytes hresponses
      obtain ⟨bytes', responses', hbytes', hresponses', h⟩ := bind_readAnswers_eq_ok_iff.1 hresults
      rw [hbytes] at hbytes'
      cases hbytes'
      rw [hresponses] at hresponses'
      cases hresponses'
      exact ⟨length_results h, fun response hr id j hj => getElem?_answers h hr hj⟩

/-- After a call that got no reply, two responses come in the wrong order, one with its number as a
text and with members that say nothing. -/
theorem results_are_for_their_calls_reordered :
    let late := "\x7b\"id\":\"1\",\"result\":\"y\",\"at\":1e999,\"by\":[\"\\ud800\"]\x7d"
    let text := "[" ++ late ++ ",\x7b\"id\":0,\"result\":\"x\"\x7d]"
    let reply (sent : List Json) : Except DaemonError Bytes :=
      if sent.length = 1 then .error (.transport .noTime) else .ok (bytesOf text)
    (batchOn reply [⟨"a", []⟩, ⟨"b", []⟩] (afterTasks reply [.call ⟨"c", []⟩])).1 =
      .ok [.str "x", .str "y"] := by
  intro lateText text reply
  have hread : (Response.readAll? (bytesOf text)).map
      (List.map fun r => (r.number?, r.text?, r.error.isNone)) =
        some [(some 1, some "y", true), (some 0, some "x", true)] := by decide +kernel
  obtain ⟨responses, hresponses, htold⟩ := Option.map_eq_some_iff.1 hread
  obtain ⟨late, rest, rfl, hlate, htold⟩ := List.map_eq_cons_iff.1 htold
  obtain ⟨early, rest, rfl, hearly, htold⟩ := List.map_eq_cons_iff.1 htold
  obtain rfl := List.map_eq_nil_iff.1 htold
  have hlate := Response.answers_of_text hlate
  have hearly := Response.answers_of_text hearly
  have hcomplete : Complete 2 [late, early] := by
    constructor
    · rw [List.map_cons, List.map_cons, hlate.number, hearly.number]
      exact List.Perm.swap _ _ _
    · simp only [List.forall_mem_cons]
      exact ⟨⟨1, _, hlate⟩, ⟨0, _, hearly⟩, List.forall_mem_nil _⟩
  obtain ⟨-, hbatch⟩ := results_are_for_their_calls reply [.call ⟨"c", []⟩]
  obtain ⟨-, hiff, hplaced⟩ := hbatch [⟨"a", []⟩, ⟨"b", []⟩] (List.cons_ne_nil _ _)
  obtain ⟨results, hresults⟩ := hiff.2 ⟨_, _, rfl, hresponses, hcomplete⟩
  obtain ⟨hlength, hplaced⟩ := hplaced results _ _ hresults rfl hresponses
  obtain ⟨first, second, rfl⟩ := List.length_eq_two.1 hlength
  have hfirst := hplaced early (by simp) 0 _ hearly
  have hsecond := hplaced late (by simp) 1 _ hlate
  cases hfirst
  cases hsecond
  exact hresults

end Runs

end TorrentQuery.Rpc
