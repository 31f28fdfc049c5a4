import Mathlib.Data.List.Sort
import Mathlib.Tactic.FieldSimp
import Mathlib.Tactic.NormNum
import Mathlib.Tactic.Positivity
import TorrentQuery.Proofs.Number.Exact
import TorrentQuery.Proofs.Text.Split
import TorrentQuery.Proofs.Torrent.Reading

namespace TorrentQuery

open Number Text

namespace FileKinds

def kinds (files : List (String × Int)) : List String := files.map fun f => kindOf f.1

def sizeOf (kind : String) (files : List (String × Int)) : Int :=
  ((files.filter fun f => kindOf f.1 = kind).map Prod.snd).sum

def totalSize (files : List (String × Int)) : Int := (files.map Prod.snd).sum

/-- A larger share is above a smaller one; of equal shares the later kind is above. -/
def Above (a b : Nat × String) : Prop := b.1 < a.1 ∨ b.1 = a.1 ∧ b.2 < a.2

variable {files files' : List (String × Int)} {acc : List (String × Int)} {kind : String}
  {size : Int}

section Sizes

theorem keys_addSize (kind : String) (size : Int) (acc : List (String × Int)) :
    (addSize kind size acc).map Prod.fst =
      if kind ∈ acc.map Prod.fst then acc.map Prod.fst else acc.map Prod.fst ++ [kind] := by
  induction acc with
  | nil => rfl
  | cons entry acc ih =>
    obtain ⟨k, n⟩ := entry
    by_cases hk : k = kind
    · simp [addSize, hk]
    · rw [addSize, if_neg hk, List.map_cons, ih]
      by_cases hmem : kind ∈ acc.map Prod.fst
      · simp [hmem]
      · simp [hmem, Ne.symm hk]

theorem mem_addSize (hnodup : (acc.map Prod.fst).Nodup) {k : String} {n : Int} :
    (k, n) ∈ addSize kind size acc ↔
      if k = kind then (∃ m, (k, m) ∈ acc ∧ n = wrap64 (m + size)) ∨
        k ∉ acc.map Prod.fst ∧ n = wrap64 size
      else (k, n) ∈ acc := by
  induction acc with
  | nil =>
    by_cases hk : k = kind
    · simp [addSize, hk]
    · simp [addSize, hk]
  | cons entry acc ih =>
    obtain ⟨k', m⟩ := entry
    rw [List.map_cons, List.nodup_cons] at hnodup
    by_cases hhere : k' = kind
    · subst hhere
      rw [addSize, if_pos rfl, List.mem_cons, Prod.mk.injEq]
      by_cases hk : k = k'
      · subst hk
        have habsent (x : Int) : (k, x) ∉ acc := fun hx => hnodup.1 (List.mem_map.2 ⟨_, hx, rfl⟩)
        simp [habsent]
      · simp [hk]
    · rw [addSize, if_neg hhere, List.mem_cons, ih hnodup.2]
      by_cases hk : k = kind
      · subst hk
        simp [Ne.symm hhere]
      · simp [hk]

theorem wrap64_sum_addSize (kind : String) (size : Int) (acc : List (String × Int)) :
    wrap64 ((addSize kind size acc).map Prod.snd).sum =
      wrap64 ((acc.map Prod.snd).sum + size) := by
  induction acc with
  | nil =>
    have hsize := wrap64_wrap64_add size 0
    simpa [addSize] using hsize
  | cons entry acc ih =>
    obtain ⟨k, n⟩ := entry
    rw [addSize]
    split
    · simp only [List.map_cons, List.sum_cons]
      rw [wrap64_wrap64_add]
      congr 1
      omega
    · simp only [List.map_cons, List.sum_cons]
      rw [Int.add_comm n, ← wrap64_wrap64_add, ih, wrap64_wrap64_add]
      congr 1
      omega

theorem foldl_wrap64 (sizes : List Int) (n : Int) :
    sizes.foldl (fun total size => wrap64 (total + size)) (wrap64 n) = wrap64 (n + sizes.sum) := by
  induction sizes generalizing n with
  | nil => simp
  | cons size sizes ih =>
    rw [List.foldl_cons, wrap64_wrap64_add, ih, List.sum_cons, Int.add_assoc]

/-- One entry for each kind of the files, with what the size of all its files wraps around to. -/
structure Tallies (acc files : List (String × Int)) : Prop where
  nodup : (acc.map Prod.fst).Nodup
  entries : ∀ kind size, (kind, size) ∈ acc ↔ kind ∈ kinds files ∧ size = wrap64 (sizeOf kind files)
  total : wrap64 (acc.map Prod.snd).sum = wrap64 (totalSize files)

theorem Tallies.mem_keys (h : Tallies acc files) : kind ∈ acc.map Prod.fst ↔ kind ∈ kinds files := by
  constructor
  · intro hkind
    obtain ⟨entry, hentry, rfl⟩ := List.mem_map.1 hkind
    exact ((h.entries _ _).1 hentry).1
  · intro hkind
    exact List.mem_map_of_mem (f := Prod.fst) ((h.entries _ _).2 ⟨hkind, rfl⟩)

theorem sizeOf_of_not_mem (h : kind ∉ kinds files) : sizeOf kind files = 0 := by
  have hnone : files.filter (fun f => kindOf f.1 = kind) = [] := by
    rw [List.filter_eq_nil_iff]
    intro f hf hkind
    exact h (List.mem_map.2 ⟨f, hf, of_decide_eq_true hkind⟩)
  rw [sizeOf, hnone]
  rfl

theorem sizeOf_append (kind : String) (files files' : List (String × Int)) :
    sizeOf kind (files ++ files') = sizeOf kind files + sizeOf kind files' := by
  rw [sizeOf, List.filter_append, List.map_append, List.sum_append]
  rfl

theorem sizeOf_singleton (kind : String) (f : String × Int) :
    sizeOf kind [f] = if kindOf f.1 = kind then f.2 else 0 := by
  by_cases h : kindOf f.1 = kind
  · simp [sizeOf, h]
  · simp [sizeOf, h]

theorem kinds_append (files files' : List (String × Int)) :
    kinds (files ++ files') = kinds files ++ kinds files' := List.map_append

theorem totalSize_append (files files' : List (String × Int)) :
    totalSize (files ++ files') = totalSize files + totalSize files' := by
  rw [totalSize, List.map_append, List.sum_append]
  rfl

theorem sizeOf_nonneg (h : ∀ f ∈ files, 0 ≤ f.2) : 0 ≤ sizeOf kind files := by
  apply List.sum_nonneg
  intro size hsize
  obtain ⟨f, hf, rfl⟩ := List.mem_map.1 hsize
  exact h f (List.mem_of_mem_filter hf)

theorem sizeOf_le_totalSize (h : ∀ f ∈ files, 0 ≤ f.2) : sizeOf kind files ≤ totalSize files := by
  induction files with
  | nil => exact Int.le_refl 0
  | cons f files ih =>
    have hrest := ih fun f' hf' => h f' (List.mem_cons_of_mem f hf')
    have hf := h f List.mem_cons_self
    rw [← List.singleton_append, sizeOf_append, sizeOf_singleton, totalSize_append]
    have hone : totalSize [f] = f.2 := by simp [totalSize]
    rw [hone]
    split <;> omega

/-- One more file. -/
theorem Tallies.step (h : Tallies acc files) (f : String × Int) :
    Tallies (addSize (kindOf f.1) f.2 acc) (files ++ [f]) := by
  constructor
  · rw [keys_addSize]
    by_cases hmem : kindOf f.1 ∈ acc.map Prod.fst
    · rw [if_pos hmem]
      exact h.nodup
    · rw [if_neg hmem, List.nodup_append]
      refine ⟨h.nodup, List.nodup_singleton _, ?_⟩
      rintro k hk k' hk' rfl
      exact hmem (List.mem_singleton.1 hk' ▸ hk)
  · intro kind size
    rw [mem_addSize h.nodup, h.mem_keys, kinds_append, List.mem_append, sizeOf_append,
      sizeOf_singleton]
    simp only [h.entries]
    have hkinds : kind ∈ kinds [f] ↔ kind = kindOf f.1 := List.mem_singleton
    rw [hkinds]
    by_cases hkind : kind = kindOf f.1
    · subst hkind
      rw [if_pos rfl, if_pos rfl]
      by_cases hmem : kindOf f.1 ∈ kinds files
      · simp [hmem, wrap64_wrap64_add]
      · simp [hmem, sizeOf_of_not_mem hmem]
    · rw [if_neg hkind, if_neg (Ne.symm hkind), Int.add_zero]
      simp only [hkind, or_false]
  · rw [wrap64_sum_addSize, ← wrap64_wrap64_add, h.total, wrap64_wrap64_add, totalSize_append]
    simp [totalSize]

theorem tallies_sizes (files : List (String × Int)) : Tallies (sizes files) files := by
  induction files using List.reverseRecOn with
  | nil => exact ⟨List.nodup_nil, by simp [sizes, kinds], rfl⟩
  | append_singleton files f ih =>
    rw [sizes, List.foldl_append]
    exact ih.step f

end Sizes

section Share

variable {total : Int}

theorem percentage_nonneg (hsize : 0 ≤ size) (hle : size ≤ total) :
    (0 : ℚ) ≤ 100 * size / total := by
  have hsize : (0 : ℚ) ≤ size := Int.cast_nonneg hsize
  have htotal : (0 : ℚ) ≤ total := hsize.trans (Int.cast_le.2 hle)
  positivity

theorem percentage_le (hsize : 0 ≤ size) (hle : size ≤ total) :
    (100 * size / total : ℚ) ≤ 100 := by
  have hsize : (0 : ℚ) ≤ size := Int.cast_nonneg hsize
  have hle : (size : ℚ) ≤ total := Int.cast_le.2 hle
  rw [mul_div_assoc]
  exact mul_le_of_le_one_right (by norm_num) (div_le_one_of_le₀ hle (hsize.trans hle))

/-- Rounded to the nearest, but half a percent down. Of no size at all each part makes up nothing. -/
theorem cast_percent (hsize : 0 ≤ size) (hle : size ≤ total) :
    (percent ℚ size total : Int) = ⌊(100 * size / total + 499 / 1000 : ℚ)⌋ := by
  have hlo := percentage_nonneg hsize hle
  have hhi := percentage_le hsize hle
  have hfloor_nonneg : 0 ≤ ⌊(100 * size / total + 499 / 1000 : ℚ)⌋ :=
    Int.floor_nonneg.2 (by linarith)
  have hfloor_le : ⌊(100 * size / total + 499 / 1000 : ℚ)⌋ ≤ 100 := by
    rw [← Int.lt_add_one_iff, Int.floor_lt]
    push_cast
    linarith
  rw [percent]
  split
  · obtain rfl : total = 0 := by omega
    norm_num
  · have hshare : (Scalar.ofInt size * Scalar.ofInt 100 / Scalar.ofInt total +
        Scalar.ofInt 499 / Scalar.ofInt 1000 : ℚ) = 100 * size / total + 499 / 1000 := by
      change ((size : ℚ) * ((100 : Int) : ℚ) / total + ((499 : Int) : ℚ) / ((1000 : Int) : ℚ)) = _
      push_cast
      rw [mul_comm]
    have htrunc : Scalar.trunc64 (100 * size / total + 499 / 1000 : ℚ) =
        ⌊(100 * size / total + 499 / 1000 : ℚ)⌋ := by
      change clamp64 (truncate _) = _
      rw [truncate, if_pos (by linarith), clamp64_of_fits]
      constructor
      · omega
      · simp only [maxInt64]
        omega
    dsimp only
    rw [hshare, htrunc]
    simp only [maxUInt32]
    omega

theorem percent_le (hsize : 0 ≤ size) (hle : size ≤ total) : percent ℚ size total ≤ 100 := by
  have hhi := percentage_le hsize hle
  have hfloor : ⌊(100 * size / total + 499 / 1000 : ℚ)⌋ < 101 := by
    rw [Int.floor_lt]
    push_cast
    linarith
  rw [← cast_percent hsize hle] at hfloor
  omega

theorem percent_mono {size' : Int} (hsize : 0 ≤ size) (h : size ≤ size') (hle : size' ≤ total) :
    percent ℚ size total ≤ percent ℚ size' total := by
  rw [← Int.ofNat_le, cast_percent hsize (h.trans hle), cast_percent (hsize.trans h) hle]
  have htotal : (0 : ℚ) ≤ total := Int.cast_nonneg (hsize.trans (h.trans hle))
  gcongr

theorem percent_self (h : 0 < total) : percent ℚ total total = 100 := by
  have hshare : (100 * total / total : ℚ) = 100 :=
    mul_div_cancel_right₀ 100 (Int.cast_ne_zero.2 h.ne')
  have hcast := cast_percent h.le le_rfl
  rw [hshare] at hcast
  norm_num at hcast
  omega

end Share

section Order

theorem goesBefore_iff {a b : Nat × String} :
    goesBefore a b = true ↔ b.1 < a.1 ∨ a.1 = b.1 ∧ b.2 ≤ a.2 := by
  simp [goesBefore]

theorem goesBefore_trans (a b c : Nat × String) (hab : goesBefore a b = true)
    (hbc : goesBefore b c = true) : goesBefore a c = true := by
  rw [goesBefore_iff] at *
  rcases hab with hab | ⟨hab, hab'⟩ <;> rcases hbc with hbc | ⟨hbc, hbc'⟩
  · exact .inl (hbc.trans hab)
  · exact .inl (hbc ▸ hab)
  · exact .inl (hab ▸ hbc)
  · exact .inr ⟨hab.trans hbc, String.le_trans hbc' hab'⟩

theorem goesBefore_total (a b : Nat × String) : (goesBefore a b || goesBefore b a) = true := by
  rw [Bool.or_eq_true, goesBefore_iff, goesBefore_iff]
  rcases Nat.lt_trichotomy a.1 b.1 with hlt | heq | hlt
  · exact .inr (.inl hlt)
  · rcases String.le_total a.2 b.2 with hle | hle
    · exact .inr (.inr ⟨heq.symm, hle⟩)
    · exact .inl (.inr ⟨heq, hle⟩)
  · exact .inl (.inl hlt)

theorem above_of_goesBefore {a b : Nat × String} (h : goesBefore a b = true) (hne : a.2 ≠ b.2) :
    Above a b := by
  rcases goesBefore_iff.1 h with hlt | ⟨heq, hle⟩
  · exact .inl hlt
  · refine .inr ⟨heq.symm, String.not_le.1 fun hge => hne (String.le_antisymm hge hle)⟩

instance : Std.Irrefl Above where
  irrefl a h := by
    rcases h with h | ⟨-, h⟩
    · exact Nat.lt_irrefl _ h
    · exact String.lt_irrefl _ h

instance : Std.Antisymm Above where
  antisymm a b hab hba := by
    rcases hab with hab | ⟨hab, hab'⟩ <;> rcases hba with hba | ⟨hba, hba'⟩
    · omega
    · omega
    · omega
    · exact absurd (String.lt_trans hab' hba') (String.lt_irrefl _)

end Order

section Histogram

variable {α : Type} [Scalar α]

theorem mem_histogram_iff {share : Nat} :
    (share, kind) ∈ histogram (α := α) files ↔ kind ∈ kinds files ∧
      share = percent α (wrap64 (sizeOf kind files)) (wrap64 (totalSize files)) := by
  have htallies := tallies_sizes files
  have hsum := foldl_wrap64 ((sizes files).map Prod.snd) 0
  rw [Int.zero_add, htallies.total] at hsum
  change List.foldl _ 0 _ = _ at hsum
  rw [histogram]
  dsimp only
  rw [List.mem_mergeSort, hsum, List.mem_map]
  constructor
  · rintro ⟨⟨k, n⟩, hentry, heq⟩
    cases heq
    obtain ⟨hkind, rfl⟩ := (htallies.entries k n).1 hentry
    exact ⟨hkind, rfl⟩
  · rintro ⟨hkind, rfl⟩
    exact ⟨(kind, wrap64 (sizeOf kind files)), (htallies.entries _ _).2 ⟨hkind, rfl⟩, rfl⟩

theorem nodup_kinds_histogram (files : List (String × Int)) :
    ((histogram (α := α) files).map Prod.snd).Nodup := by
  have hsort : (histogram (α := α) files).Perm _ := List.mergeSort_perm _ goesBefore
  have hperm := hsort.map Prod.snd
  rw [List.map_map] at hperm
  exact hperm.nodup_iff.2 (tallies_sizes files).nodup

theorem mem_kinds_histogram :
    kind ∈ (histogram (α := α) files).map Prod.snd ↔ kind ∈ kinds files := by
  constructor
  · intro hkind
    obtain ⟨entry, hentry, rfl⟩ := List.mem_map.1 hkind
    exact (mem_histogram_iff.1 hentry).1
  · intro hkind
    exact List.mem_map_of_mem (f := Prod.snd) (mem_histogram_iff.2 ⟨hkind, rfl⟩)

theorem histogram_descends (files : List (String × Int)) :
    (histogram (α := α) files).Pairwise Above := by
  have hsorted : (histogram (α := α) files).Pairwise fun a b => goesBefore a b = true :=
    List.pairwise_mergeSort goesBefore_trans goesBefore_total _
  have hnodup := List.pairwise_map.1 (nodup_kinds_histogram (α := α) files)
  exact (hsorted.and hnodup).imp fun h => above_of_goesBefore h.1 h.2

/-- Only the kinds that occur and their sizes are told. -/
theorem histogram_congr (hkinds : ∀ kind, kind ∈ kinds files ↔ kind ∈ kinds files')
    (hsizes : ∀ kind, sizeOf kind files = sizeOf kind files')
    (htotal : totalSize files = totalSize files') :
    histogram (α := α) files = histogram (α := α) files' := by
  apply (histogram_descends files).eq_of_mem_iff (histogram_descends files')
  rintro ⟨share, kind⟩
  rw [mem_histogram_iff, mem_histogram_iff, hkinds, hsizes, htotal]

theorem histogram_perm (h : files.Perm files') :
    histogram (α := α) files = histogram (α := α) files' := by
  apply histogram_congr
  · intro kind
    exact (h.map _).mem_iff
  · intro kind
    exact ((h.filter _).map _).sum_eq
  · exact (h.map _).sum_eq

/-- A size may be spread over any number of files of the kind. -/
theorem histogram_spread {before after parts : List (String × Int)} {f : String × Int}
    (hne : parts ≠ []) (hkind : ∀ part ∈ parts, kindOf part.1 = kindOf f.1)
    (hsize : totalSize parts = f.2) :
    histogram (α := α) (before ++ (parts ++ after)) =
      histogram (α := α) (before ++ f :: after) := by
  have hparts : kinds parts = List.replicate parts.length (kindOf f.1) := by
    rw [List.eq_replicate_iff]
    refine ⟨List.length_map _, fun kind hmem => ?_⟩
    obtain ⟨part, hpart, rfl⟩ := List.mem_map.1 hmem
    exact hkind part hpart
  have hlength : parts.length ≠ 0 := fun h => hne (List.length_eq_zero_iff.1 h)
  rw [← List.singleton_append (l := after)]
  apply histogram_congr
  · intro kind
    simp only [kinds_append, List.mem_append, hparts, List.mem_replicate]
    simp [kinds, hlength]
  · intro kind
    simp only [sizeOf_append, sizeOf_singleton]
    by_cases h : kindOf f.1 = kind
    · have hall : parts.filter (fun part => kindOf part.1 = kind) = parts := by
        rw [List.filter_eq_self]
        intro part hpart
        exact decide_eq_true ((hkind part hpart).trans h)
      have hspread : sizeOf kind parts = f.2 := by
        rw [sizeOf, hall]
        exact hsize
      rw [if_pos h, hspread]
    · have hnone : kind ∉ kinds parts := by
        rw [hparts, List.mem_replicate]
        exact fun hmem => h hmem.2.symm
      rw [if_neg h, sizeOf_of_not_mem hnone]
  · simp only [totalSize_append, hsize]
    simp [totalSize]

theorem atLeast_subset {limit limit' : Nat} (h : limit ≤ limit') (shares : List (Nat × String)) :
    atLeast limit' shares ⊆ atLeast limit shares := by
  apply List.map_subset
  intro share hshare
  rw [List.mem_filter, Bool.and_eq_true, decide_eq_true_eq] at *
  exact ⟨hshare.1, hshare.2.1, h.trans hshare.2.2⟩

end Histogram

end FileKinds

namespace Item

open FileKinds

def kindField (limit : Nat) : String := "kind_" ++ toString limit

def fileShares (α : Type) [Scalar α] : Reading DaemonError (List (Nat × String)) := do
  let noted ← text "d.custom=kind"
  if (trim noted.toList).isEmpty then histogram (α := α) <$> fileSizes
  else pure (readHistogram noted)

def kindsAbove (limit : Nat) (shares : List (Nat × String)) : TextSet :=
  .ofList (atLeast limit shares)

theorem fileKinds_eq (α : Type) [Scalar α] (limit : Nat) :
    fileKinds α limit = kindsAbove limit <$> fileShares α := by
  rw [fileShares, map_eq_pure_bind, bind_assoc, fileKinds]
  apply bind_congr
  intro noted
  dsimp only
  rw [← map_eq_pure_bind]
  by_cases hempty : (trim noted.toList).isEmpty = true
  · rw [if_pos hempty, if_pos hempty, ← map_eq_pure_bind]
    rfl
  · rw [if_neg hempty, if_neg hempty]
    rfl

variable {α : Type} [Scalar α] (settings : Settings) (now : α) {limit limit' : Nat}

theorem toList_kindField (limit : Nat) :
    (kindField limit).toList = "kind_".toList ++ Nat.toDigits 10 limit := by
  rw [kindField, String.toList_append]
  exact congrArg _ Nat.toList_repr

/-- No field with a limit has a value that is put together. -/
theorem composed?_of_kind {name : String} (h : "kind_".toList <+: name.toList) :
    composed? settings now name = none := by
  unfold composed?
  split
  all_goals first | exact absurd h (by decide) | rfl

theorem value_kindField (h : limit ≤ maxUInt32) :
    value settings now (kindField limit) = Value.set <$> ofDaemon (fileKinds α limit) := by
  have hstart : "kind_".toList <+: (kindField limit).toList := by
    rw [toList_kindField]
    exact List.prefix_append _ _
  have hcomposed := composed?_of_kind settings now hstart
  have hcore : Catalogue.core? (kindField limit) = none := by
    have hother : ∀ f ∈ Catalogue.coreFields, ¬"kind_".toList <+: f.name.toList := by decide
    rw [Catalogue.core?, List.find?_eq_none]
    intro f hf hname
    exact hother f hf (of_decide_eq_true hname ▸ hstart)
  have hlimit : after? "kind_".toList (kindField limit).toList = some (Nat.toDigits 10 limit) := by
    rw [toList_kindField, after?_append]
  rw [value, hcomposed, hcore]
  dsimp only
  rw [familyValue, hlimit]
  dsimp only
  rw [readNat_toDigits h, map_eq_pure_bind]

/-- All limits are held against the same shares. -/
theorem run_read_kindField {reply : Request → Answer} {batch : List Request → Answers}
    {hash : String} (h : limit ≤ maxUInt32) (x : Item × Session) :
    let r := (runner reply batch hash).run (fileShares α).run x
    (runner reply batch hash).run (read settings now (kindField limit)).run x =
      ((r.1.map fun shares => .set (kindsAbove limit shares)).mapError fun e =>
        .attribute (kindField limit) (ReadError.daemon e).message, r.2) := by
  dsimp only
  rw [read, Runner.run_adapt, value_kindField settings now h, Runner.run_map, ofDaemon,
    Runner.run_adapt, fileKinds_eq, Runner.run_map]
  generalize (runner reply batch hash).run (fileShares α).run x = r
  obtain ⟨shares, t⟩ := r
  cases shares <;> rfl

theorem kindsAbove_subset (h : limit ≤ limit') (shares : List (Nat × String)) :
    (kindsAbove limit' shares).toList ⊆ (kindsAbove limit shares).toList := by
  intro kind hkind
  rw [kindsAbove, TextSet.mem_ofList] at *
  exact atLeast_subset h shares hkind

/-- The set of a larger limit lies in that of a smaller one, which is told whenever it is told. -/
theorem read_kindField_subset {reply : Request → Answer} {batch : List Request → Answers}
    {hash : String} {x : Item × Session} (h : limit ≤ limit') (hmax : limit' ≤ maxUInt32)
    {few : TextSet}
    (hfew : ((runner reply batch hash).run (read settings now (kindField limit')).run x).1 =
      .ok (.set few)) :
    ∃ many, ((runner reply batch hash).run (read settings now (kindField limit)).run x).1 =
      .ok (.set many) ∧ few.toList ⊆ many.toList := by
  rw [run_read_kindField settings now hmax] at hfew
  rw [run_read_kindField settings now (h.trans hmax)]
  cases hshares : ((runner reply batch hash).run (fileShares α).run x).1 with
  | error e =>
    rw [hshares] at hfew
    cases hfew
  | ok shares =>
    rw [hshares] at hfew
    cases hfew
    exact ⟨_, rfl, kindsAbove_subset h shares⟩

end Item

namespace FileKinds

/-- The histogram of some files is the same in whatever order they come, and if one of them is
replaced by several of its kind that are as large together. Each kind that occurs has one entry, and
the entries descend strictly by share and kind. As long as no sum passes 64 bits, an entry has the
share of the size of all files of its kind. So of two fields with limits the one with the higher limit
tells a part of what the other one tells. -/
theorem histogram_told_by_sizes (files : List (String × Int)) (hsizes : ∀ f ∈ files, 0 ≤ f.2)
    {α : Type} [Scalar α] (settings : Settings) (now : α) (reply : Request → Answer)
    (batch : List Request → Answers) (hash : String) (x : Item × Session) :
    (∀ files', files.Perm files' → histogram (α := α) files' = histogram (α := α) files) ∧
    (∀ before f after parts, files = before ++ f :: after → parts ≠ [] →
      (∀ part ∈ parts, kindOf part.1 = kindOf f.1) → totalSize parts = f.2 →
      histogram (α := α) (before ++ (parts ++ after)) = histogram (α := α) files) ∧
    ((histogram (α := α) files).map Prod.snd).Nodup ∧
    (∀ kind, kind ∈ (histogram (α := α) files).map Prod.snd ↔ kind ∈ kinds files) ∧
    (totalSize files ≤ maxInt64 →
      (∀ share kind, (share, kind) ∈ histogram (α := α) files ↔
        kind ∈ kinds files ∧ share = percent α (sizeOf kind files) (totalSize files)) ∧
      ∀ kind, (percent ℚ (sizeOf kind files) (totalSize files) : Int) =
        ⌊(100 * sizeOf kind files / totalSize files + 499 / 1000 : ℚ)⌋) ∧
    (histogram (α := α) files).Pairwise Above ∧
    ∀ limit limit' few, limit ≤ limit' → limit' ≤ maxUInt32 →
      ((Item.runner reply batch hash).run
        (Item.read settings now (Item.kindField limit')).run x).1 = .ok (.set few) →
      ∃ many, ((Item.runner reply batch hash).run
        (Item.read settings now (Item.kindField limit)).run x).1 = .ok (.set many) ∧
          few.toList ⊆ many.toList := by
  refine ⟨fun files' h => (histogram_perm h).symm, ?_, nodup_kinds_histogram files,
    fun kind => mem_kinds_histogram, ?_, histogram_descends files, ?_⟩
  · rintro before f after parts rfl hne hkind hsize
    exact histogram_spread hne hkind hsize
  · intro hmax
    have hnonneg (kind : String) : 0 ≤ sizeOf kind files := sizeOf_nonneg hsizes
    have hle (kind : String) : sizeOf kind files ≤ totalSize files := sizeOf_le_totalSize hsizes
    refine ⟨fun share kind => ?_, fun kind => cast_percent (hnonneg kind) (hle kind)⟩
    have hkind := hnonneg kind
    have hpart := hle kind
    have hsize : Fits64 (sizeOf kind files) := by constructor <;> omega
    have htotal : Fits64 (totalSize files) := by constructor <;> omega
    rw [mem_histogram_iff, wrap64_of_fits hsize, wrap64_of_fits htotal]
  · intro limit limit' few h hmax hfew
    exact Item.read_kindField_subset settings now h hmax hfew

theorem histogram_told_by_sizes_album :
    let files : List (String × Int) := [("a/01.FLAC", 700), ("a/data.r01", 50), ("a/x.rar", 90)]
    let told (limit : Nat) := ((Item.runner (fun _ => .ok .null) (fun _ => .ok []) "A").run
      (Item.read {} (0 : ℚ) (Item.kindField limit)).run
      (⟨"A", [("d.custom=kind", .str "80%_flac 20%_jpg")]⟩, {})).1
    (∀ f ∈ files, 0 ≤ f.2) ∧
    histogram (α := ℚ) [("a/x.rar", 90), ("a/01.FLAC", 700), ("a/data.r01", 50)] =
      histogram (α := ℚ) files ∧
    histogram (α := ℚ) [("a/01.flac", 300), ("a/02.Flac", 400), ("a/data.r01", 50),
      ("a/x.rar", 90)] = histogram (α := ℚ) files ∧
    (17, "rar") ∈ histogram (α := ℚ) files ∧
    ∃ many, told 20 = .ok (.set many) ∧ ["flac"] ⊆ many.toList := by
  intro files told
  have hsizes : ∀ f ∈ files, 0 ≤ f.2 := by decide
  obtain ⟨hperm, hspread, -, -, hentry, -, hlimits⟩ := histogram_told_by_sizes files hsizes {} (0 : ℚ)
    (fun _ => .ok .null) (fun _ => .ok []) "A"
    (⟨"A", [("d.custom=kind", .str "80%_flac 20%_jpg")]⟩, {})
  have hrar : sizeOf "rar" files = 140 ∧ totalSize files = 840 := by decide +kernel
  obtain ⟨hentry, hshare⟩ := hentry (by rw [hrar.2]; decide)
  refine ⟨hsizes, hperm _ (by decide +kernel), ?_, (hentry _ _).2 ⟨by decide +kernel, ?_⟩,
    hlimits 20 50 ⟨["flac"], by decide⟩ (by decide) (by decide) rfl⟩
  · exact hspread [] ("a/01.FLAC", 700) _ [("a/01.flac", 300), ("a/02.Flac", 400)] rfl (by decide)
      (by decide +kernel) rfl
  · have hcast := hshare "rar"
    rw [hrar.1, hrar.2] at hcast ⊢
    norm_num at hcast
    omega

/-- Sizes that pass 64 bits together wrap around, and for a limit past 32 bits no set is told. -/
theorem sums_and_limits_past_range :
    let files : List (String × Int) := [("a.x", 9223372036854775807), ("b.x", 1)]
    let told (limit : Nat) := ((Item.runner (fun _ => .ok .null) (fun _ => .ok []) "A").run
      (Item.read {} (0 : Float) (Item.kindField limit)).run
      (⟨"A", [("d.custom=kind", .str "80%_flac 20%_jpg")]⟩, {})).1
    (∀ f ∈ files, 0 ≤ f.2) ∧ histogram (α := Float) files = [(0, "x")] ∧
    percent ℚ (sizeOf "x" files) (totalSize files) = 100 ∧
    told 4294967295 = .ok (.set (.ofList [])) ∧
    told 4294967296 =
      .error (.attribute "kind_4294967296" "number too large to fit in target type") := by
  intro files told
  have hsum : sizes files = [("x", -9223372036854775808)] := by decide +kernel
  have hx : sizeOf "x" files = totalSize files := by decide +kernel
  refine ⟨by decide, ?_, ?_, rfl, rfl⟩
  · rw [histogram, hsum]
    exact List.mergeSort_singleton _
  · rw [hx]
    exact percent_self (by decide)

end FileKinds

end TorrentQuery
