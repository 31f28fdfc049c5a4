import TorrentQuery.Proofs.Text.Split
import TorrentQuery.Text.Case

namespace TorrentQuery.Text

/-- The first part starts the text, and the others stand somewhere in it. -/
theorem splitWhere_infix {p : Char → Bool} (s : List Char) :
    ∃ w ws, splitWhere p s = w :: ws ∧ w <+: s ∧ ∀ v ∈ ws, v <:+: s := by
  induction s with
  | nil => exact ⟨[], [], rfl, List.prefix_rfl, by simp⟩
  | cons c r ih =>
    obtain ⟨w, ws, hr, hw, hws⟩ := ih
    by_cases hc : p c = true
    · refine ⟨[], w :: ws, by simp [splitWhere, hc, hr], List.nil_prefix, ?_⟩
      intro v hv
      rcases List.mem_cons.1 hv with rfl | hv
      · exact List.infix_cons hw.isInfix
      · exact List.infix_cons (hws v hv)
    · refine ⟨c :: w, ws, by simp [splitWhere, hc, hr], List.cons_prefix_cons.2 ⟨rfl, hw⟩, ?_⟩
      intro v hv
      exact List.infix_cons (hws v hv)

theorem infix_of_mem_words {s w : List Char} (h : w ∈ words s) : w <:+: s := by
  obtain ⟨v, vs, hs, hv, hvs⟩ := splitWhere_infix (p := isBlank) s
  have hmem := (List.mem_filter.1 h).1
  rw [hs] at hmem
  rcases List.mem_cons.1 hmem with rfl | hmem
  · exact hv.isInfix
  · exact hvs w hmem

theorem toLower_eq_self {c : Char} (h : c.toNat < 65 ∨ 90 < c.toNat) : c.toLower = c := by
  unfold Char.toLower
  rw [dif_neg]
  rintro ⟨hlo, hhi⟩
  have hlo' : 65 ≤ c.toNat := hlo
  have hhi' : c.toNat ≤ 90 := hhi
  omega

theorem toLower_toLower (c : Char) : c.toLower.toLower = c.toLower := by
  by_cases h : c.toNat < 65 ∨ 90 < c.toNat
  · rw [toLower_eq_self h]
    exact toLower_eq_self h
  · have hall : ∀ n : Nat, n < 128 → (Char.ofNat n).toLower.toLower = (Char.ofNat n).toLower := by
      decide
    have hc := hall c.toNat (by omega)
    rwa [Char.ofNat_toNat] at hc

/-- Whether a run leads from characters outside ASCII to letters, no ASCII capitals among them. -/
def CaseRun.reachesLetters (r : CaseRun) : Bool := r.last < 128 || 96 < (r.first : Int) + r.offset

theorem lowerTable_reachesLetters :
    ∀ row ∈ lowerTable, (CaseRun.ofRow row).reachesLetters = true := by
  decide +kernel

theorem lt_of_image? {r : CaseRun} {n m : Nat} (hr : r.reachesLetters = true) (hn : 128 ≤ n)
    (h : r.image? n = some m) : 96 < m := by
  unfold CaseRun.image? at h
  split at h
  · next hc =>
    simp only [Bool.and_eq_true, decide_eq_true_eq] at hc
    simp only [CaseRun.reachesLetters, Bool.or_eq_true, decide_eq_true_eq] at hr
    cases h
    omega
  · cases h

theorem lt_of_mapRuns {n m : Nat} (hn : 128 ≤ n) (h : mapRuns lowerRuns n = some m) : 96 < m := by
  obtain ⟨r, hr, hm⟩ := Option.bind_eq_some_iff.1 h
  have hmem := Array.mem_of_getElem? hr
  simp only [lowerRuns, List.mem_toArray, List.mem_map] at hmem
  obtain ⟨row, hrow, rfl⟩ := hmem
  exact lt_of_image? (lowerTable_reachesLetters row hrow) hn hm

theorem toNat_ofNat (n : Nat) : (Char.ofNat n).toNat = n ∨ (Char.ofNat n).toNat = 0 := by
  by_cases hn : n.isValidChar
  · have hvalid : Char.ofNat n = Char.ofNatAux n hn := dif_pos hn
    rw [hvalid]
    exact Or.inl rfl
  · have hnull : Char.ofNat n = Char.ofNat 0 := dif_neg hn
    rw [hnull]
    exact Or.inr rfl

theorem val_lt_iff {c : Char} : c.val < 128 ↔ c.toNat < 128 := UInt32.lt_iff_toNat_lt

/-- What is lower-cased into ASCII from outside becomes a letter, or nothing at all. -/
theorem lowerChar_of_not_ascii {c : Char} (hc : ¬c.val < 128) :
    lowerChar c = c ∨ 96 < (lowerChar c).toNat ∨ (lowerChar c).toNat = 0 := by
  have hn : 128 ≤ c.toNat := Nat.le_of_not_lt fun hlt => hc (val_lt_iff.2 hlt)
  rw [lowerChar, if_neg hc]
  cases hm : mapRuns lowerRuns c.toNat with
  | none => exact .inl rfl
  | some m =>
    have hlt := lt_of_mapRuns hn hm
    change Char.ofNat m = c ∨ 96 < (Char.ofNat m).toNat ∨ (Char.ofNat m).toNat = 0
    rcases toNat_ofNat m with he | he
    · exact .inr (.inl (he.symm ▸ hlt))
    · exact .inr (.inr he)

/-- Lower case in ASCII is final. -/
theorem lowerChar_lowerChar {c : Char} (h : (lowerChar c).val < 128) :
    lowerChar (lowerChar c) = lowerChar c := by
  rw [lowerChar.eq_1 (lowerChar c), if_pos h]
  by_cases hc : c.val < 128
  · rw [lowerChar, if_pos hc]
    exact toLower_toLower c
  · apply toLower_eq_self
    rcases lowerChar_of_not_ascii hc with he | he | he
    · rw [he] at h
      exact absurd h hc
    · omega
    · omega

/-- A character that is lower-cased by itself. -/
theorem lowerFrom_cons {seen r : List Char} {c : Char} (hs : c ≠ 'Σ') (hi : c ≠ 'İ') :
    lowerFrom seen (c :: r) = lowerChar c :: lowerFrom (c :: seen) r := by
  simp [lowerFrom, hs, hi]

theorem lowerFrom_cons_of_ascii {seen r : List Char} {c : Char} (hc : c.val < 128) :
    lowerFrom seen (c :: r) = c.toLower :: lowerFrom (c :: seen) r := by
  have hs : c ≠ 'Σ' := by
    rintro rfl
    exact absurd hc (by decide)
  have hi : c ≠ 'İ' := by
    rintro rfl
    exact absurd hc (by decide)
  rw [lowerFrom_cons hs hi, lowerChar, if_pos hc]

theorem lower_of_ascii {w : List Char} (h : ∀ c ∈ w, c.val < 128) :
    lower w = w.map Char.toLower := by
  suffices hfrom : ∀ seen, lowerFrom seen w = w.map Char.toLower from hfrom []
  induction w with
  | nil => exact fun _ => rfl
  | cons c w ih =>
    obtain ⟨hc, hw⟩ := List.forall_mem_cons.1 h
    intro seen
    rw [lowerFrom_cons_of_ascii hc, ih hw, List.map_cons]

theorem toLower_ascii {c : Char} (h : c.val < 128) : c.toLower.val < 128 := by
  have hall : ∀ n : Nat, n < 128 → (Char.ofNat n).toLower.val < 128 := by decide
  simpa using hall c.toNat (val_lt_iff.1 h)

theorem lower_ascii {w : List Char} (h : ∀ c ∈ w, c.val < 128) : ∀ c ∈ lower w, c.val < 128 := by
  rw [lower_of_ascii h]
  intro c hc
  obtain ⟨d, hd, rfl⟩ := List.mem_map.1 hc
  exact toLower_ascii (h d hd)

theorem lowerFrom_append_of_ascii {seen w : List Char}
    (h : ∀ c ∈ lowerFrom seen w, c.val < 128) (seen' r : List Char) :
    lowerFrom seen' (w ++ r) = w.map lowerChar ++ lowerFrom (w.reverse ++ seen') r := by
  induction w generalizing seen seen' with
  | nil => rfl
  | cons c w ih =>
    -- both exceptions have a form outside ASCII
    have hs : c ≠ 'Σ' := by
      rintro rfl
      have hmem : (if casedAhead seen && !casedAhead w then 'ς' else 'σ') ∈
          lowerFrom seen ('Σ' :: w) := by simp [lowerFrom]
      have hlt := h _ hmem
      split at hlt <;> exact absurd hlt (by decide)
    have hi : c ≠ 'İ' := by
      rintro rfl
      have hmem : '\u0307' ∈ lowerFrom seen ('İ' :: w) := by simp [lowerFrom]
      exact absurd (h _ hmem) (by decide)
    rw [lowerFrom_cons hs hi] at h
    rw [List.cons_append, lowerFrom_cons hs hi,
      ih (fun d hd => h d (List.mem_cons_of_mem _ hd)) (c :: seen')]
    simp

theorem lower_eq_map_of_ascii {w : List Char} (h : ∀ c ∈ lower w, c.val < 128) :
    lower w = w.map lowerChar := by
  have hw := lowerFrom_append_of_ascii h [] []
  simpa [lower, lowerFrom] using hw

theorem lower_lower_of_ascii {w : List Char} (h : ∀ c ∈ lower w, c.val < 128) :
    lower (lower w) = lower w := by
  have hmap := lower_eq_map_of_ascii h
  have hfix : ∀ c ∈ w.map lowerChar, lowerChar c = c := by
    intro c hc
    obtain ⟨d, hd, rfl⟩ := List.mem_map.1 hc
    exact lowerChar_lowerChar (h _ (hmap ▸ hc))
  have hself (s : List Char) (hs : ∀ c ∈ s, lowerChar c = c) (ha : ∀ c ∈ s, c.val < 128)
      (seen : List Char) : lowerFrom seen s = s := by
    induction s generalizing seen with
    | nil => rfl
    | cons c r ih =>
      have hc := ha c List.mem_cons_self
      rw [lowerFrom_cons (by rintro rfl; exact absurd hc (by decide))
        (by rintro rfl; exact absurd hc (by decide)), hs c List.mem_cons_self,
        ih (fun d hd => hs d (List.mem_cons_of_mem _ hd))
          (fun d hd => ha d (List.mem_cons_of_mem _ hd))]
  rw [lower, hself (lower w) (hmap ▸ hfix) h]

theorem lowerFrom_suffix (seen a b : List Char) :
    lowerFrom (a.reverse ++ seen) b <:+ lowerFrom seen (a ++ b) := by
  induction a generalizing seen with
  | nil => exact List.suffix_rfl
  | cons c a ih =>
    have hrest : lowerFrom ((c :: a).reverse ++ seen) b <:+ lowerFrom (c :: seen) (a ++ b) := by
      simpa using ih (c :: seen)
    exact hrest.trans (List.suffix_append _ _)

/-- A part that is lower-cased to ASCII is found in its lower-cased text. -/
theorem lower_infix_of_ascii {w s : List Char} (hw : w <:+: s) (h : ∀ c ∈ lower w, c.val < 128) :
    lower w <:+: lower s := by
  obtain ⟨a, b, rfl⟩ := hw
  have hsuffix := (lowerFrom_suffix [] a (w ++ b)).isInfix
  rw [lowerFrom_append_of_ascii h, ← lower_eq_map_of_ascii h] at hsuffix
  rw [List.append_assoc]
  exact (List.prefix_append _ _).isInfix.trans hsuffix

section Variants

/-- Whether a run takes the capitals of ASCII, or valid characters outside of it. -/
def CaseRun.splitsAscii (r : CaseRun) : Bool :=
  (r.first == 65 && r.last == 90 && r.offset == 32) ||
    (128 ≤ r.first && (r.last < 0xD800 || (0xDFFF < r.first && r.last < 0x110000)))

theorem foldTable_splitsAscii :
    ∀ row ∈ foldTable, (CaseRun.ofRow row).splitsAscii = true := by
  decide +kernel

theorem of_source? {r : CaseRun} {n m : Nat} (h : r.source? n = some m) :
    r.first ≤ m ∧ m ≤ r.last ∧ (m : Int) = n - r.offset := by
  unfold CaseRun.source? at h
  extract_lets k at h
  split at h
  · next hk =>
    cases h
    rw [Bool.and_eq_true, decide_eq_true_eq] at hk
    obtain ⟨hpos, himage⟩ := hk
    unfold CaseRun.image? at himage
    split at himage
    · next hc =>
      simp only [Bool.and_eq_true, decide_eq_true_eq] at hc
      exact ⟨hc.1.1, hc.1.2, Int.toNat_of_nonneg hpos⟩
    · cases himage
  · cases h

/-- Among ASCII characters those that differ in case only have the same lower case. -/
theorem toLower_of_mem_caseVariants {c d : Char} (hc : c.val < 128) (hd : d.val < 128)
    (h : c ∈ caseVariants d) : c.toLower = d.toLower := by
  have hfold : foldChar d = d.toLower := if_pos hd
  unfold caseVariants at h
  rw [hfold] at h
  extract_lets f others at h
  rcases List.mem_cons.1 h with rfl | h
  · rfl
  rcases List.mem_cons.1 (List.mem_filter.1 h).1 with rfl | h
  · exact toLower_toLower d
  obtain ⟨r, hr, hsource⟩ := List.mem_filterMap.1 h
  obtain ⟨m, hm, rfl⟩ := Option.map_eq_some_iff.1 hsource
  simp only [foldRuns, List.mem_map] at hr
  obtain ⟨row, hrow, rfl⟩ := hr
  obtain ⟨hfirst, hlast, hoffset⟩ := of_source? hm
  have hsplit := foldTable_splitsAscii row hrow
  simp only [CaseRun.splitsAscii, Bool.or_eq_true, Bool.and_eq_true, beq_iff_eq,
    decide_eq_true_eq] at hsplit
  rcases hsplit with ⟨⟨h65, h90⟩, h32⟩ | ⟨hout, hvalid⟩
  · have hcapital : ∀ m : Nat, m < 91 → 64 < m → (Char.ofNat m).toLower = Char.ofNat (m + 32) := by
      decide
    have hm32 : m + 32 = f.toNat := by omega
    rw [hcapital m (by omega) (by omega), hm32, Char.ofNat_toNat]
  · have hm' : m.isValidChar := by
      unfold Nat.isValidChar
      omega
    have hnat : (Char.ofNat m).toNat = m := by
      rw [Char.ofNat, dif_pos hm']
      rfl
    rw [val_lt_iff, hnat] at hc
    omega

end Variants

end TorrentQuery.Text
