import Mathlib.Data.List.Nodup
import TorrentQuery.Proofs.Number.Integer
import TorrentQuery.Proofs.Rpc.Framing
import TorrentQuery.Proofs.Text.Blank
import TorrentQuery.Proofs.Text.Split

namespace TorrentQuery.Frame

open Number Text

def headerLine (h : String × String) : String := h.1 ++ ": " ++ h.2

def headText (headers : List (String × String)) : String := joinWith "\r\n" (headers.map headerLine)

def response (headers : List (String × String)) (body : Bytes) : Bytes :=
  bytesOf (headText headers) ++ (delimiter ++ body)

/-- A header that fits into a line, of which its key is the part before the first separator. -/
structure FitsLine (h : String × String) : Prop where
  key_separator : ¬[':', ' '] <:+: h.1.toList
  key_line : '\r' ∉ h.1.toList ∧ '\n' ∉ h.1.toList
  value_line : '\r' ∉ h.2.toList ∧ '\n' ∉ h.2.toList
  /-- The value is not empty and does not end in white space. -/
  value_end : ∃ c, h.2.toList.getLast? = some c ∧ isBlank c = false

theorem bytesOf_append (s t : String) : bytesOf (s ++ t) = bytesOf s ++ bytesOf t := by
  rw [bytesOf_eq, bytesOf_eq, bytesOf_eq, String.toByteArray_append, ByteArray.data_append,
    Array.toList_append]

/-- Bytes within ASCII belong to characters of that code. -/
theorem code_of_mem_utf8EncodeChar {c : Char} {b : UInt8} (hb : b ∈ String.utf8EncodeChar c)
    (h : b.toNat < 128) : c.toNat = b.toNat := by
  have hlt : c.val.toNat < 1114112 := by
    have hvalid := c.valid
    rcases hvalid with hv | hv <;> omega
  unfold String.utf8EncodeChar at hb
  simp only at hb
  split at hb
  · simp only [List.mem_singleton] at hb
    subst hb
    change c.val.toNat = _
    simp only [UInt8.toNat_ofNat'] at h ⊢
    omega
  · split at hb
    · simp only [List.mem_cons, List.not_mem_nil, or_false] at hb
      rcases hb with rfl | rfl <;> simp only [UInt8.toNat_ofNat'] at h <;> omega
    · split at hb
      · simp only [List.mem_cons, List.not_mem_nil, or_false] at hb
        rcases hb with rfl | rfl | rfl <;> simp only [UInt8.toNat_ofNat'] at h <;> omega
      · simp only [List.mem_cons, List.not_mem_nil, or_false] at hb
        rcases hb with rfl | rfl | rfl | rfl <;> simp only [UInt8.toNat_ofNat'] at h <;> omega

theorem not_mem_bytesOf {s : String} {c : Char} (hc : c.toNat < 128) (h : c ∉ s.toList) :
    c.val.toUInt8 ∉ bytesOf s := by
  have hcode : c.val.toUInt8.toNat = c.toNat := by
    change c.toNat % 256 = c.toNat
    omega
  rw [bytesOf_eq_flatMap]
  intro hmem
  obtain ⟨d, hd, hb⟩ := List.mem_flatMap.1 hmem
  have hsame : d.toNat = c.toNat := (code_of_mem_utf8EncodeChar hb (by omega)).trans hcode
  exact h (Char.toNat_inj.1 hsame ▸ hd)

namespace FitsLine

variable {h : String × String}

theorem line (hh : FitsLine h) : '\r' ∉ (headerLine h).toList ∧ '\n' ∉ (headerLine h).toList := by
  simp [headerLine, hh.key_line.1, hh.key_line.2, hh.value_line.1, hh.value_line.2]

theorem trimEnd_line (hh : FitsLine h) : trimEnd (headerLine h).toList = (headerLine h).toList := by
  obtain ⟨c, hc, hblank⟩ := hh.value_end
  obtain ⟨value, hvalue⟩ := List.getLast?_eq_some_iff.1 hc
  simp [headerLine, trimEnd, hvalue, hblank]

theorem splitOnce_line (hh : FitsLine h) :
    splitOnce [':', ' '] (headerLine h).toList = some (h.1.toList, h.2.toList) := by
  have hline : (headerLine h).toList = h.1.toList ++ ([':', ' '] ++ h.2.toList) := by
    simp [headerLine]
  rw [hline]
  apply splitOnce_append_of_not_infix
  intro hsep
  rcases List.infix_concat_iff.1 hsep with hend | hkey
  · obtain ⟨r, hr⟩ := hend
    have hlast := congrArg List.getLast? hr
    simp at hlast
  · exact hh.key_separator hkey

theorem exists_cons (hh : FitsLine h) :
    ∃ b r, bytesOf (headerLine h) = b :: r ∧ b ≠ 13 := by
  have hcr : (13 : UInt8) ∉ bytesOf (headerLine h) := not_mem_bytesOf (c := '\r') (by decide) hh.line.1
  cases hb : bytesOf (headerLine h) with
  | nil =>
    have hcolon : bytesOf ": " = [58, 32] := bytesOf_of_ascii (by decide)
    have hsome := congrArg List.length hb
    simp [headerLine, bytesOf_append, hcolon] at hsome
  | cons b r =>
    refine ⟨b, r, rfl, ?_⟩
    rintro rfl
    exact hcr (hb ▸ List.mem_cons_self)

end FitsLine

/-- A pattern does not begin in bytes that lack its first one. -/
theorem infix_append_of_not_mem {b : UInt8} {s a r : Bytes} (ha : b ∉ a) (h : b :: s <:+: a ++ r) :
    b :: s <:+: r := by
  induction a with
  | nil => exact h
  | cons c a ih =>
    simp only [List.mem_cons, not_or] at ha
    rcases List.infix_cons_iff.1 h with hp | hi
    · exact absurd (List.cons_prefix_cons.1 hp).1 ha.1
    · exact ih ha.2 hi

theorem bytesOf_headText_cons_cons (h k : String × String) (headers : List (String × String)) :
    bytesOf (headText (h :: k :: headers)) =
      bytesOf (headerLine h) ++ 13 :: 10 :: bytesOf (headText (k :: headers)) := by
  have hend : bytesOf "\r\n" = [13, 10] := bytesOf_of_ascii (by decide)
  rw [headText, List.map_cons, List.map_cons, joinWith, String.intercalate_cons_cons,
    bytesOf_append, bytesOf_append, hend]
  simp [headText, joinWith]

section Head

variable {headers : List (String × String)}

theorem headText_singleton (p : String × String) : headText [p] = headerLine p := by
  simp [headText, joinWith]

/-- The first line begins the head, and not with a line end. -/
theorem exists_bytesOf_headText {p : String × String} (hp : FitsLine p)
    (headers : List (String × String)) :
    ∃ b r, bytesOf (headText (p :: headers)) = b :: r ∧ b ≠ 13 := by
  obtain ⟨b, r, hb, hne⟩ := hp.exists_cons
  cases headers with
  | nil => exact ⟨b, r, by rw [headText_singleton, hb], hne⟩
  | cons q headers => exact ⟨b, _, by rw [bytesOf_headText_cons_cons, hb, List.cons_append], hne⟩

/-- The empty line comes behind all headers and not before. -/
theorem not_infix_headText (h : ∀ p ∈ headers, FitsLine p) :
    ¬delimiter <:+: bytesOf (headText headers) ++ delimiter.dropLast := by
  have hcr {p : String × String} (hp : FitsLine p) : (13 : UInt8) ∉ bytesOf (headerLine p) :=
    not_mem_bytesOf (c := '\r') (by decide) hp.line.1
  have hshort : ¬delimiter <:+: delimiter.dropLast := fun hs => absurd hs.length_le (by decide)
  induction headers with
  | nil =>
    have hempty : bytesOf (headText []) = [] := bytesOf_of_ascii (by decide)
    rwa [hempty, List.nil_append]
  | cons p headers ih =>
    obtain ⟨hp, hrest⟩ := List.forall_mem_cons.1 h
    cases headers with
    | nil =>
      rw [headText_singleton]
      exact fun hs => hshort (infix_append_of_not_mem (hcr hp) hs)
    | cons q headers =>
      obtain ⟨b, r, hr, hne⟩ := exists_bytesOf_headText (hrest q List.mem_cons_self) headers
      rw [bytesOf_headText_cons_cons, List.append_assoc]
      intro hs
      have hs := infix_append_of_not_mem (hcr hp) hs
      -- neither of the two bytes that end the line begins an empty one
      rcases List.infix_cons_iff.1 hs with hs | hs
      · rw [hr] at hs
        change [13, 10, 13, 10] <+: 13 :: 10 :: b :: (r ++ delimiter.dropLast) at hs
        simp only [List.cons_prefix_cons] at hs
        exact hne hs.2.2.1.symm
      · rcases List.infix_cons_iff.1 hs with hs | hs
        · simp [delimiter, List.cons_prefix_cons] at hs
        · exact ih hrest hs

theorem lines_headText (h : ∀ p ∈ headers, FitsLine p) :
    lines (headText headers).toList = headers.map fun p => (headerLine p).toList := by
  induction headers with
  | nil => rfl
  | cons p headers ih =>
    obtain ⟨hp, hrest⟩ := List.forall_mem_cons.1 h
    cases headers with
    | nil =>
      have hne : (headerLine p).toList ≠ [] := by simp [headerLine]
      rw [headText_singleton, lines_of_not_mem hp.line.2 hne]
      rfl
    | cons q headers =>
      have hcut : (headText (p :: q :: headers)).toList =
          (headerLine p).toList ++ '\r' :: '\n' :: (headText (q :: headers)).toList := by
        simp [headText, joinWith, String.intercalate_cons_cons]
      rw [hcut, lines_append hp.line.2, ih hrest]
      rfl

theorem setMember_of_not_mem {key value : String} {acc : List (String × String)}
    (h : key ∉ acc.map (·.1)) : Json.setMember key value acc = acc ++ [(key, value)] := by
  induction acc with
  | nil => rfl
  | cons p acc ih =>
    simp only [List.map_cons, List.mem_cons, not_or] at h
    simp [Json.setMember, Ne.symm h.1, ih h.2]

/-- A step that puts the header of a line with those before it collects all headers. -/
theorem foldlM_headerLines
    {step : List (String × String) → List Char → Except ProtocolFault (List (String × String))}
    (hstep : ∀ acc p, FitsLine p →
      step acc (headerLine p).toList = .ok (Json.setMember p.1 p.2 acc))
    {acc hs : List (String × String)} (hfits : ∀ p ∈ hs, FitsLine p)
    (hnodup : ((acc ++ hs).map (·.1)).Nodup) :
    (hs.map fun p => (headerLine p).toList).foldlM step acc = .ok (acc ++ hs) := by
  induction hs generalizing acc with
  | nil => simp [pure, Except.pure]
  | cons p hs ih =>
    obtain ⟨hp, hrest⟩ := List.forall_mem_cons.1 hfits
    have hnew : p.1 ∉ acc.map (·.1) := by
      intro hmem
      rw [List.map_append, List.map_cons] at hnodup
      exact (List.nodup_append.1 hnodup).2.2 _ hmem _ List.mem_cons_self rfl
    have hnext : (hs.map fun p => (headerLine p).toList).foldlM step (acc ++ [p]) =
        .ok (acc ++ [p] ++ hs) := ih hrest (by simpa using hnodup)
    rw [List.map_cons, List.foldlM_cons, hstep acc p hp, setMember_of_not_mem hnew]
    simpa [bind, Except.bind] using hnext

/-- Headers of different keys are read as they were written. -/
theorem readHead_headText (h : ∀ p ∈ headers, FitsLine p) (hkeys : (headers.map (·.1)).Nodup) :
    readHead (headText headers) = .ok headers := by
  have hlines : ((lines (headText headers).toList).map trimEnd).filter (!·.isEmpty) =
      headers.map fun p => (headerLine p).toList := by
    have htrim : headers.map (trimEnd ∘ fun p => (headerLine p).toList) =
        headers.map fun p => (headerLine p).toList :=
      List.map_congr_left fun p hp => (h p hp).trimEnd_line
    rw [lines_headText h, List.map_map, htrim]
    apply List.filter_eq_self.2
    intro l hl
    obtain ⟨p, -, rfl⟩ := List.mem_map.1 hl
    simp [headerLine]
  rw [readHead, hlines]
  refine foldlM_headerLines (fun acc p hp => ?_) h hkeys
  simp only [hp.splitOnce_line, String.ofList_toList]

/-- What comes of a response with well-formed headers depends on the length that they give. -/
theorem readResponse_response (h : ∀ p ∈ headers, FitsLine p) (hkeys : (headers.map (·.1)).Nodup)
    (body : Bytes) : readResponse (response headers body) = (contentLength headers).bind fun
      | some n => if n = body.length then .ok (body, headers) else .error (.wrongLength n body.length)
      | none => .ok (body, headers) := by
  rw [readResponse, response, splitOnce_append_of_not_infix (not_infix_headText h)]
  simp only [textOf?_bytesOf, readHead_headText h hkeys, bind, Except.bind]
  cases contentLength headers with
  | error e => rfl
  | ok n => cases n <;> rfl

/-- A response that has broken off before its empty line, or in the middle of it. -/
theorem readResponse_of_prefix_head (h : ∀ p ∈ headers, FitsLine p) {bs : Bytes}
    (hbs : bs <+: bytesOf (headText headers) ++ delimiter.dropLast) :
    readResponse bs = .error (.noDelimiter bs.length) := by
  rw [readResponse, splitOnce_eq_none fun hs => not_infix_headText h (hs.trans hbs.isInfix)]
  rfl

end Head

section Length

variable {value : String} {n : Nat}

theorem digits_of_decimal? (h : decimal? (bytesOf value) = some n) :
    value.toList ≠ [] ∧ (∀ c ∈ value.toList, c.isDigit = true) ∧
      Nat.ofDigitChars 10 value.toList 0 = n := by
  rw [decimal?, textOf?_bytesOf, Option.bind_some] at h
  split at h
  · next hdigits =>
    simp only [Bool.and_eq_true, Bool.not_eq_true', List.all_eq_true] at hdigits
    refine ⟨?_, hdigits.2, Option.some.inj h⟩
    intro hnil
    rw [String.toList_eq_nil_iff.1 hnil] at hdigits
    exact absurd hdigits.1 (by decide)
  · cases h

theorem trim_of_digits {s : List Char} (h : ∀ c ∈ s, c.isDigit = true) : trim s = s :=
  trim_of_none fun c hc => not_isBlank_of_isDigit (h c hc)

theorem readNat_of_digits {bound : Nat} {s : List Char} (hne : s ≠ [])
    (h : ∀ c ∈ s, c.isDigit = true) : readNat bound s = readDigits bound 0 s := by
  obtain ⟨c, r, rfl⟩ := List.exists_cons_of_ne_nil hne
  have hplus : c ≠ '+' := by
    rintro rfl
    exact absurd (h '+' List.mem_cons_self) (by decide)
  unfold readNat
  split
  · contradiction
  · next heq => exact absurd (List.cons.inj heq).1 hplus
  · next heq => exact absurd (List.cons.inj heq).1 hplus
  · rfl

theorem eq_ofDigitChars_of_readDigits {bound k m : Nat} {s : List Char}
    (h : readDigits bound k s = .ok m) : m = Nat.ofDigitChars 10 s k := by
  induction s generalizing k with
  | nil =>
    cases h
    rfl
  | cons c r ih =>
    unfold readDigits at h
    split at h
    · cases h
    · next d hd =>
      split at h
      · rw [ih h, Nat.ofDigitChars_cons]
        unfold digitValue? at hd
        split at hd
        · cases hd
          rfl
        · cases hd
      · cases h

variable {headers : List (String × String)}

theorem contentLength_of_not_mem (h : ∀ p ∈ headers, p.1 ≠ "Content-Length") :
    contentLength headers = .ok none := by
  rw [contentLength, List.find?_eq_none.2 fun p hp => by simpa using h p hp]

theorem find?_of_mem (hkeys : (headers.map (·.1)).Nodup) {p : String × String} (hp : p ∈ headers) :
    headers.find? (·.1 = p.1) = some p := by
  cases hf : headers.find? (·.1 = p.1) with
  | none => exact absurd (List.find?_eq_none.1 hf p hp) (by simp)
  | some q =>
    have hkey : q.1 = p.1 := by simpa using List.find?_some hf
    rw [List.inj_on_of_nodup_map hkeys (List.mem_of_find?_eq_some hf) hp hkey]

variable (hkeys : (headers.map (·.1)).Nodup) (hmem : ("Content-Length", value) ∈ headers)
  (hvalue : decimal? (bytesOf value) = some n)

include hkeys hmem hvalue

/-- A length in digits is understood if a word of 64 bits can hold it. -/
theorem contentLength_of_le (hn : n ≤ maxUInt64) : contentLength headers = .ok (some n) := by
  obtain ⟨hne, hdigits, rfl⟩ := digits_of_decimal? hvalue
  rw [contentLength, find?_of_mem hkeys hmem]
  simp only [trim_of_digits hdigits, readNat_of_digits hne hdigits, readDigits_of_le hdigits hn]

theorem eq_of_contentLength {m : Option Nat} (h : contentLength headers = .ok m) : m = some n := by
  obtain ⟨hne, hdigits, rfl⟩ := digits_of_decimal? hvalue
  rw [contentLength, find?_of_mem hkeys hmem] at h
  simp only [trim_of_digits hdigits, readNat_of_digits hne hdigits] at h
  split at h
  · next hread =>
    cases h
    rw [eq_ofDigitChars_of_readDigits hread]
  · cases h

end Length

/-- Every way of breaking a response off before its end. -/
theorem prefix_response {headers : List (String × String)} {body bs : Bytes}
    (h : bs <+: response headers body) (hne : bs ≠ response headers body) :
    bs <+: bytesOf (headText headers) ++ delimiter.dropLast ∨
      ∃ cut, bs = response headers cut ∧ cut.length < body.length := by
  have hwhole : response headers body =
      bytesOf (headText headers) ++ delimiter.dropLast ++ (10 :: body) := by
    simp [response, delimiter]
  rcases List.prefix_or_prefix_of_prefix h (hwhole ▸ List.prefix_append _ _) with hp | ⟨cut, rfl⟩
  · exact .inl hp
  · rw [hwhole, List.prefix_append_right_inj] at h
    cases cut with
    | nil => exact .inl (by simp)
    | cons c cut =>
      obtain ⟨rfl, hcut⟩ := List.cons_prefix_cons.1 h
      have heq : bytesOf (headText headers) ++ delimiter.dropLast ++ 10 :: cut =
          response headers cut := by
        simp [response, delimiter]
      refine .inr ⟨cut, heq, Nat.lt_of_le_of_ne hcut.length_le ?_⟩
      intro hlength
      rw [heq, hcut.eq_of_length hlength] at hne
      exact hne rfl

/-- A response is read as it was written if it does not give the length of its body, or gives the
right one; with a wrong one it is refused. With the right one it is also refused if it is not there
as a whole. Bodies are no longer than a word of 64 bits can tell. -/
theorem response_read_whole_or_refused {headers : List (String × String)}
    (h : ∀ p ∈ headers, FitsLine p) (hkeys : (headers.map (·.1)).Nodup) (body : Bytes) :
    ((∀ p ∈ headers, p.1 ≠ "Content-Length") →
      readResponse (response headers body) = .ok (body, headers)) ∧
    ∀ value n, ("Content-Length", value) ∈ headers → decimal? (bytesOf value) = some n →
      (n = body.length → body.length ≤ maxUInt64 →
        readResponse (response headers body) = .ok (body, headers) ∧
        ∀ bs, bs <+: response headers body → bs ≠ response headers body →
          ∃ fault, readResponse bs = .error fault) ∧
      (n ≠ body.length → ∃ fault, readResponse (response headers body) = .error fault) := by
  refine ⟨?_, ?_⟩
  · intro hnone
    rw [readResponse_response h hkeys, contentLength_of_not_mem hnone]
    rfl
  intro value n hmem hvalue
  refine ⟨?_, ?_⟩
  · rintro rfl hbound
    have hlength := contentLength_of_le hkeys hmem hvalue hbound
    refine ⟨?_, ?_⟩
    · rw [readResponse_response h hkeys, hlength]
      exact if_pos rfl
    · intro bs hbs hne
      rcases prefix_response hbs hne with hhead | ⟨cut, rfl, hcut⟩
      · exact ⟨_, readResponse_of_prefix_head h hhead⟩
      · refine ⟨.wrongLength body.length cut.length, ?_⟩
        rw [readResponse_response h hkeys, hlength]
        exact if_neg (Nat.ne_of_gt hcut)
  · intro hne
    rw [readResponse_response h hkeys]
    cases hlength : contentLength headers with
    | error fault => exact ⟨fault, rfl⟩
    | ok m =>
      obtain rfl := eq_of_contentLength hkeys hmem hvalue hlength
      exact ⟨_, if_neg hne⟩

/-- A body that looks like the end of a head, as a whole and after it has lost two bytes. -/
theorem response_read_whole_or_refused_delimiter :
    let headers := [("Status", "200 OK"), ("Content-Length", "4")]
    (∀ p ∈ headers, FitsLine p) ∧ (headers.map (·.1)).Nodup ∧
      readResponse (response headers delimiter) = .ok (delimiter, headers) ∧
      ∃ fault, readResponse (response headers [13, 10]) = .error fault := by
  intro headers
  have hfits : ∀ p ∈ headers, FitsLine p := by
    have hstatus : FitsLine ("Status", "200 OK") :=
      ⟨by rw [← occursIn_iff_infix]; decide, by decide, by decide, 'K', by decide, by decide⟩
    have hlength : FitsLine ("Content-Length", "4") :=
      ⟨by rw [← occursIn_iff_infix]; decide, by decide, by decide, '4', by decide, by decide⟩
    exact List.forall_mem_cons.2 ⟨hstatus, List.forall_mem_singleton.2 hlength⟩
  have hkeys : (headers.map (·.1)).Nodup := by decide
  have hfour : decimal? (bytesOf "4") = some 4 := decimal?_length 4
  have hbound : delimiter.length ≤ maxUInt64 := by simp [delimiter, maxUInt64]
  obtain ⟨hwhole, hcut⟩ := ((response_read_whole_or_refused hfits hkeys delimiter).2 "4" 4
    (by simp [headers]) hfour).1 rfl hbound
  have hprefix : response headers [13, 10] <+: response headers delimiter := by
    rw [response, response, List.prefix_append_right_inj, List.prefix_append_right_inj]
    decide
  refine ⟨hfits, hkeys, hwhole, hcut _ hprefix ?_⟩
  intro heq
  have hlengths := congrArg List.length heq
  simp [response, delimiter] at hlengths

end TorrentQuery.Frame
