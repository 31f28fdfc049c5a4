import Mathlib.Tactic.Common
import TorrentQuery.Rpc.Frame

namespace TorrentQuery.Frame

open Text

def decimal? (digits : Bytes) : Option Nat :=
  (textOf? digits).bind fun s =>
    if !s.isEmpty && s.toList.all Char.isDigit then some (Nat.ofDigitChars 10 s.toList 0) else none

/-- The block behind its length and a colon, and what is left over behind the comma at its end. -/
def readNetstring? (bs : Bytes) : Option (Bytes × Bytes) := do
  let (digits, rest) ← splitOnce (bytesOf ":") bs
  let length ← decimal? digits
  match rest.drop length with
  | 44 :: left => some (rest.take length, left)
  | _ => none

/-- Keys and values that take turns among the parts between zeros. Nothing stands behind the last
zero. -/
def readPairs? : List Bytes → Option (List (String × String))
  | [[]] => some []
  | key :: value :: parts => do return (← textOf? key, ← textOf? value) :: (← readPairs? parts)
  | _ => none

def readRequest? (bs : Bytes) : Option (List (String × String) × Bytes) := do
  let (block, body) ← readNetstring? bs
  return (← readPairs? (block.splitOn 0), body)

def ZeroFree (h : String × String) : Prop := 0 ∉ bytesOf h.1 ∧ 0 ∉ bytesOf h.2

section Texts

theorem toList_loop (bs : ByteArray) (i : Nat) (acc : Bytes) :
    ByteArray.toList.loop bs i acc = acc.reverse ++ bs.data.toList.drop i := by
  fun_induction ByteArray.toList.loop bs i acc with
  | case1 i acc h ih =>
    have hi : i < bs.data.toList.length := h
    rw [ih, List.drop_eq_getElem_cons hi, List.reverse_cons, List.append_assoc]
    have hget : bs.get! i = bs.data.toList[i] := by
      show bs.data[i]! = _
      rw [getElem!_pos bs.data i h, Array.getElem_toList]
    rw [hget]
    rfl
  | case2 i acc h =>
    have hi : bs.data.toList.length ≤ i := Nat.le_of_not_lt h
    rw [List.drop_eq_nil_of_le hi, List.append_nil]

theorem bytesOf_eq (s : String) : bytesOf s = s.toByteArray.data.toList := by
  rw [bytesOf, String.toUTF8_eq_toByteArray, ByteArray.toList, toList_loop]
  rfl

theorem textOf?_bytesOf (s : String) : textOf? (bytesOf s) = some s := by
  rw [textOf?, bytesOf_eq, Array.toArray_toList, String.fromUTF8?, dif_pos s.isValidUTF8]
  rfl

theorem bytesOf_eq_flatMap (s : String) : bytesOf s = s.toList.flatMap String.utf8EncodeChar := by
  have hbytes : s.toByteArray = s.toList.utf8Encode := by
    rw [← String.toByteArray_ofList, String.ofList_toList]
  rw [bytesOf_eq, hbytes, List.utf8Encode, List.data_toByteArray]

theorem encode_of_ascii {cs : List Char} (h : ∀ c ∈ cs, c.toNat < 128) :
    cs.flatMap String.utf8EncodeChar = cs.map fun c => c.val.toUInt8 := by
  induction cs with
  | nil => rfl
  | cons c cs ih =>
    obtain ⟨hc, hcs⟩ := List.forall_mem_cons.1 h
    have hsize : c.utf8Size = 1 := by
      rw [Char.utf8Size_eq_one_iff, UInt32.le_iff_toNat_le]
      show c.toNat ≤ 127
      omega
    rw [List.flatMap_cons, String.utf8EncodeChar_eq_singleton hsize, ih hcs]
    rfl

def Ascii (s : String) : Prop := ∀ c ∈ s.toList, c.toNat < 128

instance : DecidablePred Ascii := fun s => List.decidableBAll _ s.toList

/-- The bytes of a text of ASCII characters are their codes. -/
theorem bytesOf_of_ascii {s : String} (hs : Ascii s) :
    bytesOf s = s.toList.map fun c => c.val.toUInt8 := by
  rw [bytesOf_eq_flatMap]
  exact encode_of_ascii hs

end Texts

section Lengths

variable (n : Nat)

theorem toList_length_digits : (toString n).toList = Nat.toDigits 10 n := Nat.toList_repr

theorem digits_of_length : ∀ c ∈ (toString n).toList, c.isDigit = true := by
  intro c hc
  rw [toList_length_digits] at hc
  exact Nat.isDigit_of_mem_toDigits (by decide) (by decide) hc

/-- A written length has no bytes but those of digits. -/
theorem not_mem_bytesOf_length {b : UInt8} (hb : b.toNat < 48 ∨ 57 < b.toNat) :
    b ∉ bytesOf (toString n) := by
  have hcodes : ∀ c ∈ (toString n).toList, 48 ≤ c.toNat ∧ c.toNat ≤ 57 := fun c hc =>
    Char.isDigit_iff_toNat.1 (digits_of_length n c hc)
  have hascii : Ascii (toString n) := by
    intro c hc
    have hcode := hcodes c hc
    omega
  rw [bytesOf_of_ascii hascii]
  intro hmem
  obtain ⟨c, hc, rfl⟩ := List.mem_map.1 hmem
  have hcode := hcodes c hc
  have hbyte : c.val.toUInt8.toNat = c.toNat % 256 := rfl
  omega

theorem decimal?_length : decimal? (bytesOf (toString n)) = some n := by
  have hne : (toString n).isEmpty = false := by
    rw [← Bool.not_eq_true, String.isEmpty_iff, ← String.toList_inj, toList_length_digits]
    exact Nat.toDigits_ne_nil
  have hall : (toString n).toList.all Char.isDigit = true :=
    List.all_eq_true.2 (digits_of_length n)
  rw [decimal?, textOf?_bytesOf, Option.bind_some, hne, hall, toList_length_digits,
    Nat.ofDigitChars_ten_toDigits]
  rfl

end Lengths

theorem readNetstring?_netstring (data left : Bytes) :
    readNetstring? (netstring data ++ left) = some (data, left) := by
  have hcolon : bytesOf ":" = [58] := bytesOf_of_ascii (by decide)
  have hcomma : bytesOf "," = [44] := bytesOf_of_ascii (by decide)
  have hsplit : splitOnce (bytesOf ":") (netstring data ++ left) =
      some (bytesOf (toString data.length), data ++ 44 :: left) := by
    have hfree := not_mem_bytesOf_length data.length (b := 58) (by decide)
    have h := splitOnce_append hfree (data ++ 44 :: left)
    simpa [netstring, hcolon, hcomma] using h
  simp only [readNetstring?, hsplit, decimal?_length, Option.bind_eq_bind, Option.bind_some,
    List.drop_left, List.take_left]

theorem splitOn_headerBytes {h : String × String} (hh : ZeroFree h) (block : Bytes) :
    (headerBytes h ++ block).splitOn 0 = bytesOf h.1 :: bytesOf h.2 :: block.splitOn 0 := by
  obtain ⟨hkey, hvalue⟩ := hh
  calc (headerBytes h ++ block).splitOn 0
      = (bytesOf h.1 ++ 0 :: (bytesOf h.2 ++ 0 :: block)).splitOn 0 := by simp [headerBytes]
    _ = bytesOf h.1 :: bytesOf h.2 :: block.splitOn 0 := by
      rw [List.splitOn_append_cons_self_of_not_mem hkey,
        List.splitOn_append_cons_self_of_not_mem hvalue]

theorem readPairs?_headerBlock {headers : List (String × String)}
    (h : ∀ p ∈ headers, ZeroFree p) : readPairs? ((headerBlock headers).splitOn 0) = some headers := by
  induction headers with
  | nil => rfl
  | cons p headers ih =>
    obtain ⟨hp, hrest⟩ := List.forall_mem_cons.1 h
    have hblock : headerBlock (p :: headers) = headerBytes p ++ headerBlock headers :=
      List.flatMap_cons
    rw [hblock, splitOn_headerBytes hp, readPairs?, textOf?_bytesOf, textOf?_bytesOf, ih hrest]
    rfl

theorem zeroFree_requestHeaders {headers : List (String × String)} (length : Nat)
    (h : ∀ p ∈ headers, ZeroFree p) : ∀ p ∈ requestHeaders length headers, ZeroFree p := by
  have hascii {s : String} (hs : Ascii s) (hzero : 0 ∉ s.toList.map fun c => c.val.toUInt8) :
      0 ∉ bytesOf s := by
    rwa [bytesOf_of_ascii hs]
  have hname : 0 ∉ bytesOf "CONTENT_LENGTH" := hascii (by decide) (by decide)
  have hlength : ZeroFree ("CONTENT_LENGTH", toString length) :=
    ⟨hname, not_mem_bytesOf_length length (by decide)⟩
  have hscgi : ZeroFree ("SCGI", "1") :=
    ⟨hascii (by decide) (by decide), hascii (by decide) (by decide)⟩
  rw [requestHeaders, List.forall_mem_cons, List.forall_mem_cons]
  exact ⟨hlength, hscgi, h⟩

/-- The headers come back in their order behind the two that every request has, and the body byte
for byte. The first header tells how long it is. -/
theorem readRequest?_request (body : Bytes) {headers : List (String × String)}
    (h : ∀ p ∈ headers, ZeroFree p) :
    readRequest? (request body headers) =
      some (("CONTENT_LENGTH", toString body.length) :: ("SCGI", "1") :: headers, body) ∧
    decimal? (bytesOf (toString body.length)) = some body.length := by
  refine ⟨?_, decimal?_length _⟩
  have hpairs := readPairs?_headerBlock (zeroFree_requestHeaders body.length h)
  rw [readRequest?, request, readNetstring?_netstring]
  simp only [Option.bind_eq_bind, Option.bind_some, hpairs]
  rfl

/-- An empty header, one of several bytes for a character, and a body of separators. -/
theorem readRequest?_request_separators :
    let headers := [("", ""), ("TITLE", "für")]
    (∀ p ∈ headers, ZeroFree p) ∧ readRequest? (request [0, 44, 58] headers) =
      some ([("CONTENT_LENGTH", "3"), ("SCGI", "1"), ("", ""), ("TITLE", "für")], [0, 44, 58]) := by
  intro headers
  have hfree : ∀ p ∈ headers, ZeroFree p := by
    simp only [headers, ZeroFree, bytesOf_eq]
    decide +kernel
  exact ⟨hfree, (readRequest?_request [0, 44, 58] hfree).1⟩

end TorrentQuery.Frame
