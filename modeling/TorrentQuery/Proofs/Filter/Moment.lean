import Mathlib.Data.List.TakeWhile
import TorrentQuery.Proofs.Filter.Calendar
import TorrentQuery.Proofs.Number.Padded
import TorrentQuery.Proofs.Text.Blank
import TorrentQuery.Proofs.Text.Split

namespace TorrentQuery.Moment

open Number Text

inductive Clock where
  | hour (h : Nat)
  | minute (h m : Nat)
  | second (h m s : Nat)

structure Stamp where
  date : Date
  clock : Option Clock

def DateForm.separator : DateForm → Char
  | .monthFirst => '/'
  | .dayFirst => '.'
  | .yearFirst => '-'

def dateParts (d : Date) : DateForm → List (List Char)
  | .monthFirst => [padded 2 d.month, padded 2 d.day, padded 4 d.year.toNat]
  | .dayFirst => [padded 2 d.day, padded 2 d.month, padded 4 d.year.toNat]
  | .yearFirst => [padded 4 d.year.toNat, padded 2 d.month, padded 2 d.day]

def writtenDate (form : DateForm) (d : Date) : List Char :=
  [form.separator].intercalate (dateParts d form)

namespace Clock

def time : Clock → TimeOfDay
  | hour h => ⟨h, 0, 0⟩
  | minute h m => ⟨h, m, 0⟩
  | second h m s => ⟨h, m, s⟩

def parts : Clock → List (List Char)
  | hour h => [padded 2 h]
  | minute h m => [padded 2 h, padded 2 m]
  | second h m s => [padded 2 h, padded 2 m, padded 2 s]

def written (c : Clock) : List Char := [':'].intercalate c.parts

end Clock

def marks : List Char := ['T', 't', ' ']

namespace Stamp

def time (s : Stamp) : TimeOfDay := (s.clock.map Clock.time).getD ⟨0, 0, 0⟩

def written (s : Stamp) (form : DateForm) (mark : Char) : List Char :=
  match s.clock with
  | none => writtenDate form s.date
  | some c => writtenDate form s.date ++ mark :: c.written

/-- A day of the first 9999 years, at a time that the day has. -/
def Proper (s : Stamp) : Prop :=
  s.date.Real ∧ 1 ≤ s.date.year ∧ s.date.year ≤ 9999 ∧ s.time.valid = true

/-- Seconds since the start of 1970. A leap second counts as the one before it. -/
def instant (s : Stamp) : Int :=
  86400 * s.date.dayNumber + (3600 * s.time.hour + 60 * s.time.minute + min s.time.second 59)

def fields (s : Stamp) : List Int :=
  s.date.fields ++ [(s.time.hour : Int), (s.time.minute : Int), (s.time.second : Int)]

end Stamp

section Numbers

variable {width n : Nat}

theorem exists_padded (hpos : 0 < width) (n : Nat) :
    ∃ c s, padded width n = c :: s ∧ c.isDigit = true := by
  have hlength := length_padded width n
  obtain ⟨c, s, hcs⟩ := List.exists_cons_of_length_pos (l := padded width n) (by omega)
  exact ⟨c, s, hcs, isDigit_of_mem_padded (hcs ▸ List.mem_cons_self)⟩

theorem trimStart_padded (hpos : 0 < width) (n : Nat) (r : List Char) :
    trimStart (padded width n ++ r) = padded width n ++ r := by
  obtain ⟨c, s, hcs, hdigit⟩ := exists_padded hpos n
  apply trimStart_of_head
  simp [hcs, not_isBlank_of_isDigit hdigit]

theorem readNumber_padded (hpos : 0 < width) (h : n < 10 ^ width) (r : List Char) :
    readNumber width (padded width n ++ r) = some (n, r) := by
  have hdigits : ((padded width n ++ r).take width).takeWhile Char.isDigit = padded width n := by
    rw [List.take_left' (length_padded width n), List.takeWhile_eq_self_iff]
    exact fun c hc => isDigit_of_mem_padded hc
  obtain ⟨c, s, hcs, -⟩ := exists_padded hpos n
  have hne : (padded width n).isEmpty = false := by rw [hcs]; rfl
  rw [readNumber, trimStart_padded hpos, hdigits, hne, ofDigits_padded h, List.drop_left]
  rfl

theorem readYear_padded (h : n < 10 ^ 4) (r : List Char) :
    readYear (padded 4 n ++ r) = some ((n : Int), r) := by
  have hpos : 0 < 4 := by decide
  obtain ⟨c, s, hcs, hdigit⟩ := exists_padded hpos n
  have hread := readNumber_padded hpos h r
  have htrim := trimStart_padded hpos n r
  rw [hcs, List.cons_append] at hread htrim
  rw [hcs, List.cons_append, readYear, htrim]
  -- the first character is a digit, so no sign is read off it
  split
  · next heq =>
    rw [(List.cons.inj heq).1] at hdigit
    cases hdigit
  · next heq =>
    rw [(List.cons.inj heq).1] at hdigit
    cases hdigit
  · rw [hread]
    rfl

/-- Numbers with a separator between them. -/
theorem mem_joined {sep c : Char} {parts : List (List Char)}
    (hparts : ∀ part ∈ parts, ∀ c ∈ part, c.isDigit = true) (h : c ∈ [sep].intercalate parts) :
    c.isDigit = true ∨ c = sep := by
  rcases mem_intercalate h with h | ⟨part, hpart, hc⟩
  · exact .inr h
  · exact .inl (hparts part hpart c hc)

end Numbers

section Dates

variable {d : Date}

theorem readDate_written (hreal : d.Real) (hfirst : 1 ≤ d.year) (hlast : d.year ≤ 9999)
    (form : DateForm) : readDate form (writtenDate form d) = some d := by
  obtain ⟨hmonth, hdecember, hday, hend⟩ := hreal
  have hbounds := Date.daysInMonth_bounds d.year d.month
  have hyear : (d.year.toNat : Int) = d.year := by omega
  have hvalid : d.valid = true := by
    have hlo : Date.firstYear ≤ d.year := Int.le_trans (by decide) hfirst
    have hhi : d.year ≤ Date.lastYear := Int.le_trans hlast (by decide)
    simp [Date.valid, hlo, hhi, hmonth, hdecember, hday, hend]
  have hy (r : List Char) := readYear_padded (n := d.year.toNat) (by omega) r
  have hm (r : List Char) : readNumber 2 (padded 2 d.month ++ r) = some (d.month, r) :=
    readNumber_padded (by decide) (by omega) r
  have hd (r : List Char) : readNumber 2 (padded 2 d.day ++ r) = some (d.day, r) :=
    readNumber_padded (by decide) (by omega) r
  have hy' := hy []
  have hd' := hd []
  rw [List.append_nil] at hy' hd'
  cases form <;>
    simp [readDate, writtenDate, dateParts, DateForm.separator, after?, hy, hm, hd, hy', hd', hyear,
      hvalid]

theorem mem_writtenDate {form : DateForm} {c : Char} (h : c ∈ writtenDate form d) :
    c.isDigit = true ∨ c = form.separator := by
  apply mem_joined ?_ h
  intro part hpart c hc
  cases form <;>
    · simp only [dateParts, List.mem_cons, List.not_mem_nil, or_false] at hpart
      rcases hpart with rfl | rfl | rfl <;> exact isDigit_of_mem_padded hc

end Dates

section Times

variable {c : Clock}

theorem count_padded (width n : Nat) : (padded width n).count ':' = 0 := by
  rw [List.count_eq_zero]
  intro h
  cases isDigit_of_mem_padded h

theorem mem_written {ch : Char} (h : ch ∈ c.written) : ch.isDigit = true ∨ ch = ':' := by
  apply mem_joined ?_ h
  intro part hpart ch hch
  cases c <;> simp only [Clock.parts, List.mem_cons, List.not_mem_nil, or_false] at hpart
  · exact isDigit_of_mem_padded (hpart ▸ hch)
  · rcases hpart with rfl | rfl <;> exact isDigit_of_mem_padded hch
  · rcases hpart with rfl | rfl | rfl <;> exact isDigit_of_mem_padded hch

theorem readTime_written (hvalid : c.time.valid = true) : readTime c.written = some c.time := by
  have hread {n : Nat} (hn : n < 100) (r : List Char) :
      readNumber 2 (padded 2 n ++ r) = some (n, r) := readNumber_padded (by decide) hn r
  have hread' {n : Nat} (hn : n < 100) : readNumber 2 (padded 2 n) = some (n, []) := by
    rw [← List.append_nil (padded 2 n), hread hn]
  have hbounds := hvalid
  simp only [TimeOfDay.valid, Bool.and_eq_true, decide_eq_true_eq] at hbounds
  obtain ⟨⟨hh, hm⟩, hs⟩ := hbounds
  cases c with
  | hour h =>
    simp only [Clock.time] at hh hvalid
    have hone := hread' (n := h) (by omega)
    simp [readTime, Clock.written, Clock.parts, hone, count_padded, hvalid, Clock.time]
  | minute h m =>
    simp only [Clock.time] at hh hm hvalid
    have hone := hread (n := h) (by omega) (':' :: padded 2 m)
    have htwo := hread' (n := m) (by omega)
    simp [readTime, Clock.written, Clock.parts, hone, htwo, after?, count_padded, hvalid, Clock.time]
  | second h m s =>
    simp only [Clock.time] at hh hm hs hvalid
    have hone := hread (n := h) (by omega) (':' :: (padded 2 m ++ ':' :: padded 2 s))
    have htwo := hread (n := m) (by omega) (':' :: padded 2 s)
    have hthree := hread' (n := s) (by omega)
    simp [readTime, Clock.written, Clock.parts, hone, htwo, hthree, after?, count_padded, hvalid,
      Clock.time]

end Times

section Stamps

variable {s : Stamp} {form : DateForm} {mark c : Char}

theorem mem_stamp (h : c ∈ s.written form mark) :
    c.isDigit = true ∨ c = form.separator ∨ c = mark ∨ c = ':' := by
  rw [Stamp.written] at h
  split at h
  · exact (mem_writtenDate h).imp_right .inl
  · rcases List.mem_append.1 h with h | h
    · exact (mem_writtenDate h).imp_right .inl
    · rcases List.mem_cons.1 h with h | h
      · exact .inr (.inr (.inl h))
      · exact (mem_written h).imp_right fun h => .inr (.inr h)

theorem separator_mem (form : DateForm) (mark : Char) (s : Stamp) :
    form.separator ∈ s.written form mark := by
  have hdate : form.separator ∈ writtenDate form s.date := by
    cases form <;> simp [writtenDate, dateParts]
  rw [Stamp.written]
  split
  · exact hdate
  · exact List.mem_append_left _ hdate

/-- No form has the separator of another. -/
theorem separator_mem_iff (hmark : mark ∈ marks) (other : DateForm) :
    other.separator ∈ s.written form mark ↔ other = form := by
  constructor
  · intro hmem
    rcases mem_stamp hmem with h | h | h | h
    · cases other <;> cases h
    · cases other <;> cases form <;> first | rfl | cases h
    · rw [← h] at hmark
      cases other <;> exact absurd hmark (by decide)
    · cases other <;> cases h
  · rintro rfl
    exact separator_mem other mark s

theorem formOf_written (hmark : mark ∈ marks) (form : DateForm) (s : Stamp) :
    formOf (s.written form mark) = form := by
  have hslash : '/' ∈ s.written form mark ↔ .monthFirst = form := separator_mem_iff hmark .monthFirst
  have hpoint : '.' ∈ s.written form mark ↔ .dayFirst = form := separator_mem_iff hmark .dayFirst
  cases form <;> simp [formOf, hslash, hpoint]

theorem isSeconds_written (form : DateForm) (mark : Char) (s : Stamp) :
    isSeconds (s.written form mark) = false := by
  have hdigit : form.separator.isDigit = false := by cases form <;> rfl
  have hall : (s.written form mark).all Char.isDigit = false := by
    rw [List.all_eq_false]
    exact ⟨_, separator_mem form mark s, by rw [hdigit]; exact Bool.false_ne_true⟩
  rw [isSeconds, hall, Bool.and_false]

theorem writtenDate_ne_nil (form : DateForm) (d : Date) : writtenDate form d ≠ [] := by
  have hpos : 0 < (writtenDate form d).length := by
    cases form <;> simp [writtenDate, dateParts, length_padded]
  exact List.ne_nil_of_length_pos hpos

theorem clock_written_ne_nil (c : Clock) : c.written ≠ [] := by
  have hpos : 0 < c.written.length := by
    cases c <;> simp [Clock.written, Clock.parts, length_padded]
  exact List.ne_nil_of_length_pos hpos

end Stamps

section Reading

variable {s : Stamp} {form : DateForm} {mark c : Char}

/-- Digits and what stands between them; a date and a time of day have no other characters. -/
def Plain (c : Char) : Prop := c.isDigit = true ∨ c ∈ ['/', '.', '-', ':']

theorem Plain.not_isBlank (h : Plain c) : isBlank c = false := by
  rcases h with h | h
  · exact not_isBlank_of_isDigit h
  · simp only [List.mem_cons, List.not_mem_nil, or_false] at h
    rcases h with rfl | rfl | rfl | rfl <;> rfl

theorem Plain.not_mem_marks (h : Plain c) : c ∉ marks := by
  rcases h with h | h
  · intro hmem
    simp only [marks, List.mem_cons, List.not_mem_nil, or_false] at hmem
    rcases hmem with rfl | rfl | rfl <;> cases h
  · simp only [List.mem_cons, List.not_mem_nil, or_false] at h
    rcases h with rfl | rfl | rfl | rfl <;> decide

theorem plain_of_mem_date {d : Date} (h : c ∈ writtenDate form d) : Plain c := by
  rcases mem_writtenDate h with h | rfl
  · exact .inl h
  · exact .inr (by cases form <;> decide)

theorem plain_of_mem_clock {clock : Clock} (h : c ∈ clock.written) : Plain c := by
  rcases mem_written h with h | rfl
  · exact .inl h
  · exact .inr (by decide)

theorem trim_written (form : DateForm) (mark : Char) (s : Stamp) :
    trim (s.written form mark) = s.written form mark := by
  have hdate : ∀ c ∈ writtenDate form s.date, isBlank c = false :=
    fun c hc => (plain_of_mem_date hc).not_isBlank
  rw [Stamp.written]
  split
  · exact trim_of_none hdate
  · next clock _ =>
    apply trim_of_ends
    · rw [List.head?_append_of_ne_nil _ (writtenDate_ne_nil form s.date), Option.all_eq_true]
      intro c hc
      rw [hdate c (List.mem_of_head? hc)]
      rfl
    · rw [List.getLast?_append_of_ne_nil _ (List.cons_ne_nil _ _), Option.all_eq_true]
      intro c hc
      rw [List.getLast?_cons_of_ne_nil (clock_written_ne_nil clock)] at hc
      rw [(plain_of_mem_clock (List.mem_of_getLast? hc)).not_isBlank]
      rfl

/-- Only what stands between a date and a time of day is put in place by the letter. -/
theorem map_plain {t : List Char} (h : ∀ c ∈ t, Plain c) :
    t.map (fun c => if c == ' ' || c == 't' then 'T' else c) = t := by
  conv_rhs => rw [← List.map_id t]
  apply List.map_congr_left
  intro c hc
  have hmarks := (h c hc).not_mem_marks
  simp only [marks, List.mem_cons, List.not_mem_nil, or_false, not_or] at hmarks
  simp [hmarks]

theorem readDateTime_written (hs : s.Proper) (hmark : mark ∈ marks) (form : DateForm) :
    readDateTime (s.written form mark) = some s.instant := by
  obtain ⟨hreal, hfirst, hlast, htime⟩ := hs
  have hread := readDate_written hreal hfirst hlast form
  have hdate : ∀ c ∈ writtenDate form s.date, Plain c := fun c hc => plain_of_mem_date hc
  have hletter : 'T' ∉ writtenDate form s.date :=
    fun hmem => (hdate 'T' hmem).not_mem_marks (by decide)
  have hdayText := map_plain hdate
  rw [readDateTime, formOf_written hmark, trim_written, Stamp.instant]
  cases hclock : s.clock with
  | none =>
    have hwritten : s.written form mark = writtenDate form s.date := by rw [Stamp.written, hclock]
    have hmidnight : s.time = ⟨0, 0, 0⟩ := by rw [Stamp.time, hclock]; rfl
    have hsplit : splitOnce ['T'] (writtenDate form s.date) = none := by
      apply splitOnce_eq_none
      rintro ⟨before, after, heq⟩
      apply hletter
      rw [← heq]
      simp
    rw [hwritten, hdayText, hsplit, hmidnight]
    simp only [hread, Option.map_some, Option.some_inj]
    omega
  | some clock =>
    have hwritten : s.written form mark = writtenDate form s.date ++ mark :: clock.written := by
      rw [Stamp.written, hclock]
    have hclockTime : s.time = clock.time := by rw [Stamp.time, hclock]; rfl
    rw [hclockTime] at htime ⊢
    have htimeText := map_plain (t := clock.written) fun c hc => plain_of_mem_clock hc
    have hmarkText : (if mark == ' ' || mark == 't' then 'T' else mark) = 'T' := by
      simp only [marks, List.mem_cons, List.not_mem_nil, or_false] at hmark
      rcases hmark with rfl | rfl | rfl <;> rfl
    rw [hwritten, List.map_append, List.map_cons, hdayText, htimeText,
      hmarkText, splitOnce_append hletter]
    simp only [hread, readTime_written htime, Option.bind_eq_bind, Option.bind_some,
      Option.some_inj, TimeOfDay.seconds]
    omega

theorem read_eq_instant (hs : s.Proper) (hmark : mark ∈ marks) (form : DateForm) :
    Moment.read (s.written form mark) = .ok s.instant := by
  rw [Moment.read, isSeconds_written, readDateTime_written hs hmark]
  rfl

end Reading

section Order

variable {a b : Stamp}

theorem fields_lt (h : a.fields < b.fields) :
    a.date.fields < b.date.fields ∨ a.date = b.date ∧ (a.time.hour < b.time.hour ∨
      a.time.hour = b.time.hour ∧ (a.time.minute < b.time.minute ∨
        a.time.minute = b.time.minute ∧ a.time.second < b.time.second)) := by
  rw [← Date.fields_inj]
  simp only [Stamp.fields, Date.fields, List.cons_append, List.nil_append, List.cons_lt_cons_iff,
    List.not_lt_nil, List.cons.injEq, and_false, or_false, and_true] at h ⊢
  omega

/-- Points in time that are later have greater numbers, but for a leap second, which has none of its
own. -/
theorem instant_lt (ha : a.Proper) (hb : b.Proper) (h : a.fields < b.fields) :
    a.instant ≤ b.instant ∧ (b.time.second < 60 → a.instant < b.instant) := by
  have hvalid := ha.2.2.2
  simp only [TimeOfDay.valid, Bool.and_eq_true, decide_eq_true_eq] at hvalid
  rcases fields_lt h with hdate | ⟨hdate, htime⟩
  · have hdays := Date.dayNumber_lt ha.1 hb.1 hdate
    simp only [Stamp.instant]
    omega
  · simp only [Stamp.instant, hdate]
    omega

end Order

/-- All ways of writing a point in time are read as the same number of seconds, and the order of these
numbers is that of the calendar and the clock. -/
theorem read_written {a : Stamp} (ha : a.Proper) :
    (∀ form, ∀ mark ∈ marks, Moment.read (a.written form mark) = .ok a.instant) ∧
    Date.Apart Date.epoch a.date a.date.dayNumber ∧
    ∀ b : Stamp, b.Proper → a.fields < b.fields →
      a.instant ≤ b.instant ∧ (b.time.second < 60 → a.instant < b.instant) := by
  refine ⟨?_, ?_, ?_⟩
  · intro form mark hmark
    exact read_eq_instant ha hmark form
  · have hepoch : Date.epoch.Real := by
      unfold Date.Real
      decide
    rw [Date.apart_iff hepoch ha.1]
    change _ = _ - 0
    omega
  · intro b hb h
    exact instant_lt ha hb h

theorem read_written_leap_day :
    let a : Stamp := ⟨⟨1972, 2, 29⟩, some (.minute 6 30)⟩
    let b : Stamp := ⟨⟨1972, 3, 1⟩, none⟩
    a.Proper ∧ b.Proper ∧ Moment.read "29.02.1972 06:30".toList = .ok 68193000 ∧
    Moment.read "02/29/1972t06:30".toList = .ok 68193000 ∧ a.instant < b.instant := by
  intro a b
  have ha : a.Proper := by
    unfold Stamp.Proper Date.Real
    decide
  have hb : b.Proper := by
    unfold Stamp.Proper Date.Real
    decide
  obtain ⟨hread, -, hlater⟩ := read_written ha
  have hday : a.written .dayFirst ' ' = "29.02.1972 06:30".toList := by decide +kernel
  have hmonth : a.written .monthFirst 't' = "02/29/1972t06:30".toList := by decide +kernel
  have hinstant : a.instant = 68193000 := by decide +kernel
  rw [← hday, ← hmonth, hread .dayFirst ' ' (by decide), hread .monthFirst 't' (by decide), hinstant]
  refine ⟨ha, hb, rfl, rfl, ?_⟩
  rw [← hinstant]
  exact (hlater b hb (by decide)).2 (by decide)

/-- A leap second is later than the second before it, but has its number. -/
example : let a : Stamp := ⟨⟨2016, 12, 31⟩, some (.second 23 59 59)⟩
    let b : Stamp := ⟨⟨2016, 12, 31⟩, some (.second 23 59 60)⟩
    a.fields < b.fields ∧ a.instant = b.instant := by
  decide

end TorrentQuery.Moment
