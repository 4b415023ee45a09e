import TopSpeed.Proofs.ByteCodec
import TopSpeed.Value.Decode
import TopSpeed.Dump.Machine
import Mathlib
/-!
# Dates and times read from their words

A date field is a 32-bit word holding the year in its high half, then the month
and the day in one byte each; the word zero stands for no date. A time field is
a word holding hours in seven bits, then minutes, seconds and hundredths of a
second in one byte each. This file says what decoding such a field gives, for
every word, and that it undoes the packing a writer does.

The decoder leaves the calendar to the date library, a `Calendar` it is given.
What the library documents of it is `Calendar.Lawful`: a year, month and day
give a date exactly when they name a day of the proleptic Gregorian calendar
(`Calendar.IsDate`: February's length by the 4/100/400 rule, year 0 a leap
year), in every year a word can hold; hours, minutes and seconds give a time
exactly when they lie within a day, at any millisecond below 1000. The machine's
calendar is lawful (`Dump.machineCalendar_lawful`).

The fields of a word are read as arithmetic on its value
(`UInt32.toNat_shiftRight_eq_div`, `UInt32.toNat_and_two_pow_sub_one`), so that
`Date.unpack_eq` and `TimeOfDay.unpack_eq` give each unpacking under a lawful
calendar as a plain case analysis, and `Value.scalar_date`, `Value.scalar_time`
lift them to a field of either byte order. The writer's packing (`Date.pack`,
`TimeOfDay.pack`) puts the fields side by side in the word (`Date.toNat_pack`),
and decoding reads them back. The main statement is `Value.date_time_words`.
-/

namespace TopSpeed

/-! ### The calendar -/

namespace Calendar

/-- A leap year of the proleptic Gregorian calendar: divisible by 4, and by 400
when divisible by 100. -/
def LeapYear (y : Nat) : Prop := 4 ∣ y ∧ (100 ∣ y → 400 ∣ y)

instance (y : Nat) : Decidable (LeapYear y) := inferInstanceAs (Decidable (_ ∧ _))

/-- The lengths of the months of year `y`, January first. -/
def monthLengths (y : Nat) : List Nat :=
  [31, if LeapYear y then 29 else 28, 31, 30, 31, 30, 31, 31, 30, 31, 30, 31]

/-- Year `y`, month `m` and day `d` name a day of the proleptic Gregorian calendar. -/
def IsDate (y m d : Nat) : Prop := 1 ≤ m ∧ m ≤ 12 ∧ 1 ≤ d ∧ d ≤ (monthLengths y).getD (m - 1) 0

instance (y m d : Nat) : Decidable (IsDate y m d) := inferInstanceAs (Decidable (_ ∧ _))

/-- A month of the calendar has at most 31 days. -/
theorem IsDate.day_le {y m d : Nat} (h : IsDate y m d) : d ≤ 31 := by
  obtain ⟨h1, h12, -, hd⟩ := h
  interval_cases m <;> simp only [monthLengths] at hd <;> split_ifs at hd <;> simp at hd <;> omega

/-- What the date library documents of its calendar, for every year the high
half of a word can hold (the library reaches year 262143) and every millisecond
below 1000. -/
structure Lawful (cal : Calendar) : Prop where
  /-- A day of the calendar is a date. -/
  date_some : ∀ {y m d : Nat}, y < 65536 → IsDate y m d → cal.date? y m d = some ⟨y, m, d⟩
  /-- A month or a day that does not exist gives no date. -/
  date_none : ∀ {y m d : Nat}, ¬IsDate y m d → cal.date? y m d = none
  /-- Hours, minutes and seconds within a day give a time at any millisecond below 1000. -/
  time_some : ∀ {h m s ms : Nat}, h < 24 → m < 60 → s < 60 → ms < 1000 →
    cal.time? h m s ms = some ⟨h, m, s, ms⟩
  /-- Hours, minutes or seconds past a day's give no time. -/
  time_none : ∀ {h m s ms : Nat}, ¬(h < 24 ∧ m < 60 ∧ s < 60) → cal.time? h m s ms = none

namespace Lawful

variable {cal : Calendar}

/-- A lawful calendar's date of a year a word can hold. -/
theorem date?_eq (hcal : cal.Lawful) {y m d : Nat} (hy : y < 65536) :
    cal.date? y m d = if IsDate y m d then some ⟨y, m, d⟩ else none := by
  split_ifs with h
  · exact hcal.date_some hy h
  · exact hcal.date_none h

/-- A lawful calendar's time at a millisecond below 1000. -/
theorem time?_eq (hcal : cal.Lawful) {h m s ms : Nat} (hms : ms < 1000) :
    cal.time? h m s ms = if h < 24 ∧ m < 60 ∧ s < 60 then some ⟨h, m, s, ms⟩ else none := by
  split_ifs with hday
  · exact hcal.time_some hday.1 hday.2.1 hday.2.2 hms
  · exact hcal.time_none hday

end Lawful

end Calendar

/-! ### The machine's calendar -/

namespace Dump

theorem isLeapYear_iff (y : Nat) : isLeapYear y = true ↔ Calendar.LeapYear y := by
  simp only [isLeapYear, Calendar.LeapYear, Bool.and_eq_true, Bool.or_eq_true, beq_iff_eq, bne_iff_ne,
    ne_eq, Nat.dvd_iff_mod_eq_zero]
  tauto

/-- Within the year, the machine's month lengths are the calendar's. -/
theorem monthDays_eq (y m : Nat) (h1 : 1 ≤ m) (h12 : m ≤ 12) :
    monthDays y m = (Calendar.monthLengths y).getD (m - 1) 0 := by
  have hleap : isLeapYear y = decide (Calendar.LeapYear y) := by
    rw [Bool.eq_iff_iff, isLeapYear_iff, decide_eq_true_iff]
  interval_cases m <;> simp [monthDays, Calendar.monthLengths, hleap]

/-- The machine's check of a date is the proleptic Gregorian calendar. -/
theorem isCalendarDate_iff (y m d : Nat) : isCalendarDate y m d = true ↔ Calendar.IsDate y m d := by
  simp only [isCalendarDate, Calendar.IsDate, Bool.and_eq_true, decide_eq_true_eq]
  constructor
  · rintro ⟨⟨⟨h1, h12⟩, hd⟩, hdays⟩
    exact ⟨h1, h12, hd, monthDays_eq y m h1 h12 ▸ hdays⟩
  · rintro ⟨h1, h12, hd, hdays⟩
    exact ⟨⟨⟨h1, h12⟩, hd⟩, (monthDays_eq y m h1 h12).symm ▸ hdays⟩

/-- **The machine's calendar is lawful.** -/
theorem machineCalendar_lawful : Calendar.Lawful machineCalendar where
  date_some := by
    intro y m d hy hdate
    have hlast : y ≤ lastYear := by unfold lastYear; omega
    simp [machineCalendar, hlast, (isCalendarDate_iff y m d).mpr hdate]
  date_none := by
    intro y m d hdate
    have hnot : isCalendarDate y m d = false := by
      rw [← Bool.not_eq_true, isCalendarDate_iff]
      exact hdate
    simp [machineCalendar, hnot]
  time_some := by
    intro h m s ms hh hm hs hms
    simp [machineCalendar, isTimeOfDay, hh, hm, hs, hms]
  time_none := by
    intro h m s ms hday
    have hnot : isTimeOfDay h m s ms = false := by
      simp only [isTimeOfDay, Bool.and_eq_false_iff, decide_eq_false_iff_not]
      omega
    simp [machineCalendar, hnot]

end Dump

/-! ### The fields of a word -/

namespace UInt32

/-- Shifting a word right by `k` bits divides its value by `2 ^ k`. -/
theorem toNat_shiftRight_eq_div (w k : UInt32) (hk : k.toNat < 32) :
    (w >>> k).toNat = w.toNat / 2 ^ k.toNat := by
  rw [UInt32.toNat_shiftRight, Nat.mod_eq_of_lt hk, Nat.shiftRight_eq_div_pow]

theorem toNat_shiftRight_8 (w : UInt32) : (w >>> 8).toNat = w.toNat / 256 :=
  toNat_shiftRight_eq_div w 8 (by decide)

theorem toNat_shiftRight_16 (w : UInt32) : (w >>> 16).toNat = w.toNat / 65536 :=
  toNat_shiftRight_eq_div w 16 (by decide)

theorem toNat_shiftRight_24 (w : UInt32) : (w >>> 24).toNat = w.toNat / 16777216 :=
  toNat_shiftRight_eq_div w 24 (by decide)

/-- Masking a word with `2 ^ n - 1` keeps its value modulo `2 ^ n`. -/
theorem toNat_and_two_pow_sub_one (w : UInt32) (n : Nat) (hn : n ≤ 32) :
    (w &&& (2 ^ n - 1 : Nat).toUInt32).toNat = w.toNat % 2 ^ n := by
  have hlt : 2 ^ n - 1 < 2 ^ 32 := by
    have := Nat.pow_le_pow_right (by decide : 0 < 2) hn
    omega
  rw [UInt32.toNat_and, Nat.toUInt32_eq, UInt32.toNat_ofNat', Nat.mod_eq_of_lt hlt,
    Nat.and_two_pow_sub_one_eq_mod]

theorem toNat_and_255 (w : UInt32) : (w &&& 0xFF).toNat = w.toNat % 256 :=
  toNat_and_two_pow_sub_one w 8 (by decide)

theorem toNat_and_127 (w : UInt32) : (w &&& 0x7F).toNat = w.toNat % 128 :=
  toNat_and_two_pow_sub_one w 7 (by decide)

end UInt32

/-! ### Unpacking a word -/

namespace Date

/-- Why a year, month and day name no day, as the decoder says it. -/
def notADate (y m d : Nat) : String := s!"{padNat 4 y}-{padNat 2 m}-{padNat 2 d} is not a calendar date"

/-- **What a date word unpacks to** under a lawful calendar: nothing for zero,
else its year, month and day when they name a day of the calendar, else the
reason they do not. -/
theorem unpack_eq {cal : Calendar} (hcal : cal.Lawful) (w : UInt32) :
    unpack cal w =
      if w = 0 then .ok none
      else if Calendar.IsDate (w.toNat / 65536) (w.toNat / 256 % 256) (w.toNat % 256) then
        .ok (some ⟨w.toNat / 65536, w.toNat / 256 % 256, w.toNat % 256⟩)
      else .error (notADate (w.toNat / 65536) (w.toNat / 256 % 256) (w.toNat % 256)) := by
  -- the year is the high half of the word, so the calendar's documented range covers it
  have hy : w.toNat / 65536 < 65536 := by
    have := w.toNat_lt
    omega
  simp only [unpack, beq_iff_eq, UInt32.toNat_and_255, UInt32.toNat_shiftRight_8,
    UInt32.toNat_shiftRight_16, hcal.date?_eq hy]
  split_ifs <;> rfl

end Date

namespace TimeOfDay

/-- Why hours, minutes, seconds and hundredths are no time of day, as the
decoder says it: the hundredths first, then the whole time. -/
def notATime (h m s c : Nat) : String :=
  if 99 < c then s!"{c} centiseconds"
  else s!"{padNat 2 h}:{padNat 2 m}:{padNat 2 s}.{padNat 2 c} is not a time of day"

/-- **What a time word unpacks to** under a lawful calendar: its hours (seven
bits), minutes, seconds and hundredths, with milliseconds ten to the hundredth,
when the hundredths are at most 99 and the rest within a day; else the reason it
is no time of day. -/
theorem unpack_eq {cal : Calendar} (hcal : cal.Lawful) (w : UInt32) :
    unpack cal w =
      if w.toNat % 256 ≤ 99 ∧ w.toNat / 16777216 % 128 < 24 ∧ w.toNat / 65536 % 256 < 60 ∧
          w.toNat / 256 % 256 < 60 then
        .ok ⟨w.toNat / 16777216 % 128, w.toNat / 65536 % 256, w.toNat / 256 % 256, 10 * (w.toNat % 256)⟩
      else .error (notATime (w.toNat / 16777216 % 128) (w.toNat / 65536 % 256) (w.toNat / 256 % 256)
        (w.toNat % 256)) := by
  simp only [unpack, UInt32.toNat_and_255, UInt32.toNat_and_127, UInt32.toNat_shiftRight_8,
    UInt32.toNat_shiftRight_16, UInt32.toNat_shiftRight_24]
  by_cases hc : 99 < w.toNat % 256
  · simp [hc, notATime]
  · -- the hundredths are checked first, so the calendar is asked below 1000 milliseconds
    have hms : w.toNat % 256 * 10 < 1000 := by omega
    rw [hcal.time?_eq hms]
    by_cases hok : w.toNat / 16777216 % 128 < 24 ∧ w.toNat / 65536 % 256 < 60 ∧
        w.toNat / 256 % 256 < 60
    · simp [hc, hok, Nat.mul_comm]
    · simp [hc, hok, notATime]

end TimeOfDay

/-! ### The writer's packing -/

/-- Two fields side by side, both shifted by `k`, are their sum shifted by `k`. -/
theorem Nat.mul_two_pow_or_mul_two_pow (a b j k : Nat) (hb : b < 2 ^ j) :
    a * 2 ^ (j + k) ||| b * 2 ^ k = (a * 2 ^ j + b) * 2 ^ k := by
  rw [← Nat.shiftLeft_eq b, pow_add, ← Nat.mul_assoc, ← Nat.shiftLeft_eq (a * 2 ^ j),
    ← Nat.shiftLeft_or_distrib, Nat.mul_two_pow_or_of_lt _ hb, Nat.shiftLeft_eq]

namespace UInt32

/-- A number shifted left within the word keeps all its bits. -/
theorem toNat_toUInt32_shiftLeft (n : Nat) (k : UInt32) (hk : k.toNat < 32)
    (h : n * 2 ^ k.toNat < 2 ^ 32) : (n.toUInt32 <<< k).toNat = n * 2 ^ k.toNat := by
  have hn : n < 2 ^ 32 := Nat.lt_of_le_of_lt (Nat.le_mul_of_pos_right _ (Nat.two_pow_pos _)) h
  rw [UInt32.toNat_shiftLeft, Nat.toUInt32_eq, UInt32.toNat_ofNat', Nat.mod_eq_of_lt hn,
    Nat.mod_eq_of_lt hk, Nat.shiftLeft_eq, Nat.mod_eq_of_lt h]

theorem toNat_toUInt32_of_lt {n : Nat} (h : n < 2 ^ 32) : n.toUInt32.toNat = n := by
  rw [Nat.toUInt32_eq, UInt32.toNat_ofNat', Nat.mod_eq_of_lt h]

end UInt32

namespace Date

/-- A date word as a writer packs it: year, month and day, each shifted to its field. -/
def pack (y m d : Nat) : UInt32 := (y.toUInt32 <<< 16) ||| (m.toUInt32 <<< 8) ||| d.toUInt32

/-- A date's fields, each within its width, sit side by side in the packed word. -/
theorem toNat_pack {y m d : Nat} (hy : y < 65536) (hm : m < 256) (hd : d < 256) :
    (pack y m d).toNat = y * 65536 + m * 256 + d := by
  rw [pack, UInt32.toNat_or, UInt32.toNat_or,
    UInt32.toNat_toUInt32_shiftLeft y 16 (by decide) (by simp; omega),
    UInt32.toNat_toUInt32_shiftLeft m 8 (by decide) (by simp; omega),
    UInt32.toNat_toUInt32_of_lt (by omega : d < 2 ^ 32),
    show (16 : UInt32).toNat = 8 + 8 from rfl, show (8 : UInt32).toNat = 8 from rfl,
    Nat.mul_two_pow_or_mul_two_pow y m 8 8 (by simpa using hm),
    Nat.mul_two_pow_or_of_lt _ (show d < 2 ^ 8 by simpa using hd)]
  ring

end Date

namespace TimeOfDay

/-- A time word as a writer packs it: hours, minutes, seconds and hundredths, each
shifted to its field. -/
def pack (h m s c : Nat) : UInt32 :=
  (h.toUInt32 <<< 24) ||| (m.toUInt32 <<< 16) ||| (s.toUInt32 <<< 8) ||| c.toUInt32

/-- A time's fields, each within a byte, sit side by side in the packed word. -/
theorem toNat_pack {h m s c : Nat} (hh : h < 256) (hm : m < 256) (hs : s < 256) (hc : c < 256) :
    (pack h m s c).toNat = h * 16777216 + m * 65536 + s * 256 + c := by
  rw [pack, UInt32.toNat_or, UInt32.toNat_or, UInt32.toNat_or,
    UInt32.toNat_toUInt32_shiftLeft h 24 (by decide) (by simp; omega),
    UInt32.toNat_toUInt32_shiftLeft m 16 (by decide) (by simp; omega),
    UInt32.toNat_toUInt32_shiftLeft s 8 (by decide) (by simp; omega),
    UInt32.toNat_toUInt32_of_lt (by omega : c < 2 ^ 32),
    show (24 : UInt32).toNat = 8 + 16 from rfl, show (16 : UInt32).toNat = 8 + 8 from rfl,
    show (8 : UInt32).toNat = 8 from rfl,
    Nat.mul_two_pow_or_mul_two_pow h m 8 16 (by simpa using hm),
    show 16 = 8 + 8 from rfl, Nat.mul_two_pow_or_mul_two_pow _ s 8 8 (by simpa using hs),
    Nat.mul_two_pow_or_of_lt _ (show c < 2 ^ 8 by simpa using hc)]
  ring

end TimeOfDay

/-! ### Decoding a date or time field -/

namespace Value

section Words

variable {cal : Calendar} (w : UInt32) (table : String) (f : Field)

/-- The four bytes of a word, written in the field's byte order, read back as the word. -/
theorem value_bytes_word : f.endian.value (f.endian.bytes 4 w.toNat) = w.toNat :=
  Endian.value_bytes_of_lt _ (by simpa using w.toNat_lt)

/-- A date field over the bytes of a word: no date for zero, else the date of
the word's fields when they name a day, else a decoding error of the field. -/
theorem scalar_date (hcal : cal.Lawful) (htype : f.type = .date) :
    scalar cal (f.endian.bytes 4 w.toNat) table f =
      if w = 0 then .ok (date none)
      else if Calendar.IsDate (w.toNat / 65536) (w.toNat / 256 % 256) (w.toNat % 256) then
        .ok (date (some ⟨w.toNat / 65536, w.toNat / 256 % 256, w.toNat % 256⟩))
      else .error (.decoding table f.name
        (Date.notADate (w.toNat / 65536) (w.toNat / 256 % 256) (w.toNat % 256))) := by
  simp only [scalar, htype, FieldType.fixedSize?, Endian.length_bytes, value_bytes_word,
    bne_self_eq_false, Bool.false_eq_true, if_false, UInt32.ofNat_toNat, Nat.toUInt32_eq]
  rw [Date.unpack_eq hcal]
  split_ifs <;> rfl

/-- A time field over the bytes of a word: the time of the word's fields when
they are within a day, else a decoding error of the field. -/
theorem scalar_time (hcal : cal.Lawful) (htype : f.type = .time) :
    scalar cal (f.endian.bytes 4 w.toNat) table f =
      if w.toNat % 256 ≤ 99 ∧ w.toNat / 16777216 % 128 < 24 ∧ w.toNat / 65536 % 256 < 60 ∧
          w.toNat / 256 % 256 < 60 then
        .ok (time ⟨w.toNat / 16777216 % 128, w.toNat / 65536 % 256, w.toNat / 256 % 256,
          10 * (w.toNat % 256)⟩)
      else .error (.decoding table f.name (TimeOfDay.notATime (w.toNat / 16777216 % 128)
        (w.toNat / 65536 % 256) (w.toNat / 256 % 256) (w.toNat % 256))) := by
  simp only [scalar, htype, FieldType.fixedSize?, Endian.length_bytes, value_bytes_word,
    bne_self_eq_false, Bool.false_eq_true, if_false, UInt32.ofNat_toNat, Nat.toUInt32_eq]
  rw [TimeOfDay.unpack_eq hcal]
  split_ifs <;> rfl

end Words

/-- A date field over a packed date reads the date back. -/
theorem scalar_date_pack {cal : Calendar} {y m d : Nat} (hcal : cal.Lawful) (table : String)
    (f : Field) (htype : f.type = .date) (hy : y < 65536) (hvalid : Calendar.IsDate y m d) :
    scalar cal (f.endian.bytes 4 (Date.pack y m d).toNat) table f = .ok (date (some ⟨y, m, d⟩)) := by
  have hd := hvalid.day_le
  have hm1 : 1 ≤ m := hvalid.1
  have hm12 : m ≤ 12 := hvalid.2.1
  have hpack := @Date.toNat_pack y m d hy (by omega) (by omega)
  -- the packed word is not zero, since the month is at least 1
  have hne : Date.pack y m d ≠ 0 := by
    intro h0
    have hzero : (Date.pack y m d).toNat = 0 := by rw [h0]; rfl
    omega
  have hy' : (Date.pack y m d).toNat / 65536 = y := by omega
  have hm' : (Date.pack y m d).toNat / 256 % 256 = m := by omega
  have hd' : (Date.pack y m d).toNat % 256 = d := by omega
  rw [scalar_date _ table f hcal htype, if_neg hne, hy', hm', hd', if_pos hvalid]

/-- A time field over a packed time of day reads the time back, at ten
milliseconds to the hundredth. -/
theorem scalar_time_pack {cal : Calendar} {h m s c : Nat} (hcal : cal.Lawful) (table : String)
    (f : Field) (htype : f.type = .time) (hh : h < 24) (hm : m < 60) (hs : s < 60) (hc : c ≤ 99) :
    scalar cal (f.endian.bytes 4 (TimeOfDay.pack h m s c).toNat) table f =
      .ok (time ⟨h, m, s, 10 * c⟩) := by
  have hpack := @TimeOfDay.toNat_pack h m s c (by omega) (by omega) (by omega) (by omega)
  have hh' : (TimeOfDay.pack h m s c).toNat / 16777216 % 128 = h := by omega
  have hm' : (TimeOfDay.pack h m s c).toNat / 65536 % 256 = m := by omega
  have hs' : (TimeOfDay.pack h m s c).toNat / 256 % 256 = s := by omega
  have hc' : (TimeOfDay.pack h m s c).toNat % 256 = c := by omega
  rw [scalar_time _ table f hcal htype, hh', hm', hs', hc', if_pos ⟨hc, hh, hm, hs⟩]

/-- **Dates and times read back from their words.** Under any calendar that
behaves as the date library documents, for every word, written in the field's
byte order: a date field gives no date exactly for the word zero,
else the date of the word's year (its high half), month and day (its two low
bytes) when they name a day of the proleptic Gregorian calendar, and else a
decoding error of the field. A time field gives the time of the word's hours
(the seven bits under its top bit, which is ignored), minutes, seconds and
hundredths, at ten milliseconds to the hundredth, exactly when the hundredths
are at most 99 and the rest within a day, and else a decoding error of the
field. So decoding undoes the writer's packing of every date whose year is
below 65536, and of every time of day. -/
theorem date_time_words (cal : Calendar) (hcal : cal.Lawful) :
    (∀ (w : UInt32) (table : String) (f : Field), f.type = .date →
      scalar cal (f.endian.bytes 4 w.toNat) table f =
        if w = 0 then .ok (date none)
        else if Calendar.IsDate (w.toNat / 65536) (w.toNat / 256 % 256) (w.toNat % 256) then
          .ok (date (some ⟨w.toNat / 65536, w.toNat / 256 % 256, w.toNat % 256⟩))
        else .error (.decoding table f.name
          (Date.notADate (w.toNat / 65536) (w.toNat / 256 % 256) (w.toNat % 256)))) ∧
    (∀ (w : UInt32) (table : String) (f : Field), f.type = .time →
      scalar cal (f.endian.bytes 4 w.toNat) table f =
        if w.toNat % 256 ≤ 99 ∧ w.toNat / 16777216 % 128 < 24 ∧ w.toNat / 65536 % 256 < 60 ∧
            w.toNat / 256 % 256 < 60 then
          .ok (time ⟨w.toNat / 16777216 % 128, w.toNat / 65536 % 256, w.toNat / 256 % 256,
            10 * (w.toNat % 256)⟩)
        else .error (.decoding table f.name (TimeOfDay.notATime (w.toNat / 16777216 % 128)
          (w.toNat / 65536 % 256) (w.toNat / 256 % 256) (w.toNat % 256)))) ∧
    (∀ (y m d : Nat) (table : String) (f : Field), f.type = .date → y < 65536 →
      Calendar.IsDate y m d →
      scalar cal (f.endian.bytes 4 (Date.pack y m d).toNat) table f = .ok (date (some ⟨y, m, d⟩))) ∧
    (∀ (h m s c : Nat) (table : String) (f : Field), f.type = .time → h < 24 → m < 60 → s < 60 →
      c ≤ 99 →
      scalar cal (f.endian.bytes 4 (TimeOfDay.pack h m s c).toNat) table f =
        .ok (time ⟨h, m, s, 10 * c⟩)) :=
  ⟨fun w table f => scalar_date w table f hcal, fun w table f => scalar_time w table f hcal,
    fun _ _ _ table f htype hy hvalid => scalar_date_pack hcal table f htype hy hvalid,
    fun _ _ _ _ table f htype hh hm hs hc => scalar_time_pack hcal table f htype hh hm hs hc⟩

/-- A date field of four bytes. -/
def bornField : Field :=
  { (default : Field) with name := "BORN", type := .date, length := 4, elements := 1 }

/-- Under the machine's calendar, the leap day of 2024, packed as a writer packs
it, reads back from a date field. -/
theorem leapDay_reads_back :
    Calendar.Lawful Dump.machineCalendar ∧
      scalar Dump.machineCalendar (bornField.endian.bytes 4 (Date.pack 2024 2 29).toNat) "PEOPLE"
        bornField = .ok (date (some ⟨2024, 2, 29⟩)) :=
  ⟨Dump.machineCalendar_lawful,
    (date_time_words _ Dump.machineCalendar_lawful).2.2.1 2024 2 29 "PEOPLE" bornField rfl
      (by norm_num) (by decide)⟩

end Value

end TopSpeed
