/-!
# Dates and times of day

A date field packs the year into the high 16 bits, the month and the day into
the two low bytes; zero means no date. A time field packs hours (seven bits),
minutes, seconds and hundredths of a second from the high byte to the low.

Which year, month and day name a date, and which hours, minutes, seconds and
milliseconds name a time of day, is not the decoder's to say: it asks the date
library the program is linked with, here a `Calendar` given as a parameter. The
decoder itself refuses hundredths above 99 before it asks, and words the
calendar refuses are errors whose text it writes from the word's fields.

Dates print as `YYYY-MM-DD`, a year past 9999 with a `+` and five digits; times
print as `HH:MM:SS`, with `.mmm` milliseconds when there are any.
-/

namespace TopSpeed

/-- A calendar date. -/
structure Date where
  /-- The year. -/
  year : Nat
  /-- The month, 1 to 12. -/
  month : Nat
  /-- The day of the month. -/
  day : Nat
  deriving Repr, Inhabited, DecidableEq

/-- A time of day to the millisecond. -/
structure TimeOfDay where
  /-- Hours, below 24. -/
  hour : Nat
  /-- Minutes, below 60. -/
  minute : Nat
  /-- Seconds, below 60. -/
  second : Nat
  /-- Milliseconds, past 999 only within a leap second. -/
  milli : Nat
  deriving Repr, Inhabited, DecidableEq

/-- `n` written with at least `width` digits. -/
def padNat (width n : Nat) : String :=
  let s := toString n
  String.ofList (List.replicate (width - s.length) '0') ++ s

/-- The calendar of the date library: the date that a year, month and day name,
and the time of day that hours, minutes, seconds and milliseconds name, when
there is one. -/
structure Calendar where
  /-- The date of a year, a month and a day, if they name one. -/
  date? : Nat → Nat → Nat → Option Date
  /-- The time of day of hours, minutes, seconds and milliseconds, if they name one. -/
  time? : Nat → Nat → Nat → Nat → Option TimeOfDay

namespace Date

/-- Unpacks a date word: `none` for zero, else the date the calendar gives its
fields, or the reason it is none. -/
def unpack (cal : Calendar) (w : UInt32) : Except String (Option Date) :=
  if w == 0 then .ok none
  else
    let y := (w >>> 16).toNat
    let m := ((w >>> 8) &&& 0xFF).toNat
    let d := (w &&& 0xFF).toNat
    match cal.date? y m d with
    | some date => .ok (some date)
    | none => .error s!"{padNat 4 y}-{padNat 2 m}-{padNat 2 d} is not a calendar date"

/-- The text of a date. -/
def text (d : Date) : String :=
  let year := if d.year ≤ 9999 then padNat 4 d.year else "+" ++ padNat 5 d.year
  year ++ "-" ++ padNat 2 d.month ++ "-" ++ padNat 2 d.day

end Date

namespace TimeOfDay

/-- Unpacks a time word, with ten milliseconds to the hundredth, or says why it
is no time of day. -/
def unpack (cal : Calendar) (w : UInt32) : Except String TimeOfDay :=
  let h := ((w >>> 24) &&& 0x7F).toNat
  let m := ((w >>> 16) &&& 0xFF).toNat
  let s := ((w >>> 8) &&& 0xFF).toNat
  let c := (w &&& 0xFF).toNat
  if c > 99 then .error s!"{c} centiseconds"
  else
    match cal.time? h m s (c * 10) with
    | some t => .ok t
    | none => .error s!"{padNat 2 h}:{padNat 2 m}:{padNat 2 s}.{padNat 2 c} is not a time of day"

/-- The text of a time of day. -/
def text (t : TimeOfDay) : String :=
  padNat 2 t.hour ++ ":" ++ padNat 2 t.minute ++ ":" ++ padNat 2 t.second ++
    (if t.milli == 0 then "" else "." ++ padNat 3 t.milli)

end TimeOfDay

end TopSpeed
