import TopSpeed.Dump.Run
/-!
# The machine the dumper runs on

What the dumper takes from the machine and does not decide itself: the real file
system, and the calendar of the date library the program is linked with.

A failure of the system is told apart by its error code: a missing file, a
directory and a path below a file each have their own `FileError`, and any
other failure keeps the system's description and code.

The calendar is the proleptic Gregorian calendar: a year divisible by 4 is a
leap year unless it is divisible by 100 and not by 400, and year 0 is a leap
year. The library holds the years up to `Dump.lastYear`. A time of day has fewer
than 24 hours, 60 minutes and 60 seconds, and fewer than 1000 milliseconds
except within a leap second, which only the last second of a minute can hold.
-/

namespace TopSpeed.Dump

/-- The error code of a system failure, when it has one. -/
def systemCode : IO.Error → Option UInt32
  | .alreadyExists _ c _ | .otherError c _ | .resourceBusy c _ | .resourceVanished c _
  | .unsupportedOperation c _ | .hardwareFault c _ | .unsatisfiedConstraints c _
  | .illegalOperation c _ | .protocolError c _ | .timeExpired c _ | .interrupted _ c _
  | .noFileOrDirectory _ c _ | .invalidArgument _ c _ | .permissionDenied _ c _
  | .resourceExhausted _ c _ | .inappropriateType _ c _ | .noSuchThing _ c _ => some c
  | _ => none

/-- The error number of a code; some calls report it negated. -/
def errorNumber (c : UInt32) : Nat :=
  if c.toNat ≥ Nat.pow 2 31 then Nat.pow 2 32 - c.toNat else c.toNat

/-- The failure of a file operation, by its error number. -/
def fileErrorOf (e : IO.Error) : FileError :=
  match (systemCode e).map errorNumber with
  | some 2 => .notFound
  | some 20 => .notDirectory
  | some 21 => .isDirectory
  | some n => .system s!"{e} (os error {n})"
  | none => .system (toString e)

/-- The files of the machine. -/
def machineFiles : FileSystem IO :=
  ⟨fun path => do
    try
      let bytes ← IO.FS.readBinFile path
      pure (.ok bytes)
    catch e => pure (.error (fileErrorOf e)),
   fun path bytes => do
    try
      IO.FS.writeBinFile path bytes
      pure (.ok ())
    catch e => pure (.error (fileErrorOf e))⟩

/-! ### The calendar -/

/-- Whether a year is a leap year of the Gregorian calendar. -/
def isLeapYear (y : Nat) : Bool := y % 4 == 0 && (y % 100 != 0 || y % 400 == 0)

/-- The number of days of a month of a year. -/
def monthDays (y m : Nat) : Nat :=
  if m == 2 then (if isLeapYear y then 29 else 28)
  else if m == 4 || m == 6 || m == 9 || m == 11 then 30
  else 31

/-- Whether year, month and day name a day of the calendar. -/
def isCalendarDate (y m d : Nat) : Bool := 1 ≤ m && m ≤ 12 && 1 ≤ d && d ≤ monthDays y m

/-- The last year the date library holds. -/
def lastYear : Nat := 262143

/-- Whether hours, minutes, seconds and milliseconds name a time of day: within a
day, and below 1000 milliseconds unless in a leap second. -/
def isTimeOfDay (h m s ms : Nat) : Bool :=
  h < 24 && m < 60 && s < 60 && (ms < 1000 || s == 59 && ms < 2000)

/-- The calendar of the machine. -/
def machineCalendar : Calendar :=
  ⟨fun y m d => if y ≤ lastYear && isCalendarDate y m d then some ⟨y, m, d⟩ else none,
   fun h m s ms => if isTimeOfDay h m s ms then some ⟨h, m, s, ms⟩ else none⟩

end TopSpeed.Dump
