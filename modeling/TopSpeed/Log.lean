import TopSpeed.Error
/-!
# Log lines

The decoder reports what it does as log lines: a target naming the part of the
library that wrote it, a level, a message, and key–value fields. A line prints
as `LEVEL message key=value …`; the target is not printed, but a log filter can
select lines by it (`TopSpeed.LogFilter`). The message, which may quote names read
from a file, has the controls a terminal would act on written out; the fields are
printed as they are.

`Logging` is a computation that writes log lines and may fail; the lines written
before a failure stay written, as they would on a terminal.
-/

namespace TopSpeed

/-- The severity of a log line, from the most verbose to the most severe. -/
inductive Level where
  | trace
  | debug
  | info
  | warn
  | error
  deriving DecidableEq, Repr, Inhabited

namespace Level

/-- The rank of a level: the more severe, the higher. -/
def rank : Level → Nat
  | trace => 0
  | debug => 1
  | info => 2
  | warn => 3
  | error => 4

/-- The level's name in upper case. -/
def name : Level → String
  | trace => "TRACE"
  | debug => "DEBUG"
  | info => "INFO"
  | warn => "WARN"
  | error => "ERROR"

end Level

/-! ### Targets

The target of a line is the path of the part of the library that wrote it, with
`::` between the parts; a filter directive for a target applies to every target
it is a prefix of. -/

namespace Target

/-- Page reads. -/
def pages : String := "topspeed_engine::storage::page"

/-- Leaf record parsing. -/
def leaves : String := "topspeed_engine::storage::record"

/-- Skipped units under the tolerant policy. -/
def policy : String := "topspeed_engine::policy"

/-- Table definition parsing. -/
def definitions : String := "topspeed_engine::records::table_def"

/-- Memo assembly. -/
def memos : String := "topspeed_engine::records::memo"

/-- Opening a file and joining tables. -/
def database : String := "topspeed_engine::file_manager::tps_file"

/-- Row assembly. -/
def rows : String := "topspeed_engine::file_manager::rows"

/-- The command-line dumper. -/
def dumper : String := "tpsdump"

end Target

/-- One line of the log. -/
structure LogLine where
  /-- The part of the library that wrote it. -/
  target : String
  /-- Its severity. -/
  level : Level
  /-- What happened. -/
  message : String
  /-- Named values, in the order they were given. -/
  fields : List (String × String) := []
  deriving Repr, Inhabited

namespace LogLine

/-- A character of a message as printed: the controls a terminal could take for the
start of a command are written out, escape, bell, backspace, form feed and delete
as `\xNN`, and the controls from `0x80` to `0x9F` as `\u{NN}`, in lower-case
hexadecimal. -/
def escapeChar (c : Char) : String :=
  let hex := String.ofList (Nat.toDigits 16 c.toNat)
  if c == '\x1b' || c == '\x07' || c == '\x08' || c == '\x0c' || c == '\x7f' then
    "\\x" ++ (if c.toNat < 16 then "0" else "") ++ hex
  else if 0x80 ≤ c.toNat && c.toNat ≤ 0x9F then "\\u" ++ "\x7b" ++ hex ++ "\x7d"
  else c.toString

/-- The line as printed: the level, the message with its terminal controls written
out, then the fields as they are. -/
def render (l : LogLine) : String :=
  l.level.name ++ " " ++ String.join (l.message.toList.map escapeChar) ++
    String.join (l.fields.map fun (k, v) => " " ++ k ++ "=" ++ v)

/-- The warning a tolerant enumeration writes when it skips a failing unit. -/
def skipping (unit : String) (e : Error) : LogLine :=
  ⟨Target.policy, .warn, s!"skipping {unit}: {e.message}", [("kind", e.kind.text)]⟩

end LogLine

/-- A computation that writes log lines and may fail; lines written before a failure stay. -/
abbrev Logging := ExceptT Error (StateM (Array LogLine))

namespace Logging

/-- Writes one log line. -/
def emit (l : LogLine) : Logging Unit := modify (·.push l)

/-- Runs a logging computation: its outcome and the lines it wrote. -/
def run {α : Type} (m : Logging α) : Except Error α × List LogLine :=
  let (r, ls) := (ExceptT.run m).run #[]
  (r, ls.toList)

/-- Lifts the outcome of a check that writes nothing. -/
def ofExcept {α : Type} : Except Error α → Logging α
  | .ok a => pure a
  | .error e => throw e

end Logging

end TopSpeed
