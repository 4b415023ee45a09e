import TopSpeed.Cli.Parse
import TopSpeed.Config.Settings

/-!
# The command line of the dumper

`tpsdump FILE [OPTIONS] COMMAND` reads one database file and prints one of four
things: the list of tables, their definitions, the rows of a table, or one memo.
The options before the command choose the password, the policy towards damaged
parts, the output format, the log filter, and a configuration file that gives
defaults for those four.

`Dump.program` describes the command line; the parser of `TopSpeed.Cli` checks
every value against it, so that `Request.ofMatches` only has to read values that
are known to be well formed.
-/

namespace TopSpeed

namespace Dump

open Cli

/-- The policy a command-line value names, or why it names none. -/
def policyRefusal (v : String) : Option String :=
  match Policy.ofString v with
  | .ok _ => none
  | .error e => some e.message

/-- The arguments of the top command. -/
def topArgs : List Arg :=
  [Arg.positional "file" "FILE" "TPS file to read" true .path,
   Arg.option "config" (some 'c') "config" "CONFIG"
     "TOML file with password, policy, format and log_level" .path,
   Arg.option "password" (some 'p') "password" "PASSWORD" "Password for encrypted files" .text,
   Arg.option "policy" none "policy" "POLICY"
     "strict stops at the first error, tolerant skips damaged parts" (.checked policyRefusal),
   Arg.option "format" (some 'f') "format" "FORMAT" "Output format" (.oneOf ["text", "json"]),
   Arg.option "log_level" none "log-level" "LOG_LEVEL"
     "Log level (trace, debug, info, warn, error), RUST_LOG wins when set" .text]

/-- The subcommands. -/
def commands : List Command :=
  [⟨"tables", "List tables", []⟩,
   ⟨"schema", "Show table definitions",
     [Arg.positional "table" "TABLE" "Table name, all tables when omitted" false .text]⟩,
   ⟨"rows", "Print rows with their memos joined in",
     [Arg.positional "table" "TABLE" "Table name, the first table when omitted" false .text,
      Arg.option "limit" (some 'l') "limit" "LIMIT" "Stop after this many rows" .size]⟩,
   ⟨"memo", "Print one memo, or write a blob to a file",
     [Arg.positional "table" "TABLE" "" true .text,
      Arg.positional "record" "RECORD" "" true .u32,
      Arg.positional "index" "INDEX" "" true .u32,
      Arg.option "out" (some 'o') "out" "OUT" "Write the raw bytes here instead of standard output"
        .path]⟩]

/-- The dumper's command line. -/
def program : Program :=
  ⟨⟨"tpsdump", "Dump tables, rows and memos from TopSpeed (.TPS) files", topArgs⟩, "0.1.0",
    commands⟩

/-- What the dumper is asked to print. -/
inductive Task where
  /-- The list of tables. -/
  | tables
  /-- The definition of one table, or of all. -/
  | schema (table : Option String)
  /-- The rows of one table, or of the first, at most `limit` of them. -/
  | rows (table : Option String) (limit : Option Nat)
  /-- One memo of one record, printed or written to a file. -/
  | memo (table : String) (record index : UInt32) (out : Option String)
  deriving Inhabited, Repr

/-- A whole request: the data file, the configuration file, the settings given on
the command line, and the task. -/
structure Request where
  /-- The data file. -/
  file : String
  /-- The configuration file, if any. -/
  config : Option String
  /-- The settings the command line gives; they win over the configuration file. -/
  options : FileConfig
  /-- What to print. -/
  task : Task
  deriving Inhabited

/-- The value given for an argument. -/
def value? (vs : Values) (id : String) : Option String := (vs.find? (·.1 == id)).map (·.2)

/-- A checked number. -/
def number (v : String) : Nat := (readU64 v).toOption.getD 0

/-- Reads the request from a parsed command line. -/
def Request.ofMatches (m : Matches) : Request :=
  let top := value? m.top
  let sub := value? m.sub.2
  let options : FileConfig :=
    ⟨top "password", (top "policy").bind fun v => (Policy.ofString v).toOption,
      (top "format").map fun v => if v == "json" then .json else .text, top "log_level"⟩
  let task := match m.sub.1 with
    | "schema" => Task.schema (sub "table")
    | "rows" => Task.rows (sub "table") ((sub "limit").map number)
    | "memo" =>
      Task.memo ((sub "table").getD "") (number ((sub "record").getD "0")).toUInt32
        (number ((sub "index").getD "0")).toUInt32 (sub "out")
    | _ => Task.tables
  ⟨(top "file").getD "", top "config", options, task⟩

end Dump

end TopSpeed
