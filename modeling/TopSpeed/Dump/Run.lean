import TopSpeed.Database.Memos
import TopSpeed.Dump.Command
import TopSpeed.Dump.Listing
import TopSpeed.Dump.LogFilter
import TopSpeed.Dump.Report
import TopSpeed.Dump.Workspace

/-!
# A run of the dumper

`Dump.runWith` is the whole dumper over any file system that can read a file
and write one (`FileSystem`) and any calendar for the dates and times it decodes
(`Calendar`): from the arguments and the environment to the exit code, the
bytes on standard output and the text on standard error. `Dump.run` runs it on a
working directory held in memory (`Workspace`), and gives the working directory
afterwards as well.

A run goes through these steps, and the first that fails ends it.

1. The command line is parsed; help and version texts end the run with code 0,
   usage errors with code 2.
2. The configuration file, if one is named, is read and decoded; the settings
   of the command line win over it.
3. The log filter is chosen: `RUST_LOG` when it is set and reads as a filter,
   else the log level of the settings. From here on the log lines that the
   filter lets through go to standard error.
4. The data file is opened, and the task is carried out.

An error report ends the run with code 1, after everything written so far. The
engine can also stop dead (`Error.halt`): the process then aborts, with code
134, and the output it had only buffered is lost.

Standard output is buffered as the program buffers it (`OutputBuffer`): pieces
are collected up to 8 KiB, a piece that does not fit first sends the buffer out,
and a piece as large as the buffer goes out directly.
-/

namespace TopSpeed

namespace Dump

/-! ### Output -/

/-- Standard output: what has been sent out, and what is still buffered. -/
structure OutputBuffer where
  /-- Sent out. -/
  sent : ByteArray
  /-- Buffered, at most `OutputBuffer.capacity` bytes. -/
  held : ByteArray
  deriving Inhabited

namespace OutputBuffer

/-- The size of the buffer. -/
def capacity : Nat := 8192

/-- Nothing written yet. -/
def empty : OutputBuffer := ⟨ByteArray.empty, ByteArray.empty⟩

/-- Writes one piece. -/
def push (b : OutputBuffer) (piece : ByteArray) : OutputBuffer :=
  let b := if b.held.size + piece.size > capacity then ⟨b.sent ++ b.held, ByteArray.empty⟩ else b
  if piece.size ≥ capacity then ⟨b.sent ++ piece, b.held⟩ else ⟨b.sent, b.held ++ piece⟩

/-- Everything written, as it stands after a flush. -/
def all (b : OutputBuffer) : ByteArray := b.sent ++ b.held

end OutputBuffer

/-! ### Sessions -/

/-- How a run ends early. -/
inductive Stop where
  /-- With a report of what failed. -/
  | report (r : Report)
  /-- The engine cannot go on; the process aborts. -/
  | abort (reason : String)
  deriving Inhabited

/-- What a run has produced so far. -/
structure Session where
  /-- Which log lines are written. -/
  filter : LogFilter
  /-- Standard output. -/
  out : OutputBuffer
  /-- Standard error. -/
  err : String
  deriving Inhabited

/-- What a run needs of the file system: reading a whole file, and writing one. -/
structure FileSystem (m : Type → Type) where
  /-- The bytes of the file at a path. -/
  read : String → m (Except FileError ByteArray)
  /-- Writes the file at a path, creating or replacing it. -/
  write : String → ByteArray → m (Except FileError Unit)

/-- The file system of a working directory held in memory. -/
def Workspace.fileSystem : FileSystem (StateM Workspace) :=
  ⟨fun path => do pure ((← get).read path),
   fun path bytes => do
    match (← get).write path bytes with
    | .ok w =>
      set w
      pure (.ok ())
    | .error e => pure (.error e)⟩

/-- A step of a run over a file system in the monad `m`. -/
abbrev Dumping (m : Type → Type) := ExceptT Stop (StateT Session m)

variable {m : Type → Type} [Monad m]

/-- Writes a log line if the filter lets it through. -/
def log (l : LogLine) : Dumping m Unit :=
  modify fun s => if s.filter.enabled l then { s with err := s.err ++ l.render ++ "\n" } else s

/-- Writes log lines, in order. -/
def logAll (ls : List LogLine) : Dumping m Unit :=
  modify fun s => { s with err := s.err ++ String.join ((ls.filter s.filter.enabled).map (·.render ++ "\n")) }

/-- Writes pieces to standard output. -/
def print (pieces : List String) : Dumping m Unit :=
  modify fun s => { s with out := pieces.foldl (fun b p => b.push p.toUTF8) s.out }

/-- Ends the run with a report. -/
def fail {α : Type} (r : Report) : Dumping m α := throw (.report r)

/-- The stop for an engine error, under an optional context. -/
def stopOf (context : Option String) (e : Error) : Stop :=
  if e.halts then .abort e.message
  else
    let r := Report.ofError e
    .report (match context with
      | some c => r.context c
      | none => r)

/-- Runs a step of the engine: writes its log lines, and ends the run if it fails. -/
def engine {α : Type} (context : Option String) (step : Logging α) : Dumping m α := do
  let (r, ls) := step.run
  logAll ls
  match r with
  | .ok a => pure a
  | .error e => throw (stopOf context e)

/-! ### Settings and the log filter -/

/-- The UTF-8 text of a file. -/
def readText (fs : FileSystem m) (path : String) : m (Except FileError String) := do
  match ← fs.read path with
  | .error e => pure (.error e)
  | .ok bytes =>
    match String.fromUTF8? bytes with
    | some t => pure (.ok t)
    | none => pure (.error .notText)

/-- The settings a configuration file gives, if one is named. -/
def loadConfig (fs : FileSystem m) : Option String → m (Except Report FileConfig)
  | none => pure (.ok FileConfig.empty)
  | some path => do
    match ← readText fs path with
    | .error e => pure (.error ⟨s!"reading config {path}", [e.message]⟩)
    | .ok text =>
      match FileConfig.ofText text with
      | .error message => pure (.error ⟨s!"parsing config {path}", [message]⟩)
      | .ok c => pure (.ok c)

/-- The log filter: the environment's `RUST_LOG` when it reads as one, else the log
level of the settings. -/
def chooseFilter (env : List (String × String)) (level : String) : Except Report LogFilter :=
  match (env.find? (·.1 == "RUST_LOG")).bind fun (_, v) => (LogFilter.parse v).toOption with
  | some f => .ok f
  | none =>
    match LogFilter.parse level with
    | .ok f => .ok f
    | .error e => .error ⟨s!"invalid log level '{level}'", e.message :: e.causes⟩

/-! ### Tasks -/

/-- The debug line of the engine before it reads a file. -/
def openingLine (path : String) : LogLine :=
  ⟨Target.database, .debug, "opening TPS file", [("path", path)]⟩

/-- Opens the data file. A missing file is an invalid argument. A directory can be
opened but not read: it fails on the first read, after the password is checked. -/
def openFile (fs : FileSystem m) (path : String) (password : Option String) : Dumping m Image := do
  let context := some s!"opening {path}"
  match ← (fs.read path : m _) with
  | .error .notFound => throw (stopOf context (.invalidArgument s!"{path} does not exist"))
  | .error .isDirectory =>
    log (openingLine path)
    engine context (do
      if let some p := password then
        let _ ← Logging.ofExcept (Key.ofPassword p)
      throw (.io FileError.isDirectory.message))
  | .error e => throw (stopOf context (.io e.message))
  | .ok bytes =>
    log (openingLine path)
    engine context (Database.open bytes password)

/-- The table a name picks, or the first table. -/
def pickTable (img : Image) (policy : Policy) : Option String → Dumping m Database.Table
  | some name => engine none (Database.table img name policy)
  | none => do
    match ← engine none (Database.firstTable img policy) with
    | some t => pure t
    | none => fail (.plain "file contains no tables")

/-- The pieces a row is written in. -/
def rowPieces (format : OutputFormat) (r : Row) : List String :=
  match format with
  | .text =>
    "#" :: toString r.recordNumber.toNat ::
      (r.values.flatMap fun (n, v) => [" ", n, "=", v.text]) ++ ["\n"]
  | .json => [Json.compact r.toJson, "\n"]

/-- Prints the rows of an enumeration, counting them; a failure ends the run under
`context`. -/
def printRows (format : OutputFormat) (context : String) : List (Yield Row) → Nat → Dumping m Nat
  | [], n => pure n
  | .log l :: rest, n => do
    log l
    printRows format context rest n
  | .item r :: rest, n => do
    print (rowPieces format r)
    printRows format context rest (n + 1)
  | .failure e :: _, _ => throw (stopOf (some context) e)

/-- The info line of the dumper. -/
def infoLine (message : String) (fields : List (String × String)) : LogLine :=
  ⟨Target.dumper, .info, message, fields⟩

/-- Writes a memo's bytes to a file. -/
def writeMemo (fs : FileSystem m) (path : String) (bytes : ByteArray) : Dumping m Unit := do
  match ← (fs.write path bytes : m _) with
  | .error e => fail ⟨s!"writing {path}", [e.message]⟩
  | .ok () => log (infoLine "memo written" [("path", path), ("bytes", toString bytes.size)])

/-- Carries out a task on an open file. -/
def perform (fs : FileSystem m) (cal : Calendar) (img : Image) (st : Settings) :
    Task → Dumping m Unit
  | .tables => do
    let ts ← engine (some "listing tables") (Database.tables img st.policy)
    print [Listing.tables st.format ts]
  | .schema (some name) => do
    let t ← engine none (Database.table img name st.policy)
    print [Listing.schema st.format [t]]
  | .schema none => do
    let ts ← engine (some "listing tables") (Database.tables img st.policy)
    print [Listing.schema st.format ts]
  | .rows name limit => do
    let t ← pickTable img st.policy name
    log ⟨Target.dumper, .debug, "dumping rows", [("table", t.name)]⟩
    let ys := Database.rows cal img t.definition st.policy
    let ys := match limit with
      | some n => Yield.takeItems n ys
      | none => ys
    let count ← printRows st.format s!"reading rows of {t.name}" ys 0
    log (infoLine "done" [("table", t.name), ("rows", toString count)])
  | .memo name record index out => do
    let t ← engine none (Database.table img name st.policy)
    let v ← match ← engine none (Database.memo img t.definition record index st.policy) with
      | some v => pure v
      | none => fail (.plain s!"record {record.toNat} of {t.name} has no memo {index.toNat}")
    let bytes ← match Listing.memoBytes v with
      | .ok b => pure b
      | .error m => fail (.plain m)
    match out with
    | some path => writeMemo fs path bytes
    | none =>
      modify fun s => { s with out := s.out.push (Listing.memo st.format v bytes) }

/-- Opens the data file and carries out the task. -/
def dump (fs : FileSystem m) (cal : Calendar) (req : Request) (st : Settings) : Dumping m Unit := do
  let img ← openFile fs req.file st.password
  log (infoLine "opened TPS file" [("path", req.file), ("encrypted", toString img.header.encrypted)])
  perform fs cal img st req.task

/-! ### Whole runs -/

/-- What a run leaves. -/
structure Outcome where
  /-- The exit code. -/
  exitCode : Nat
  /-- The bytes on standard output. -/
  stdout : ByteArray
  /-- The text on standard error. -/
  stderr : String
  deriving Inhabited

/-- The message of an abort. -/
def abortText (reason : String) : String :=
  "thread 'main' panicked at topspeed-engine/src/types/decode.rs:41:10:\n" ++ reason ++
    "\nnote: run with `RUST_BACKTRACE=1` environment variable to display a backtrace\n"

/-- The settings and the log filter of a request. -/
def prepare (fs : FileSystem m) (req : Request) (env : List (String × String)) :
    m (Except Report (Settings × LogFilter)) := do
  match ← loadConfig fs req.config with
  | .error r => pure (.error r)
  | .ok file =>
    let st := Settings.resolve file req.options
    pure ((chooseFilter env st.logLevel).map fun f => (st, f))

/-- A whole run over a file system and a calendar, from the arguments and the environment. -/
def runWith (fs : FileSystem m) (cal : Calendar) (args : List String) (env : List (String × String)) :
    m Outcome :=
  match Cli.parse program args with
  | .error (.show text) => pure ⟨0, text.toUTF8, ""⟩
  | .error (.fail text) => pure ⟨2, ByteArray.empty, text⟩
  | .ok parsed => do
    let req := Request.ofMatches parsed
    match ← prepare fs req env with
    | .error r => pure ⟨1, ByteArray.empty, r.render⟩
    | .ok (st, filter) =>
      let (r, s) ← ((dump fs cal req st).run).run ⟨filter, OutputBuffer.empty, ""⟩
      pure (match r with
        | .ok () => ⟨0, s.out.all, s.err⟩
        | .error (.report rep) => ⟨1, s.out.all, s.err ++ rep.render⟩
        | .error (.abort reason) => ⟨134, s.out.sent, s.err ++ abortText reason⟩)

/-- A whole run on a working directory held in memory: its outcome, and the working
directory afterwards. -/
def run (cal : Calendar) (args : List String) (w : Workspace) (env : List (String × String)) :
    Outcome × Workspace :=
  (runWith Workspace.fileSystem cal args env).run w

end Dump

end TopSpeed
