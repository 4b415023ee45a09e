import TopSpeed.Dump.Machine

/-!
# The dumper on the command line

`tpsdump FILE [OPTIONS] COMMAND` runs `TopSpeed.Dump.runWith` on the machine: on
its file system, which the run reads the files it asks for from and writes the
file the memo task asks for to, and its calendar. It hands the run `RUST_LOG`
from the environment, prints the run's output and error text, and exits with its
code.
-/

/-- Runs the dumper on the command line's arguments. -/
def main (args : List String) : IO UInt32 := do
  let env := match ← IO.getEnv "RUST_LOG" with
    | some v => [("RUST_LOG", v)]
    | none => []
  let o ← TopSpeed.Dump.runWith TopSpeed.Dump.machineFiles TopSpeed.Dump.machineCalendar args env
  let out ← IO.getStdout
  out.write o.stdout
  out.flush
  let err ← IO.getStderr
  err.putStr o.stderr
  err.flush
  pure o.exitCode.toUInt32
