/-!
# Command-line specifications

A program's command line is described as data: a top command with its
arguments, and subcommands with theirs. An argument is a positional argument, an
option that takes one value, or one of the built-in flags that print the help or
the version. Every command gets the help flag `-h, --help` after its own
arguments, and the top command the version flag `-V, --version` after that;
every program with subcommands gets the `help` subcommand after its own.

The help texts, the usage lines and the parser (`TopSpeed.Cli.parse`) are all
computed from this description.
-/

namespace TopSpeed

namespace Cli

/-- How the value of an argument is read. -/
inductive ValueKind where
  /-- Any text. -/
  | text
  /-- A file path: any text but the empty one. -/
  | path
  /-- An unsigned 32-bit number, read as a signed 64-bit one and then range-checked. -/
  | u32
  /-- An unsigned machine-size number. -/
  | size
  /-- One of a fixed list of values, matched exactly. -/
  | oneOf (values : List String)
  /-- Text checked by a function giving the reason a value is refused. -/
  | checked (reason : String → Option String)
  deriving Inhabited

/-- What an argument is. -/
inductive Role where
  /-- A positional argument; `many` takes every remaining value. -/
  | positional (required : Bool) (many : Bool)
  /-- An option that takes one value. -/
  | option
  /-- The flag that prints the help. -/
  | help
  /-- The flag that prints the version. -/
  | version
  deriving Inhabited, DecidableEq

/-- One argument of a command. -/
structure Arg where
  /-- The name its value is kept under. -/
  id : String
  /-- What it is. -/
  role : Role
  /-- Its short flag, for a flag or an option. -/
  short : Option Char
  /-- Its long flag, for a flag or an option. -/
  long : Option String
  /-- The placeholder of its value, such as `FILE`. -/
  valueName : String
  /-- The line of help shown for it. -/
  help : String
  /-- How its value is read. -/
  kind : ValueKind
  deriving Inhabited

namespace Arg

/-- Whether the argument is positional. -/
def isPositional (a : Arg) : Bool :=
  match a.role with
  | .positional .. => true
  | _ => false

/-- Whether the argument is an option that takes a value. -/
def isOption (a : Arg) : Bool := a.role == .option

/-- Whether the argument must be given. -/
def isRequired (a : Arg) : Bool :=
  match a.role with
  | .positional r _ => r
  | _ => false

/-- The values it may take, when they are fixed. -/
def choices (a : Arg) : List String :=
  match a.kind with
  | .oneOf vs => vs
  | _ => []

/-- A positional argument. -/
def positional (id valueName help : String) (required : Bool) (kind : ValueKind) : Arg :=
  ⟨id, .positional required false, none, none, valueName, help, kind⟩

/-- An option with a value. -/
def option (id : String) (short : Option Char) (long valueName help : String)
    (kind : ValueKind) : Arg :=
  ⟨id, .option, short, some long, valueName, help, kind⟩

/-- The help flag. -/
def helpFlag : Arg := ⟨"help", .help, some 'h', some "help", "", "Print help", .text⟩

/-- The version flag. -/
def versionFlag : Arg := ⟨"version", .version, some 'V', some "version", "", "Print version", .text⟩

/-- The placeholder of a value: `<NAME>` when it must be given, else `[NAME]`, with
`...` after one that takes several values. -/
def placeholder (a : Arg) (required : Bool) : String :=
  let many := match a.role with
    | .positional _ m => m
    | _ => false
  (if a.isPositional && !required then s!"[{a.valueName}]" else s!"<{a.valueName}>") ++
    (if many then "..." else "")

/-- How the argument is named in messages and usage lines: its long flag (or its
short one) with the placeholder of its value, or the placeholder of a positional
argument. `required` overrides whether a positional argument shows as required. -/
def display (a : Arg) (required : Option Bool) : String :=
  let flag := match a.long, a.short with
    | some l, _ => "--" ++ l
    | none, some s => "-" ++ s.toString
    | none, none => ""
  match a.role with
  | .positional r _ => a.placeholder (required.getD r)
  | .option => flag ++ " " ++ a.placeholder true
  | _ => flag

/-- The name of the argument in messages. -/
def name (a : Arg) : String := a.display none

end Arg

/-- One command: its name, what it does, and its own arguments in declared order. -/
structure Command where
  /-- The name, as typed. -/
  name : String
  /-- One line on what it does. -/
  about : String
  /-- The arguments, built-in flags excluded. -/
  args : List Arg
  deriving Inhabited

/-- A program: the top command, its version, and its subcommands. -/
structure Program where
  /-- The top command, named after the program. -/
  top : Command
  /-- The version printed by `--version`. -/
  version : String
  /-- The subcommands, the `help` subcommand excluded. -/
  subcommands : List Command
  deriving Inhabited

namespace Program

/-- The `help` subcommand. -/
def helpCommand : Command :=
  ⟨"help", "Print this message or the help of the given subcommand(s)",
    [⟨"subcommand", .positional false true, none, none, "COMMAND",
      "Print help for the subcommand(s)", .text⟩]⟩

/-- All subcommands, the `help` subcommand last. -/
def allSubcommands (p : Program) : List Command := p.subcommands ++ [helpCommand]

/-- The subcommand of a name. -/
def subcommand? (p : Program) (name : String) : Option Command :=
  p.allSubcommands.find? (·.name == name)

/-- The arguments of the top command, built-in flags included. -/
def topArgs (p : Program) : List Arg := p.top.args ++ [Arg.helpFlag, Arg.versionFlag]

/-- The arguments of a subcommand, built-in flags included; the `help` subcommand
has no help flag. -/
def subArgs (c : Command) : List Arg :=
  if c.name == "help" then c.args else c.args ++ [Arg.helpFlag]

end Program

end Cli

end TopSpeed
