import TopSpeed.Cli.Spec
/-!
# Help texts, usage lines and error messages

A usage line names the command, then `[OPTIONS]` if it has options besides the
built-in flags, then its positional arguments (`<NAME>` when required, `[NAME]`
when not), then `<COMMAND>` if it has subcommands. A subcommand is named after
the program, the required arguments of the top command and its own name:
`tpsdump <FILE> rows`.

An error about the arguments that were given shows a narrower usage line: the
options among them, without `[OPTIONS]`, then every positional argument, each
shown as required or not as it is declared. An error about a value given to a
flag that takes none shows the flag, then either the command's own arguments as
one group (`<FILE|--config <CONFIG>|...>`), once one of them has a value, or all
its positional arguments.

A help text is the command's description, its usage line, and sections listing
its subcommands, its positional arguments and its options, each entry padded so
that the descriptions line up two columns after the longest entry.

An error message is `error: ` and the message, then tips, the usage line if any,
and a pointer to `--help`.
-/

namespace TopSpeed

namespace Cli

/-- `n` spaces. -/
def spaces (n : Nat) : String := String.ofList (List.replicate n ' ')

/-- A text without its trailing white space. -/
def trimEnd (s : String) : String :=
  String.ofList (s.toList.reverse.dropWhile Char.isWhitespace).reverse

/-- The positional arguments among some arguments, in order. -/
def positionals (args : List Arg) : List Arg := args.filter (·.isPositional)

/-- The flags and options among some arguments, in order. -/
def flags (args : List Arg) : List Arg := args.filter (!·.isPositional)

/-- Whether a usage line shows `[OPTIONS]`. -/
def needsOptions (args : List Arg) : Bool := args.any (·.isOption)

/-- The full usage line of a command. -/
def fullUsage (name : String) (args : List Arg) (hasSubcommands : Bool) : String :=
  " ".intercalate ([name] ++ (if needsOptions args then ["[OPTIONS]"] else []) ++
    (positionals args).map (·.display none) ++
    (if hasSubcommands then ["<COMMAND>"] else []))

/-- The usage line shown with an error about the arguments `used`. -/
def smartUsage (name : String) (args : List Arg) (hasSubcommands : Bool) (used : List String) :
    String :=
  let opts := (used.eraseDups.filterMap fun id => args.find? (·.id == id)).filter (!·.isPositional)
  " ".intercalate ([name] ++ opts.map (·.display (some true)) ++
    (positionals args).map (·.display none) ++ (if hasSubcommands then ["<COMMAND>"] else []))

/-- The arguments a command declares itself, the built-in flags left out. -/
def ownArgs (args : List Arg) : List Arg :=
  args.filter fun a => match a.role with
    | .help | .version => false
    | _ => true

/-- Arguments taken together as one group in a usage line: `<FILE|--config <CONFIG>>`. -/
def groupText (members : List Arg) : String :=
  "<" ++ "|".intercalate (members.map fun a => if a.isPositional then a.valueName else a.display none) ++
    ">"

/-- The usage line for an error: the full one when no argument is in question. -/
def usageFor (name : String) (args : List Arg) (hasSubcommands : Bool) (used : List String) :
    String :=
  if used.isEmpty then fullUsage name args hasSubcommands
  else smartUsage name args hasSubcommands used

/-- The list of possible values, as shown in help and errors. -/
def possibleValues (vs : List String) : String :=
  "[possible values: " ++ ", ".intercalate vs ++ "]"

/-- The description of an argument in a help text, with its possible values. -/
def Arg.helpText (a : Arg) : String :=
  match a.choices with
  | [] => a.help
  | vs => (if a.help.isEmpty then "" else a.help ++ " ") ++ possibleValues vs

/-- The help line of an argument, padded for a section whose longest entry is
`longest` columns wide. -/
def argLine (longest : Nat) (a : Arg) : String :=
  let self := (a.display none).length
  if a.isPositional then
    "  " ++ a.display none ++ spaces (longest + 2 - self) ++ a.helpText
  else
    let short := match a.short, a.long with
      | some s, some _ => "-" ++ s.toString ++ ", "
      | some s, none => "-" ++ s.toString
      | none, _ => "    "
    let long := match a.long with
      | some l => "--" ++ l
      | none => ""
    let value := if a.isOption then " " ++ a.placeholder true else ""
    let pad := if a.long.isSome then longest + 2 - self else longest + 6 - self
    "  " ++ short ++ long ++ value ++ spaces pad ++ a.helpText

/-- A section of argument lines. -/
def argSection (heading : String) (args : List Arg) : List String :=
  if args.isEmpty then []
  else
    let longest := args.foldl (fun m a => max m (a.display none).length) 2
    [heading ++ ":\n" ++ "\n".intercalate (args.map (argLine longest))]

/-- The section listing subcommands. -/
def commandSection (cmds : List Command) : List String :=
  if cmds.isEmpty then []
  else
    let longest := cmds.foldl (fun m c => max m c.name.length) 2
    ["Commands:\n" ++ "\n".intercalate (cmds.map fun c =>
      "  " ++ c.name ++ spaces (longest + 2 - c.name.length) ++ c.about)]

/-- A help text. -/
def helpText (about usage : String) (cmds : List Command) (args : List Arg) : String :=
  let sections := commandSection cmds ++ argSection "Arguments" (positionals args) ++
    argSection "Options" (flags args)
  trimEnd (about ++ "\n\nUsage: " ++ usage ++ "\n\n" ++ "\n\n".intercalate sections) ++ "\n"

namespace Program

/-- The usage name of a subcommand: the program, the required arguments of the top
command, and the subcommand's name. -/
def subUsageName (p : Program) (c : Command) : String :=
  " ".intercalate ([p.top.name] ++ ((p.top.args.filter (·.isRequired)).map (·.display none)) ++
    [c.name])

/-- The full usage line of the top command. -/
def topUsage (p : Program) : String := fullUsage p.top.name p.topArgs true

/-- The full usage line of a subcommand. -/
def subUsage (p : Program) (c : Command) : String := fullUsage (p.subUsageName c) (subArgs c) false

/-- The help text of the top command. -/
def topHelp (p : Program) : String := helpText p.top.about p.topUsage p.allSubcommands p.topArgs

/-- The help text of a subcommand. -/
def subHelp (p : Program) (c : Command) : String := helpText c.about (p.subUsage c) [] (subArgs c)

/-- The version line. -/
def versionText (p : Program) : String := p.top.name ++ " " ++ p.version ++ "\n"

end Program

/-- An error about the command line. -/
structure Failure where
  /-- The message, after `error: `. -/
  message : String
  /-- Tips on what was probably meant. -/
  tips : List String
  /-- The usage line to show, if any. -/
  usage : Option String
  deriving Inhabited

/-- The text of an error about the command line. -/
def Failure.render (f : Failure) : String :=
  let tips := match f.tips with
    | [] => ""
    | t :: ts => "\n\n  tip: " ++ t ++ String.join (ts.map ("\n  tip: " ++ ·))
  let usage := match f.usage with
    | some u => "\n\nUsage: " ++ u
    | none => ""
  "error: " ++ f.message ++ tips ++ usage ++ "\n\nFor more information, try '--help'.\n"

/-- The tip naming the similar words of a kind. -/
def similarTip (kind : String) : List String → List String
  | [] => []
  | [w] => [s!"a similar {kind} exists: '{w}'"]
  | ws => [s!"some similar {kind}s exist: " ++ ", ".intercalate (ws.map fun w => s!"'{w}'")]

end Cli

end TopSpeed
