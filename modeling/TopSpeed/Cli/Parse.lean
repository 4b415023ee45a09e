import TopSpeed.Cli.Help
import TopSpeed.Cli.Similar
/-!
# Parsing a command line

The arguments are read left to right against the top command, until one names a
subcommand; the rest belong to it. An argument is:

* `--` — every later argument is a positional value;
* `--name` or `--name=value` — a long flag;
* `-abc` — short flags; an option among them takes the rest of the cluster, after
  an optional `=`, as its value;
* anything else — the value of the option waiting for one, a subcommand name
  (unless an option is waiting), or the next positional value.

A value is checked when the next argument is taken up, or at the end; a value
given in the same argument as its flag is checked at once. An option given
twice is an error. The help and version flags stop the parse and print their
text; the `help` subcommand prints the help of the subcommand it names.

When the arguments end, the subcommand's required arguments are checked, then
the top command's: a subcommand must be given, and with no argument at all the
help is printed as an error.
-/

namespace TopSpeed

namespace Cli

/-! ### Numbers -/

/-- The value of a digit character. -/
def digit? (c : Char) : Option Nat :=
  if c.isDigit then some (c.toNat - '0'.toNat) else none

/-- Reads digits up to a bound, reporting the first problem from the left: a
character that is not a digit, or a value above `bound`. -/
def readDigits (bound : Nat) (tooBig : String) : List Char → Nat → Except String Nat
  | [], acc => .ok acc
  | c :: cs, acc =>
    match digit? c with
    | none => .error "invalid digit found in string"
    | some d =>
      if acc * 10 + d > bound then .error tooBig
      else readDigits bound tooBig cs (acc * 10 + d)

/-- Reads a signed 64-bit number: an optional sign, then digits. -/
def readI64 (s : String) : Except String Int :=
  match s.toList with
  | [] => .error "cannot parse integer from empty string"
  | ['+'] | ['-'] => .error "invalid digit found in string"
  | '-' :: ds => (fun n => -(n : Int)) <$>
      readDigits (Nat.pow 2 63) "number too small to fit in target type" ds 0
  | '+' :: ds => (fun n => (n : Int)) <$>
      readDigits (Nat.pow 2 63 - 1) "number too large to fit in target type" ds 0
  | ds => (fun n => (n : Int)) <$> readDigits (Nat.pow 2 63 - 1) "number too large to fit in target type" ds 0

/-- Reads an unsigned 64-bit number: an optional `+`, then digits. -/
def readU64 (s : String) : Except String Nat :=
  match s.toList with
  | [] => .error "cannot parse integer from empty string"
  | ['+'] | ['-'] => .error "invalid digit found in string"
  | '+' :: ds => readDigits (Nat.pow 2 64 - 1) "number too large to fit in target type" ds 0
  | ds => readDigits (Nat.pow 2 64 - 1) "number too large to fit in target type" ds 0

/-! ### Outcomes -/

/-- How a parse ends without a result. -/
inductive Exit where
  /-- Print the text on standard output; success. -/
  | show (text : String)
  /-- Print the text on standard error; a usage error. -/
  | fail (text : String)
  deriving Inhabited

/-- The values given to one command: argument ids and raw values, in order. -/
abbrev Values := List (String × String)

/-- The arguments of a whole command line. -/
structure Matches where
  /-- The values of the top command. -/
  top : Values
  /-- The subcommand and its values. -/
  sub : String × Values
  deriving Inhabited

/-- A value, or the argument waiting for one. -/
inductive Pending where
  | none
  | awaiting (a : Arg)
  | holding (a : Arg) (v : String)
  deriving Inhabited

/-- Where the parse of one command stands. -/
structure State where
  /-- The values checked so far. -/
  values : Values
  /-- The value not yet checked. -/
  pending : Pending
  /-- The index of the next positional argument. -/
  pos : Nat
  /-- Whether `--` was seen. -/
  trailing : Bool
  deriving Inhabited

/-- The state before the first argument. -/
def State.start : State := ⟨[], .none, 0, false⟩

/-- The ids given so far. -/
def State.used (s : State) : List String := s.values.map (·.1)

/-- The command being parsed: its arguments, how its usage is named, and its
subcommands (none for a subcommand). -/
structure Scope where
  /-- The arguments, built-in flags included. -/
  args : List Arg
  /-- The usage name. -/
  usageName : String
  /-- The subcommands, `help` included. -/
  subcommands : List Command
  /-- The help text. -/
  help : String
  deriving Inhabited

namespace Scope

/-- The full usage line. -/
def usage (sc : Scope) : String := fullUsage sc.usageName sc.args (!sc.subcommands.isEmpty)

/-- The usage line for an error about the arguments `used`. -/
def usageWith (sc : Scope) (used : List String) : String :=
  usageFor sc.usageName sc.args (!sc.subcommands.isEmpty) used

/-- Whether the command has positional arguments. -/
def hasPositionals (sc : Scope) : Bool := sc.args.any (·.isPositional)

/-- The usage line of an error about a value given to a flag that takes none: the
flag, then the command's own arguments taken together as one group if a value was
already checked, else its positional arguments; values not yet checked count for
nothing. -/
def attachedValueUsage (sc : Scope) (s : State) (flag : Arg) : String :=
  let members := ownArgs sc.args
  let given := s.values.any fun (id, _) => members.any (·.id == id)
  " ".intercalate ([sc.usageName, flag.display none] ++
    (if given then [groupText members] else (positionals sc.args).map (·.display none)) ++
    (if sc.subcommands.isEmpty then [] else ["<COMMAND>"]))

end Scope

/-! ### Errors -/

/-- The error for an option given without a value. -/
def emptyValue (a : Arg) : Failure :=
  let vs := a.choices
  ⟨s!"a value is required for '{a.name}' but none was supplied" ++
    (if vs.isEmpty then "" else "\n  " ++ possibleValues vs), [], none⟩

/-- The error for a value outside the possible values; the empty value reads as a
missing one. -/
def invalidValue (a : Arg) (v : String) : Failure :=
  if v.isEmpty then emptyValue a else
  let tip := match (Similar.candidates v a.choices).getLast? with
    | some best => [s!"a similar value exists: '{best}'"]
    | none => []
  ⟨s!"invalid value '{v}' for '{a.name}'\n  " ++ possibleValues a.choices, tip, none⟩

/-- The error for a value its reader refused. -/
def refusedValue (a : Arg) (v reason : String) : Failure :=
  ⟨s!"invalid value '{v}' for '{a.name}': {reason}", [], none⟩

/-- The reason a value is refused by its reader, if it is. -/
def ValueKind.refusal (v : String) : ValueKind → Option String
  | .text | .path => none
  | .u32 =>
    match readI64 v with
    | .error e => some e
    | .ok n => if 0 ≤ n ∧ n ≤ 4294967295 then none else some s!"{n} is not in 0..=4294967295"
  | .size =>
    match readU64 v with
    | .error e => some e
    | .ok _ => none
  | .oneOf _ => none
  | .checked f => f v

/-- Checks the pending value and records it. -/
def resolve (sc : Scope) (s : State) : Except Failure State :=
  match s.pending with
  | .none => .ok s
  | .awaiting a => .error (emptyValue a)
  | .holding a v =>
    if s.used.contains a.id then
      .error ⟨s!"the argument '{a.name}' cannot be used multiple times", [], some sc.usage⟩
    else if !a.choices.isEmpty && !a.choices.contains v then .error (invalidValue a v)
    else if a.kind matches .path && v.isEmpty then .error (emptyValue a)
    else match a.kind.refusal v with
      | some reason => .error (refusedValue a v reason)
      | none => .ok { s with values := s.values ++ [(a.id, v)], pending := .none }

/-- The state after the pending value is checked, when an error follows anyway: a
value that fails its check is dropped. -/
def settle (sc : Scope) (s : State) : State :=
  match resolve sc s with
  | .ok s' => s'
  | .error _ => { s with pending := .none }

/-- The tip for passing a flag-like word as a positional value. -/
def trailingTip (word : String) : String := s!"to pass '{word}' as a value, use '-- {word}'"

/-- The error for a word that is not an argument of the command. -/
def unexpected (sc : Scope) (word : String) (tips : List String) (used : List String) : Failure :=
  ⟨s!"unexpected argument '{word}' found", tips, some (sc.usageWith used)⟩

/-- The error for an unknown long flag, with what it probably meant: a similar long
flag of the command, or else a similar long flag of a subcommand named later. -/
def unknownLong (sc : Scope) (s : State) (name : String) (rest : List String) : Failure :=
  let s := settle sc s
  let longs := sc.args.filterMap (·.long)
  match (Similar.candidates name longs).getLast? with
  | some best =>
    let used := match sc.args.find? (·.long == some best) with
      | some a => s.used ++ [a.id]
      | none => s.used
    unexpected sc ("--" ++ name) [s!"a similar argument exists: '--{best}'"] used
  | none =>
    let inSubs := sc.subcommands.filterMap fun c =>
      let subLongs := (c.args ++ (if c.name == "help" then [] else [Arg.helpFlag])).filterMap (·.long)
      match (Similar.candidates name subLongs).getLast?, rest.idxOf? c.name with
      | some flag, some place => some (place, c.name, flag)
      | _, _ => none
    let best := inSubs.foldl (fun acc x => match acc with
      | some y => if x.1 < y.1 then some x else some y
      | none => some x) none
    match best with
    | some (_, sub, flag) => unexpected sc ("--" ++ name) [s!"'{sub} --{flag}' exists"] s.used
    | none =>
      let tips := if !s.trailing && sc.hasPositionals then [trailingTip ("--" ++ name)] else []
      unexpected sc ("--" ++ name) tips s.used

/-- The error for a word left over when no positional argument is free. -/
def leftOver (sc : Scope) (s : State) (word : String) : Failure :=
  let names := sc.subcommands.map (·.name)
  if s.trailing && names.contains word then
    ⟨s!"unexpected argument '{word}' found",
      [s!"subcommand '{word}' exists; to use it, remove the '--' before it"], some sc.usage⟩
  else
    let similar := Similar.candidates word names
    if !names.isEmpty && !similar.isEmpty then
      ⟨s!"unrecognized subcommand '{word}'", similarTip "subcommand" similar, some sc.usage⟩
    else unexpected sc word [] []

/-! ### The parse of one command -/

/-- How the parse of one command ends. -/
inductive Step where
  /-- Stop: print something and exit. -/
  | stop (e : Exit)
  /-- The arguments ended. -/
  | done (s : State)
  /-- A subcommand was named; the rest is its. -/
  | enter (s : State) (sub : Command) (rest : List String)
  deriving Inhabited

/-- Ends a step with an error. -/
def Step.failure (f : Failure) : Step := .stop (.fail f.render)

/-- Continues after checking the pending value. -/
def Step.after (sc : Scope) (s : State) (k : State → Step) : Step :=
  match resolve sc s with
  | .ok s' => k s'
  | .error f => .failure f

/-- Whether a word looks like a flag. -/
def isFlagLike (w : String) : Bool := w.startsWith "-" && w != "-"

/-- The help shown by the `help` subcommand for the names that follow it. -/
def helpFor (p : Program) : List String → Exit
  | [] => .show p.topHelp
  | name :: rest =>
    match p.subcommand? name with
    | none => .fail (Failure.render ⟨s!"unrecognized subcommand '{name}'", [], some p.topUsage⟩)
    | some c =>
      match rest with
      | [] => .show (if c.name == "help" then
            helpText c.about (fullUsage (p.subUsageName c) c.args false) [] c.args
          else p.subHelp c)
      | r :: _ =>
        .fail (Failure.render ⟨s!"unrecognized subcommand '{r}'", [], some (p.subUsage c)⟩)

mutual

/-- Reads the arguments of one command. -/
def walk (p : Program) (sc : Scope) (s : State) : List String → Step
  | [] => .done s
  | w :: ws =>
    if s.trailing then positional p sc s w ws
    else
      let waiting := match s.pending with
        | .awaiting _ => true
        | _ => false
      match (if waiting then none else sc.subcommands.find? (·.name == w)) with
      | some c => if c.name == "help" then .stop (helpFor p ws) else .enter s c ws
      | none =>
        if w == "--" then walk p sc { s with trailing := true } ws
        else if w.startsWith "--" then longFlag p sc s ((w.drop 2).toString) ws
        else if isFlagLike w then shortFlags p sc s ((w.drop 1).toString) ws
        else match s.pending with
          | .awaiting a => walk p sc { s with pending := .holding a w } ws
          | _ => positional p sc s w ws
termination_by ws => (ws.length, 0)

/-- Takes a positional value. -/
def positional (p : Program) (sc : Scope) (s : State) (w : String) (ws : List String) : Step :=
  match (positionals sc.args)[s.pos]? with
  | some a => Step.after sc s fun s' =>
      walk p sc { s' with pending := .holding a w, pos := s'.pos + 1 } ws
  | none => Step.failure (leftOver sc (settle sc s) w)
termination_by (ws.length, 1)

/-- Takes a long flag, with its value after `=` if given. -/
def longFlag (p : Program) (sc : Scope) (s : State) (body : String) (ws : List String) : Step :=
  let name := (body.takeWhile (· != '=')).toString
  let value : Option String := if body.contains '=' then
      some ((body.dropWhile (· != '=')).drop 1).toString else none
  match sc.args.find? (·.long == some name) with
  | none => Step.failure (unknownLong sc s name ws)
  | some a =>
    match a.role, value with
    | .option, some v => Step.after sc s fun s' =>
        Step.after sc { s' with pending := .holding a v } fun s'' => walk p sc s'' ws
    | .option, none => Step.after sc s fun s' => walk p sc { s' with pending := .awaiting a } ws
    | _, some v =>
      Step.failure ⟨s!"unexpected value '{v}' for '--{name}' found; no more were expected", [],
        some (sc.attachedValueUsage s a)⟩
    | .help, none => Step.after sc s fun _ => .stop (.show sc.help)
    | .version, none => Step.after sc s fun _ => .stop (.show (p.versionText))
    | _, none => walk p sc s ws
termination_by (ws.length, 1)

/-- Takes a cluster of short flags. -/
def shortFlags (p : Program) (sc : Scope) (s : State) (body : String) (ws : List String) : Step :=
  match body.toList with
  | [] => walk p sc s ws
  | c :: more =>
    match sc.args.find? (·.short == some c) with
    | none =>
      let word := "-" ++ c.toString
      let tips := if !s.trailing && sc.hasPositionals then [trailingTip word] else []
      Step.failure (unexpected sc word tips [])
    | some a =>
      match a.role with
      | .option =>
        let attached := match more with
          | [] => none
          | '=' :: r => some r
          | r => some r
        match attached with
        | none => Step.after sc s fun s' => walk p sc { s' with pending := .awaiting a } ws
        | some rest => Step.after sc s fun s' =>
          Step.after sc { s' with pending := .holding a (String.ofList rest) } fun s'' => walk p sc s'' ws
      | .help => Step.after sc s fun _ => .stop (.show sc.help)
      | .version => Step.after sc s fun _ => .stop (.show (p.versionText))
      | _ => walk p sc s ws
termination_by (ws.length, 1)

end

/-! ### The whole command line -/

/-- The error for required arguments that were not given. -/
def missingRequired (sc : Scope) (s : State) : Option Failure :=
  let missing := (positionals sc.args).filter fun a => a.isRequired && !s.used.contains a.id
  if missing.isEmpty then none
  else some ⟨"the following required arguments were not provided:" ++
      String.join (missing.map fun a => "\n  " ++ a.name), [],
    some (sc.usageWith (s.used ++ missing.map (·.id)))⟩

/-- The scope of the top command. -/
def Program.topScope (p : Program) : Scope :=
  ⟨p.topArgs, p.top.name, p.allSubcommands, p.topHelp⟩

/-- The scope of a subcommand. -/
def Program.subScope (p : Program) (c : Command) : Scope :=
  ⟨Program.subArgs c, p.subUsageName c, [], p.subHelp c⟩

/-- Finishes the parse of a command: checks the pending value and the required
arguments. -/
def finish (sc : Scope) (s : State) : Except Failure State := do
  let s ← resolve sc s
  match missingRequired sc s with
  | some f => throw f
  | none => pure s

/-- Parses a command line. -/
def parse (p : Program) (args : List String) : Except Exit Matches :=
  let top := p.topScope
  match walk p top State.start args with
  | .stop e => .error e
  | .done s =>
    match resolve top s with
    | .error f => .error (.fail f.render)
    | .ok s =>
      if s.values.isEmpty then .error (.fail p.topHelp)
      else .error (.fail (Failure.render
        ⟨s!"'{p.top.name}' requires a subcommand but one was not provided\n  [subcommands: " ++
          ", ".intercalate (p.allSubcommands.map (·.name)) ++ "]", [], some top.usage⟩))
  | .enter s c rest =>
    let sub := p.subScope c
    match walk p sub State.start rest with
    | .stop e => .error e
    | .enter .. => .error (.fail "")
    | .done t =>
      match finish sub t, finish top s with
      | .error f, _ => .error (.fail f.render)
      | .ok _, .error f => .error (.fail f.render)
      | .ok t, .ok s => .ok ⟨s.values, (c.name, t.values)⟩

end Cli

end TopSpeed
