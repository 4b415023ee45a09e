import TopSpeed.Log
import TopSpeed.Text.Regex
import TopSpeed.Text.Unicode
/-!
# Log filters

Which log lines are written is decided by a filter: a comma-separated list of
directives. A directive is a level on its own, which applies to every line, or a
target, optionally followed by `[span{field,...}]` and `=level`:

* `warn` — lines of level warn and above, from everywhere;
* `topspeed_engine=debug` — lines from targets starting with `topspeed_engine`;
* `tpsdump` — every level from the `tpsdump` target.

Levels are `off`, `error`, `warn`, `info`, `debug`, `trace` in any case, or the
numbers `0` to `5`. A directive starts with a letter or digit of any script, `-`,
`:`, `_` or `[`. It is read from its text trimmed of white space, but its pieces
are cut from the text as given, so a target after leading white space keeps it and
matches nothing. A field value that is not a boolean or a number is a regular
expression, which must compile (`TopSpeed.Regex.check`). A malformed directive
makes the whole filter malformed; the error says why, with its causes.

A line is written when the most specific directive that applies to it allows
its level: a directive with a longer target is more specific, and one without
a target applies last. A directive that names a span, or a field with a value,
only applies inside spans, which the dumper never opens; a directive naming
fields without values applies to lines that have those fields. When no directive
applies, the line is not written.
-/

namespace TopSpeed

/-- A level bound: lines at this level and more severe ones pass. -/
inductive LevelFilter where
  | off
  | error
  | warn
  | info
  | debug
  | trace
  deriving DecidableEq, Repr, Inhabited

namespace LevelFilter

/-- How verbose a bound is: `off` is 0, `trace` is 5. -/
def rank : LevelFilter → Nat
  | off => 0
  | error => 1
  | warn => 2
  | info => 3
  | debug => 4
  | trace => 5

/-- The verbosity of a line's level on the same scale. -/
def ofLevel : Level → Nat
  | .error => 1
  | .warn => 2
  | .info => 3
  | .debug => 4
  | .trace => 5

/-- Whether a bound lets a level through. -/
def allows (f : LevelFilter) (l : Level) : Bool := ofLevel l ≤ f.rank

/-- The message of a bad level. -/
def parseError : String :=
  "error parsing level filter: expected one of \"off\", \"error\", \"warn\", \"info\", \"debug\", \"trace\", or a number 0-5"

/-- Reads a level: a number from 0 to 5, or a name in any case; the empty text is `error`. -/
def ofString? (s : String) : Option LevelFilter :=
  let digits := match s.toList with
    | '+' :: ds => ds
    | ds => ds
  let number := if !digits.isEmpty && digits.all Char.isDigit then
      some (digits.foldl (fun n c => n * 10 + (c.toNat - '0'.toNat)) 0) else none
  match number with
  | some 0 => some off
  | some 1 => some error
  | some 2 => some warn
  | some 3 => some info
  | some 4 => some debug
  | some 5 => some trace
  | _ =>
    match s.toLower with
    | "" => some error
    | "error" => some error
    | "warn" => some warn
    | "info" => some info
    | "debug" => some debug
    | "trace" => some trace
    | "off" => some off
    | _ => none

end LevelFilter

/-- One directive of a filter. -/
structure Directive where
  /-- The target prefix it applies to, if any. -/
  target : Option String
  /-- The span it applies inside, if any. -/
  inSpan : Option String
  /-- The fields it asks for, with whether each names a value. -/
  fields : List (String × Bool)
  /-- The level bound. -/
  level : LevelFilter
  deriving Repr, Inhabited

/-- Why a filter is malformed: the message, and the messages of its causes,
outermost first. -/
structure FilterError where
  /-- What is wrong. -/
  message : String
  /-- The chain of causes. -/
  causes : List String
  deriving Repr, Inhabited

namespace Directive

/-- The error of a malformed directive. -/
def malformed : FilterError := ⟨"invalid filter directive", []⟩

/-- The error of a bad level. -/
def badLevel : FilterError := ⟨LevelFilter.parseError, [LevelFilter.parseError]⟩

/-- Reads a level after `=`: empty means every level. -/
def levelAfter (s : String) : Except FilterError LevelFilter :=
  if s.isEmpty then .ok .trace
  else match LevelFilter.ofString? s with
    | some l => .ok l
    | none => .error badLevel

/-- A lone word: a level, or else a target with every level. -/
def levelOrTarget (s : String) : LevelFilter × Option String :=
  if s.isEmpty then (.trace, none)
  else match LevelFilter.ofString? s with
    | some l => (l, none)
    | none => (.trace, some s)

/-- Whether a text reads as a floating-point number: a sign, then `inf`, `infinity`
or `nan` in any case, or digits with at most one point among them and an
exponent after them. -/
def isFloatText (s : String) : Bool :=
  let cs := match s.toList with
    | '+' :: rest | '-' :: rest => rest
    | cs => cs
  let word := (String.ofList cs).toLower
  if word == "inf" || word == "infinity" || word == "nan" then true
  else
    let whole := cs.takeWhile Char.isDigit
    let rest := cs.drop whole.length
    let (frac, rest) := match rest with
      | '.' :: more => (more.takeWhile Char.isDigit, more.drop (more.takeWhile Char.isDigit).length)
      | _ => ([], rest)
    let mantissa := !(whole.isEmpty && frac.isEmpty)
    mantissa && match rest with
      | [] => true
      | e :: more =>
        (e == 'e' || e == 'E') &&
          let digits := match more with
            | '+' :: ds | '-' :: ds => ds
            | ds => ds
          !digits.isEmpty && digits.all Char.isDigit

/-- Checks the value a field asks for: a boolean or a number is taken as it is,
anything else must be a pattern the filter can match with. -/
def fieldValue (v : String) : Except FilterError Unit :=
  if v == "true" || v == "false" || isFloatText v then .ok ()
  else match Regex.check v with
    | none => .ok ()
    | some r =>
      let chain := r.messages v
      .error ⟨"invalid field filter: " ++ chain.headD "", chain⟩

/-- A field of a span part: a name, with whether it names a value. Only the text
between the first and the second `=` is the value. -/
def field (s : String) : Except FilterError (String × Bool) :=
  if s.isEmpty then .error malformed
  else
    match s.splitOn "=" with
    | name :: value :: _ => do
      fieldValue value
      pure (name, true)
    | parts => .ok (parts.headD "", false)

/-- The states of the directive reader. -/
inductive Mode where
  | start
  | levelOrTarget (start : Nat)
  | span (start : Nat)
  | field (start : Nat)
  | fields
  | target
  | level (start : Nat)
  | complete
  deriving Inhabited

/-- The characters of a text with their byte offsets, counted from `start`. -/
def withOffsets (start : Nat) : List Char → List (Nat × Char)
  | [] => []
  | c :: cs => (start, c) :: withOffsets (start + c.utf8Size) cs

/-- Reads one directive. The characters read are those of the text trimmed of
white space at both ends, numbered by their byte offsets in the trimmed text, but
the pieces are cut from the text as given at those offsets: a directive after
leading white space names a target that starts with that white space. -/
def parse (text : String) : Except FilterError Directive := do
  let raw := text.toUTF8
  let cut := fun (a b : Nat) => (String.fromUTF8? (raw.extract a b)).getD ""
  let from_ := fun (a : Nat) => cut a raw.size
  let chars := text.toList
  let trimmed := ((chars.dropWhile Unicode.isWhiteSpace).reverse.dropWhile Unicode.isWhiteSpace).reverse
  let init : Mode × Directive := (.start, ⟨none, none, [], .trace⟩)
  let step := fun (acc : Mode × Directive) (ic : Nat × Char) =>
    let (i, c) := ic
    let (mode, d) := acc
    match mode, c with
    | .start, '[' => pure (.span (i + 1), d)
    | .start, c =>
      if c == '-' || c == ':' || c == '_' || Unicode.isAlphanumeric c then pure (.levelOrTarget i, d)
      else throw malformed
    | .levelOrTarget s, '=' => pure (.level (i + 1), { d with target := some (cut s i) })
    | .levelOrTarget s, '[' => pure (.span (i + 1), { d with target := some (cut s i) })
    | .levelOrTarget s, ',' =>
      let (l, t) := levelOrTarget (from_ s)
      pure (.complete, { d with level := l, target := t })
    | .levelOrTarget s, _ => pure (.levelOrTarget s, d)
    | .target, '=' => pure (.level (i + 1), d)
    | .span s, ']' => pure (.target, { d with inSpan := some (cut s i) })
    | .span s, '{' =>
      let name := cut s i
      pure (.field (i + 1), { d with inSpan := if name.isEmpty then none else some name })
    | .span s, _ => pure (.span s, d)
    | .field s, '}' => do
      let f ← field (cut s i)
      pure (.fields, { d with fields := d.fields ++ [f] })
    | .field s, ',' => do
      let f ← field (cut s i)
      pure (.field (i + 1), { d with fields := d.fields ++ [f] })
    | .field s, _ => pure (.field s, d)
    | .fields, ']' => pure (.target, d)
    | .level s, ',' => do
      let l ← levelAfter (cut s i)
      pure (.complete, { d with level := l })
    | .level s, _ => pure (.level s, d)
    | _, _ => throw malformed
  let (mode, d) ← (withOffsets 0 trimmed).foldlM step init
  match mode with
  | .levelOrTarget s =>
    let (l, t) := levelOrTarget (from_ s)
    pure { d with level := l, target := t }
  | .level s => do
    let l ← levelAfter (from_ s)
    pure { d with level := l }
  | .target | .complete => pure d
  | _ => throw malformed

/-- Whether the directive applies outside spans: it names no span and no field value. -/
def isStatic (d : Directive) : Bool := d.inSpan.isNone && !d.fields.any (·.2)

/-- Whether a static directive applies to a line. -/
def appliesTo (d : Directive) (l : LogLine) : Bool :=
  (match d.target with
    | some t => t.isPrefixOf l.target
    | none => true) &&
  d.fields.all fun (n, _) => n == "message" || l.fields.any (·.1 == n)

/-- Whether `a` is tried before `b`: a longer target first, then more fields, then
the larger target and fields. -/
def before (a b : Directive) : Bool :=
  let la := (a.target.map String.length)
  let lb := (b.target.map String.length)
  let key := fun (d : Directive) => (d.target.getD "", d.fields.map (·.1))
  if la != lb then
    match la, lb with
    | some x, some y => y < x
    | some _, none => true
    | _, _ => false
  else if a.fields.length != b.fields.length then b.fields.length < a.fields.length
  else
    let (ta, fa) := key a
    let (tb, fb) := key b
    tb < ta || (tb == ta && decide (fb < fa))

/-- Whether two directives have the same target and fields. -/
def same (a b : Directive) : Bool :=
  a.target == b.target && a.fields.map (·.1) == b.fields.map (·.1)

end Directive

/-- A log filter: its static directives, most specific first. -/
structure LogFilter where
  /-- The directives that apply outside spans. -/
  directives : List Directive
  deriving Repr, Inhabited

namespace LogFilter

/-- Adds a directive: it replaces one with the same target and fields, and is
otherwise placed by specificity. -/
def add (ds : List Directive) (d : Directive) : List Directive :=
  if ds.any (Directive.same d) then ds.map fun e => if Directive.same d e then d else e
  else
    let (hi, lo) := ds.span fun e => Directive.before e d
    hi ++ [d] ++ lo

/-- Reads a filter. -/
def parse (text : String) : Except FilterError LogFilter := do
  if text.isEmpty then return ⟨[]⟩
  let ds ← ((text.splitOn ",").filter (!·.isEmpty)).mapM Directive.parse
  pure ⟨(ds.filter Directive.isStatic).foldl add []⟩

/-- Whether a line is written. -/
def enabled (f : LogFilter) (l : LogLine) : Bool :=
  match f.directives.find? (·.appliesTo l) with
  | some d => d.level.allows l.level
  | none => false

end LogFilter

end TopSpeed
