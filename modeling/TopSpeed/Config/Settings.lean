import TopSpeed.Config.Toml
import TopSpeed.Number.Notation
import TopSpeed.Policy
/-!
# Dumper settings

Settings come from an optional TOML file and are overridden by the command line.
The file may set `password`, `policy`, `format` and `log_level`; any other key is
refused. `password` and `log_level` are strings; `policy` is `strict` or
`tolerant` and `format` is `text` or `json`, spelt exactly so.

A value of the wrong kind is refused with what it is and what was expected:

* a string field given another kind of value: `invalid type: integer `5`, expected a string`;
* a choice given an unknown word: `unknown variant `x`, expected `a` or `b``;
* a choice given something that is neither a string nor a table:
  `wanted string or table`.

A choice may also be written as a table with one key, the variant, holding an
empty table.

An error points at the place it names (an unknown variant at its key), else at
the value, else at the key: a table made by a dotted key has no place of its own.

Without a file, or for a key the file leaves out, the command line decides;
without either, the policy is strict, the format text and the log level `warn`.
-/

namespace TopSpeed

/-- The output format of the dumper. -/
inductive OutputFormat where
  | text
  | json
  deriving DecidableEq, Repr, Inhabited

/-- The settings a configuration file gives; each may be absent. -/
structure FileConfig where
  /-- The password of an encrypted file. -/
  password : Option String
  /-- How damaged parts are handled. -/
  policy : Option Policy
  /-- The output format. -/
  format : Option OutputFormat
  /-- The log filter. -/
  logLevel : Option String
  deriving Inhabited

namespace FileConfig

/-- No setting at all. -/
def empty : FileConfig := ⟨none, none, none, none⟩

/-- The keys a file may set. -/
def fields : List String := ["password", "policy", "format", "log_level"]

/-- How a float is shown when it is not what was expected: its shortest digits,
with `.0` when they have no point. -/
def floatText (bits : UInt64) : String :=
  let t := Notation.render ⟨none, false, "NaN", "inf", .up⟩ .double bits.toNat
  match BinaryFormat.double.classify bits.toNat with
  | .finite .. => if t.contains '.' then t else t ++ ".0"
  | _ => t

/-- How a value is described when it is not what was expected. -/
def unexpected : Toml.Node → String
  | .scalar (.integer i) _ => s!"integer `{i}`"
  | .scalar (.float bits) _ => s!"floating point `{floatText bits}`"
  | .scalar (.boolean b) _ => s!"boolean `{b}`"
  | .scalar (.string s) _ => s!"string \"{s}\""
  | .array .. | .tables .. => "sequence"
  | _ => "map"

/-- A list of words as a choice is described: `` `a` or `b` `` or `one of ...`. -/
def oneOf : List String → String
  | [] => "there are no variants"
  | [a] => s!"`{a}`"
  | [a, b] => s!"`{a}` or `{b}`"
  | ws => "one of " ++ ", ".intercalate (ws.map fun w => s!"`{w}`")

/-- An error about the setting of key `k`, holding `n`: at the place the error
names, else where the value stands, else at the key. -/
def located (k : Toml.Key) (n : Toml.Node) (sp : Option Toml.Span) (message : String) : Toml.Fail :=
  ⟨(sp <|> n.span?) <|> some k.span, message⟩

/-- Reads a string setting. -/
def stringValue (k : Toml.Key) : Toml.Node → Except Toml.Fail String
  | .scalar (.string s) _ => .ok s
  | n => .error (located k n none s!"invalid type: {unexpected n}, expected a string")

/-- What is wrong with the value under a chosen name, and where: a choice carries
nothing, so only an empty table or array may stand there. -/
def unitProblem : Toml.Node → Option (Option Toml.Span × String)
  | .tables [] _ | .array [] _ | .table _ [] _ => none
  | .tables _ sp => some (sp, "expected empty array")
  | .array _ sp => some (some sp, "expected empty table")
  | .table _ _ sp => some (sp, "expected empty table")
  | other => some (other.span?, s!"expected table, found {other.typeName}")

/-- Reads a choice among `names`, giving the index of the chosen one: a string
names it, and so does the one key of a table, whose value must be empty. -/
def choiceValue (k : Toml.Key) (names : List String) (n : Toml.Node) : Except Toml.Fail Nat :=
  match n with
  | .scalar (.string s) sp =>
    match names.idxOf? s with
    | some i => .ok i
    | none => .error (located k n (some sp) s!"unknown variant `{s}`, expected {oneOf names}")
  | .table _ entries sp =>
    match entries with
    | [] => .error (located k n sp "wanted exactly 1 element, found 0 elements")
    | [(vk, vn)] =>
      match names.idxOf? vk.name with
      | none =>
        .error (located k n (some vk.span) s!"unknown variant `{vk.name}`, expected {oneOf names}")
      | some i =>
        match unitProblem vn with
        | none => .ok i
        | some (at_, message) => .error (located k n at_ message)
    | _ => .error (located k n sp "wanted exactly 1 element, more than 1 element")
  | other => .error (located k n other.span? "wanted string or table")

/-- The policy of a choice index. -/
def policyOf (i : Nat) : Policy := if i == 0 then .strict else .tolerant

/-- The format of a choice index. -/
def formatOf (i : Nat) : OutputFormat := if i == 0 then .text else .json

/-- Reads the settings of a document's top-level keys, in order. -/
def decode : FileConfig → List (Toml.Key × Toml.Node) → Except Toml.Fail FileConfig
  | c, [] => .ok c
  | c, (k, n) :: es => do
    let c ← match k.name with
      | "password" => (fun s => { c with password := some s }) <$> stringValue k n
      | "log_level" => (fun s => { c with logLevel := some s }) <$> stringValue k n
      | "policy" => (fun i => { c with policy := some (policyOf i) }) <$>
          choiceValue k ["strict", "tolerant"] n
      | "format" => (fun i => { c with format := some (formatOf i) }) <$>
          choiceValue k ["text", "json"] n
      | name => throw ⟨some k.span, s!"unknown field `{name}`, expected {fieldList fields}"⟩
    decode c es
where
  /-- The known fields as an error lists them. -/
  fieldList (ws : List String) : String := "one of " ++ ", ".intercalate (ws.map fun w => s!"`{w}`")

/-- Reads the settings of a configuration text, or the text of why it cannot. -/
def ofText (text : String) : Except String FileConfig :=
  match Toml.parse text >>= decode empty with
  | .ok c => .ok c
  | .error f => .error (f.render text)

end FileConfig

/-- The settings in force. -/
structure Settings where
  /-- The password, if any. -/
  password : Option String
  /-- How damaged parts are handled. -/
  policy : Policy
  /-- The output format. -/
  format : OutputFormat
  /-- The log filter. -/
  logLevel : String
  deriving Inhabited

/-- The settings of a file overridden by those of the command line. -/
def Settings.resolve (file cli : FileConfig) : Settings :=
  ⟨cli.password <|> file.password, (cli.policy <|> file.policy).getD .strict,
    (cli.format <|> file.format).getD .text, (cli.logLevel <|> file.logLevel).getD "warn"⟩

end TopSpeed
