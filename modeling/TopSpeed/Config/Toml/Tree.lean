/-!
# TOML documents as trees

A TOML document is a table: keys in the order they were first given, each
holding a value or another table. Every key and value keeps where it stands in
the text, so that an error can point at it; a table made on the way to a dotted
key or to a header has no place of its own.

Tables come in five forms (`Form`), because the rules for adding to a table
depend on how it was made: a table opened by a header may not be opened again,
one that a header only passed through may, and a dotted key may only go on
through tables that dotted keys made.

An error is a span and a message; `Fail.render` shows it with the line it is on
and carets under the place:

```
TOML parse error at line 1, column 10
  |
1 | policy = "lenient"
  |          ^^^^^^^^^
unknown variant `lenient`, expected `strict` or `tolerant`
```
-/

namespace TopSpeed

namespace Toml

/-- A range of byte offsets, end excluded. -/
structure Span where
  /-- The first byte. -/
  start : Nat
  /-- The byte after the last. -/
  stop : Nat
  deriving Repr, Inhabited, DecidableEq

/-- A key as written: its name, unquoted and unescaped, and where it stands. -/
structure Key where
  /-- The name. -/
  name : String
  /-- Where the key is written, quotes included. -/
  span : Span
  deriving Repr, Inhabited, DecidableEq

/-- A byte of a bare key: a letter, a digit, `-` or `_`. -/
def isBareKeyByte (b : UInt8) : Bool :=
  (65 ≤ b && b ≤ 90) || (97 ≤ b && b ≤ 122) || (48 ≤ b && b ≤ 57) || b == 45 || b == 95

/-- The four hexadecimal digits of a code point below `0x10000`, upper case. -/
def hex4 (n : Nat) : String :=
  let digit := fun (d : Nat) => "0123456789ABCDEF".toList.getD d '0'
  String.ofList [digit (n / 4096 % 16), digit (n / 256 % 16), digit (n / 16 % 16), digit (n % 16)]

/-- A character as it is written inside a quoted key. -/
def quotedChar (c : Char) : String :=
  match c with
  | '\x08' => "\\b"
  | '\t' => "\\t"
  | '\n' => "\\n"
  | '\x0c' => "\\f"
  | '\r' => "\\r"
  | '"' => "\\\""
  | '\\' => "\\\\"
  | c => if c.toNat ≤ 0x1F || c.toNat == 0x7F then "\\u" ++ hex4 c.toNat else String.singleton c

/-- Whether a key that needs quotes is written between single quotes: it holds a
double quote or a backslash, which would need escapes between double quotes, and
no single quote or control character but the tab, which cannot stand between
single quotes. -/
def literalFits (name : String) : Bool :=
  name.any (fun c => c == '"' || c == '\\') &&
    name.all fun c => c != '\'' && (c == '\t' || (0x1F < c.toNat && c.toNat != 0x7F))

/-- How a key name is written in a message about a header: bare when it can be,
else between single quotes when that needs no escapes and is better than double
quotes, else between double quotes with escapes. -/
def keyText (name : String) : String :=
  if !name.isEmpty && name.toUTF8.toList.all isBareKeyByte then name
  else if literalFits name then "'" ++ name ++ "'"
  else "\"" ++ String.join (name.toList.map quotedChar) ++ "\""

/-- A value that holds no other. -/
inductive Scalar where
  | string (s : String)
  | integer (i : Int)
  /-- A float, as the bits of a double. -/
  | float (bits : UInt64)
  | boolean (b : Bool)
  /-- A date, a time or both, as written. -/
  | datetime (text : String)
  deriving Repr, Inhabited, DecidableEq

/-- How a table was made. -/
inductive Form where
  /-- Written in braces. -/
  | braces
  /-- Made inside braces by a dotted key. -/
  | bracesDotted
  /-- The document itself, or a table opened by a header. -/
  | explicit
  /-- Passed through by a header naming a table below it. -/
  | implicit
  /-- Made by a dotted key. -/
  | dotted
  deriving Repr, Inhabited, DecidableEq

/-- Whether a table was only made on the way to something else. -/
def Form.isImplicit : Form → Bool
  | .bracesDotted | .implicit | .dotted => true
  | .braces | .explicit => false

/-- Whether a table was made by a dotted key. -/
def Form.isDotted : Form → Bool
  | .bracesDotted | .dotted => true
  | .braces | .explicit | .implicit => false

/-- A value or a table, with where it stands when it has a place of its own. -/
inductive Node where
  | scalar (s : Scalar) (span : Span)
  | array (items : List Node) (span : Span)
  /-- A table, its keys in order. -/
  | table (form : Form) (entries : List (Key × Node)) (span : Option Span)
  /-- An array of tables, each opened by a double-bracket header. -/
  | tables (list : List Node) (span : Option Span)
  deriving Repr, Inhabited

namespace Node

/-- Where a node stands. -/
def span? : Node → Option Span
  | .scalar _ sp => some sp
  | .array _ sp => some sp
  | .table _ _ sp => sp
  | .tables _ sp => sp

/-- The name of a node's type, as errors name it. -/
def typeName : Node → String
  | .scalar (.string _) _ => "string"
  | .scalar (.integer _) _ => "integer"
  | .scalar (.float _) _ => "float"
  | .scalar (.boolean _) _ => "boolean"
  | .scalar (.datetime _) _ => "datetime"
  | .array .. => "array"
  | .table .braces .. | .table .bracesDotted .. => "inline table"
  | .table .. => "table"
  | .tables .. => "array of tables"

end Node

/-- The entry of a table under a name. -/
def lookup (entries : List (Key × Node)) (name : String) : Option (Key × Node) :=
  entries.find? (·.1.name == name)

/-- Replaces the entry under a name, keeping its place. -/
def replace (entries : List (Key × Node)) (name : String) (entry : Key × Node) : List (Key × Node) :=
  entries.map fun e => if e.1.name == name then entry else e

/-- Why a document was refused: where, if in the text, and what. -/
structure Fail where
  /-- Where the problem is, if it is in the text. -/
  span : Option Span
  /-- What the problem is. -/
  message : String
  deriving Repr, Inhabited

/-- The line (from zero) and the column (in characters, from zero) of an offset,
as an editor counts them; an offset at the end counts one past the last byte,
and a line that cannot be cut there as text counts bytes. -/
def position (text : List UInt8) (index : Nat) : Nat × Nat :=
  if text.isEmpty then (0, index)
  else
    let safe := min index (text.length - 1)
    let extra := index - safe
    let before := text.take safe
    let lineStart := before.length - (before.reverse.takeWhile (· != 10)).length
    let line := (before.filter (· == 10)).length
    let piece := (text.drop lineStart).take (safe + 1 - lineStart)
    let column := match String.fromUTF8? (ByteArray.mk piece.toArray) with
      | some s => s.length - 1
      | none => safe - lineStart
    (line, column + extra)

/-- The text of an error about a document: where it is, the line with carets under
the place (as many as the span has bytes, within the line), and the message. -/
def Fail.render (f : Fail) (source : String) : String :=
  match f.span with
  | some sp =>
    let bytes := source.toUTF8.toList
    let (line, column) := position bytes sp.start
    let lineNum := line + 1
    let gutter := (toString lineNum).length
    let content := ((source.splitOn "\n")[line]?).getD ""
    let highlight := min (sp.stop - sp.start) (content.utf8ByteSize - column)
    let pad := fun n => String.ofList (List.replicate n ' ')
    s!"TOML parse error at line {lineNum}, column {column + 1}\n" ++
      pad (gutter + 1) ++ "|\n" ++
      s!"{lineNum} | {content}\n" ++
      pad (gutter + 1) ++ "|" ++ pad (column + 1) ++ "^" ++
      String.ofList (List.replicate (highlight - 1) '^') ++ "\n" ++
      f.message ++ "\n"
  | none => f.message ++ "\n"

end Toml

end TopSpeed
