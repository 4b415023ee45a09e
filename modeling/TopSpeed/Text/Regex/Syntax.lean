import TopSpeed.Text.Unicode
/-!
# Regular expression syntax: problems and shapes

The problems a pattern can have (`ErrorKind`), each with the words it is reported
in, and a problem with its place (`SyntaxError`), which `SyntaxError.render` shows
the way the reader of patterns does:

```
regex parse error:
    (
    ^
error: unclosed group
```

Places are stretches of characters (`Span`). A problem about two places, such as a
name given to two groups, carries the second as well.

A pattern read without a problem has a shape (`Shape`): the pieces that open a
level of nesting — a group, a repetition, a sequence of two pieces or more, an
alternation, a bracketed class, a union of two class items or more, an operation
on classes — each with its stretch and the pieces it holds. A pattern that nests
more than `nestLimit` levels deep is refused at its first piece, in reading order,
that stands too deep (`Shape.tooDeep`).

The readers of names, escapes and classes need a few tests of characters, which
are here too.
-/

namespace TopSpeed

namespace Regex

/-- A stretch of a pattern, by character index, end excluded. -/
structure Span where
  /-- The first character. -/
  start : Nat
  /-- The character after the last. -/
  stop : Nat
  deriving Repr, Inhabited, DecidableEq

/-- How many levels a pattern may nest. -/
def nestLimit : Nat := 250

/-- What can be wrong with a pattern. -/
inductive ErrorKind where
  | classEscapeInvalid
  | classRangeInvalid
  | classRangeLiteral
  | classUnclosed
  | decimalEmpty
  | decimalInvalid
  | escapeHexEmpty
  | escapeHexInvalid
  | escapeHexInvalidDigit
  | escapeUnexpectedEof
  | escapeUnrecognized
  | flagDanglingNegation
  | flagDuplicate
  | flagRepeatedNegation
  | flagUnexpectedEof
  | flagUnrecognized
  | groupNameDuplicate
  | groupNameEmpty
  | groupNameInvalid
  | groupNameUnexpectedEof
  | groupUnclosed
  | groupUnopened
  | nestLimitExceeded
  | repetitionCountInvalid
  | repetitionCountDecimalEmpty
  | repetitionCountUnclosed
  | repetitionMissing
  | specialWordBoundaryUnclosed
  | specialWordBoundaryUnrecognized
  | specialWordOrRepetitionUnexpectedEof
  | unicodeClassInvalid
  | unsupportedBackreference
  | unsupportedLookAround
  /-- A Unicode class: the reader knows no Unicode property. -/
  | unicodePropertyNotFound
  /-- A Unicode class named by a general category that is also a property. -/
  | unicodePropertyValueNotFound
  /-- A Perl class where the flag `u` is on: the reader has no Unicode tables. -/
  | unicodePerlClassNotFound
  /-- A piece matched without regard to case where the flag `u` is on. -/
  | unicodeCaseUnavailable
  /-- A Unicode class, or a character beyond ASCII in a class, where the flag `u` is off. -/
  | unicodeNotAllowed
  /-- A piece that, with the flag `u` off, may match a byte outside UTF-8. -/
  | invalidUtf8
  deriving Repr, Inhabited, DecidableEq

/-- The words of each problem. -/
def ErrorKind.message : ErrorKind → String
  | .classEscapeInvalid => "invalid escape sequence found in character class"
  | .classRangeInvalid => "invalid character class range, the start must be <= the end"
  | .classRangeLiteral => "invalid range boundary, must be a literal"
  | .classUnclosed => "unclosed character class"
  | .decimalEmpty => "decimal literal empty"
  | .decimalInvalid => "decimal literal invalid"
  | .escapeHexEmpty => "hexadecimal literal empty"
  | .escapeHexInvalid => "hexadecimal literal is not a Unicode scalar value"
  | .escapeHexInvalidDigit => "invalid hexadecimal digit"
  | .escapeUnexpectedEof => "incomplete escape sequence, reached end of pattern prematurely"
  | .escapeUnrecognized => "unrecognized escape sequence"
  | .flagDanglingNegation => "dangling flag negation operator"
  | .flagDuplicate => "duplicate flag"
  | .flagRepeatedNegation => "flag negation operator repeated"
  | .flagUnexpectedEof => "expected flag but got end of regex"
  | .flagUnrecognized => "unrecognized flag"
  | .groupNameDuplicate => "duplicate capture group name"
  | .groupNameEmpty => "empty capture group name"
  | .groupNameInvalid => "invalid capture group character"
  | .groupNameUnexpectedEof => "unclosed capture group name"
  | .groupUnclosed => "unclosed group"
  | .groupUnopened => "unopened group"
  | .nestLimitExceeded =>
    s!"exceed the maximum number of nested parentheses/brackets ({nestLimit})"
  | .repetitionCountInvalid => "invalid repetition count range, the start must be <= the end"
  | .repetitionCountDecimalEmpty => "repetition quantifier expects a valid decimal"
  | .repetitionCountUnclosed => "unclosed counted repetition"
  | .repetitionMissing => "repetition operator missing expression"
  | .specialWordBoundaryUnclosed =>
    "special word boundary assertion is either unclosed or contains an invalid character"
  | .specialWordBoundaryUnrecognized =>
    "unrecognized special word boundary assertion, valid choices are: start, end, start-half or end-half"
  | .specialWordOrRepetitionUnexpectedEof =>
    "found either the beginning of a special word boundary or a bounded repetition on a \\b with an opening brace, but no closing brace"
  | .unicodeClassInvalid => "invalid Unicode character class"
  | .unsupportedBackreference => "backreferences are not supported"
  | .unsupportedLookAround => "look-around, including look-ahead and look-behind, is not supported"
  | .unicodePropertyNotFound => "Unicode property not found"
  | .unicodePropertyValueNotFound => "Unicode property value not found"
  | .unicodePerlClassNotFound =>
    "Unicode-aware Perl class not found (make sure the unicode-perl feature is enabled)"
  | .unicodeCaseUnavailable =>
    "Unicode-aware case insensitivity matching is not available (make sure the unicode-case feature is enabled)"
  | .unicodeNotAllowed => "Unicode not allowed here"
  | .invalidUtf8 => "pattern can match invalid UTF-8"

/-- A problem with a pattern: what, where, and a second place for a duplicate. -/
structure SyntaxError where
  /-- What is wrong. -/
  kind : ErrorKind
  /-- Where. -/
  span : Span
  /-- The first of two duplicates, when there are two. -/
  aux : Option Span
  deriving Repr, Inhabited

/-! ### Characters -/

/-- A character with a meaning of its own, escaped to stand for itself. -/
def isMeta (c : Char) : Bool := "\\.+*?()|[]{}^$#&-~".toList.contains c

/-- A character that may be escaped to stand for itself: a meta character, or any
ASCII character that is not a letter, a digit, `<` or `>`. -/
def isEscapeable (c : Char) : Bool :=
  isMeta c || (c.toNat < 128 && !c.isAlphanum && c != '<' && c != '>')

/-- A character allowed in a capture name: a letter or `_` first, then also
digits, `.`, `[` and `]`. -/
def isCaptureChar (c : Char) (first : Bool) : Bool :=
  if first then c == '_' || Unicode.isAlphabetic c
  else c == '_' || c == '.' || c == '[' || c == ']' || Unicode.isAlphanumeric c

/-- A hexadecimal digit. -/
def isHexDigit (c : Char) : Bool :=
  c.isDigit || ('a' ≤ c && c ≤ 'f') || ('A' ≤ c && c ≤ 'F')

/-- The value of a hexadecimal digit. -/
def hexDigitValue (c : Char) : Nat :=
  if c.isDigit then c.toNat - 48
  else if 'a' ≤ c && c ≤ 'f' then c.toNat - 87
  else c.toNat - 55

/-- Whether a number is a character's code point. -/
def isCodePoint (v : Nat) : Bool := v < 0xD800 || (0xE000 ≤ v && v < 0x110000)

/-- The names of the ASCII classes, as in `[[:alpha:]]`. -/
def asciiClassNames : List String :=
  ["alnum", "alpha", "ascii", "blank", "cntrl", "digit", "graph", "lower", "print", "punct",
    "space", "upper", "word", "xdigit"]

/-- A property name as it is looked up: a leading `is` in any case dropped, spaces,
`_` and `-` dropped, letters in lower case, and characters beyond ASCII dropped;
`isc` stays as it is. -/
def normalizeName (s : String) : String :=
  let cs := s.toList
  let isPrefixed := match cs with
    | a :: b :: _ => (a == 'i' || a == 'I') && (b == 's' || b == 'S')
    | _ => false
  let body := if isPrefixed then cs.drop 2 else cs
  let kept := body.filterMap fun c =>
    if c == ' ' || c == '_' || c == '-' then none
    else if 'A' ≤ c && c ≤ 'Z' then some (Char.ofNat (c.toNat + 32))
    else if c.toNat ≤ 0x7F then some c
    else none
  if isPrefixed && kept == ['c'] then "isc" else String.ofList kept

/-- Why a Unicode class named in braces is refused. The reader knows no Unicode
property, so every name is; the three general categories whose short names are
also those of properties (`cf`, `sc`, `lc`) are looked up as categories, and fail
as values. A name with a value (`name=value`, `name:value`, `name!=value`) fails
as a property. -/
def namedClassProblem (name : String) : ErrorKind :=
  if name.contains '=' || name.contains ':' then .unicodePropertyNotFound
  else if ["cf", "sc", "lc"].contains (normalizeName name) then .unicodePropertyValueNotFound
  else .unicodePropertyNotFound

/-! ### Shapes -/

/-- How a pattern nests: a piece that opens a level of nesting, with its stretch and
the pieces it holds, or a piece that does not. -/
inductive Shape where
  | flat (span : Span)
  | level (span : Span) (inner : List Shape)
  deriving Repr, Inhabited

/-- The stretch of a piece. -/
def Shape.span : Shape → Span
  | .flat sp => sp
  | .level sp _ => sp

/-- Whether a piece of a class stands for no character at all: an empty union of
items, which takes no room. -/
def Shape.isEmpty (s : Shape) : Bool :=
  match s with
  | .flat sp => sp.start == sp.stop
  | .level .. => false

mutual

/-- The stretch of the first piece, in reading order, that stands more than
`nestLimit` levels deep, when `depth` levels stand above the shape. -/
def Shape.tooDeep (depth : Nat) : Shape → Option Span
  | .flat _ => none
  | .level sp inner => if nestLimit < depth + 1 then some sp else Shape.tooDeepIn (depth + 1) inner

/-- The first piece too deep among pieces side by side, `depth` levels down. -/
def Shape.tooDeepIn (depth : Nat) : List Shape → Option Span
  | [] => none
  | s :: rest =>
    match Shape.tooDeep depth s with
    | some sp => some sp
    | none => Shape.tooDeepIn depth rest

end

/-! ### Showing a problem -/

/-- The line (from one) and column (from one) of a character index. -/
def place (cs : List Char) (i : Nat) : Nat × Nat :=
  let before := cs.take i
  let line := (before.filter (· == '\n')).length + 1
  let column := (before.reverse.takeWhile (· != '\n')).length + 1
  (line, column)

/-- The lines of a text: split at `\n`, a `\r` before it dropped, no empty line
after a final line ending. -/
def textLines (s : String) : List String :=
  let parts := s.splitOn "\n"
  let ended := parts.dropLast.map fun p => if p.endsWith "\r" then (p.dropEnd 1).toString else p
  if s.isEmpty || s.endsWith "\n" then ended else ended ++ [parts.getLastD ""]

/-- `n` copies of a character. -/
def repeatChar (c : Char) (n : Nat) : String := String.ofList (List.replicate n c)

/-- The text of a syntax problem: the pattern with carets under the stretches in
question, and the message. A pattern of several lines gets line numbers and
rulers, and a stretch over several lines is told in words. -/
def SyntaxError.render (e : SyntaxError) (pattern : String) : String :=
  let cs := pattern.toList
  let lines := textLines pattern
  let lineCount := lines.length + (if pattern.endsWith "\n" then 1 else 0)
  let width := if lineCount ≤ 1 then 0 else (toString lineCount).length
  let spans := e.span :: e.aux.toList
  let placed := spans.map fun sp => (place cs sp.start, place cs sp.stop)
  let oneLine := placed.filter fun ((l1, _), (l2, _)) => l1 == l2
  let multi := placed.filter fun ((l1, _), (l2, _)) => l1 != l2
  let sorted := oneLine.mergeSort fun a b => a.1.1 < b.1.1 || (a.1.1 == b.1.1 && a.1.2 ≤ b.1.2)
  let notes := fun (line : Nat) =>
    let onLine := sorted.filter fun ((l, _), _) => l == line
    if onLine.isEmpty then none
    else
      let (text, _) := onLine.foldl (fun (acc : String × Nat) (((_, c1), (_, c2)) : (Nat × Nat) × (Nat × Nat)) =>
        let (t, p) := acc
        let gap := (c1 - 1) - p
        let len := max 1 (c2 - c1)
        (t ++ repeatChar ' ' gap ++ repeatChar '^' len, p + gap + len)) ("", 0)
      some (repeatChar ' ' (if width == 0 then 4 else 2 + width) ++ text)
  let notated := String.join (lines.zipIdx.map fun (line, i) =>
    let num := toString (i + 1)
    let prefix_ := if width == 0 then "    " else repeatChar ' ' (width - num.length) ++ num ++ ": "
    prefix_ ++ line ++ "\n" ++ (match notes (i + 1) with
      | some n => n ++ "\n"
      | none => ""))
  if pattern.contains '\n' then
    let divider := repeatChar '~' 79
    let spread := multi.map fun ((l1, c1), (l2, c2)) =>
      s!"on line {l1} (column {c1}) through line {l2} (column {c2 - 1})"
    "regex parse error:\n" ++ divider ++ "\n" ++ notated ++ divider ++ "\n" ++
      (if spread.isEmpty then "" else "\n".intercalate spread ++ "\n") ++ "error: " ++ e.kind.message
  else "regex parse error:\n" ++ notated ++ "error: " ++ e.kind.message

end Regex

end TopSpeed
