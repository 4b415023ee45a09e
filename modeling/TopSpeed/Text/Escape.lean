import TopSpeed.Text.Unicode
/-!
# Quoting a character for a message

A message that names a single character writes it between single quotes. A
quote, a backslash, the null character, a tab and the two line endings get their
short escapes. Any other character that would not show is written as its code
point, `\u{…}` in lower-case hexadecimal: a control, a format, private-use,
unassigned or separator character other than the space (`Unicode.isPrintable`),
a mark that combines with what stands before it (`Unicode.isGraphemeExtend`), and
a character shown as nothing, such as a Hangul filler (`Unicode.isDefaultIgnorable`).
-/

namespace TopSpeed.Escape

/-- Whether a character is written as its code point when quoted: a mark that
combines with the character before it, one that does not show as itself, or one
that shows as nothing. -/
def hidden (c : Char) : Bool :=
  Unicode.isGraphemeExtend c || !Unicode.isPrintable c || Unicode.isDefaultIgnorable c

/-- The lower-case hexadecimal digits of a number, at least one. -/
def hexLower (n : Nat) : String :=
  String.ofList (Nat.toDigits 16 n)

/-- A character between single quotes, escaped where it would not show. -/
def quoteChar (c : Char) : String :=
  let body :=
    if c = '\t' then "\\t"
    else if c = '\r' then "\\r"
    else if c = '\n' then "\\n"
    else if c = '\\' then "\\\\"
    else if c = '\'' then "\\'"
    else if c = '\x00' then "\\0"
    else if hidden c then "\\u" ++ "\x7b" ++ hexLower c.toNat ++ "\x7d"
    else c.toString
  "'" ++ body ++ "'"

end TopSpeed.Escape
