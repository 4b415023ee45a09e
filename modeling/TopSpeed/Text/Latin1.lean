import TopSpeed.Error
/-!
# ISO-8859-1 text and the three string rules

Every byte of an ISO-8859-1 string is the code point of the same value, so text
decodes byte by byte and never fails (`Latin1.decode`).

A fixed-width text field becomes a string by one of three rules
(`StringRule.apply`):

* **trimmed** – the whole span, trailing spaces removed;
* **length-prefixed** – the first byte counts the bytes of text that follow;
* **NUL-terminated** – the text ends at the first zero byte or at the end of the span.

Only the length-prefixed rule can fail, when the span is empty or shorter than
its count says.
-/

namespace TopSpeed

namespace Latin1

/-- Decodes ISO-8859-1 bytes: byte `b` becomes code point `b`. -/
def decode (bs : List UInt8) : String :=
  String.ofList (bs.map fun b => Char.ofNat b.toNat)

/-- Encodes text whose code points are all below 256, one byte per character. -/
def encode (s : String) : List UInt8 :=
  s.toList.map fun c => c.toNat.toUInt8

/-- Drops the trailing spaces of a byte span. -/
def trimTrailingSpaces (bs : List UInt8) : List UInt8 :=
  (bs.reverse.dropWhile (· == 32)).reverse

end Latin1

/-- How a fixed-length byte span is turned into text. -/
inductive StringRule where
  /-- The whole span, trailing spaces removed. -/
  | trimSpaces
  /-- The first byte holds the length of the text that follows. -/
  | lengthPrefixed
  /-- The text ends at the first NUL byte, or at the end of the span. -/
  | nulTerminated
  deriving DecidableEq, Repr, Inhabited

namespace StringRule

/-- Applies a string rule to a span already cut to the field width. -/
def apply (span : List UInt8) : StringRule → Except Error String
  | trimSpaces => .ok (Latin1.decode (Latin1.trimTrailingSpaces span))
  | lengthPrefixed =>
    match span with
    | [] => .error (.outOfRange 0 1 0)
    | n :: text =>
      if n.toNat + 1 > span.length then .error (.outOfRange 1 n.toNat span.length)
      else .ok (Latin1.decode (text.take n.toNat))
  | nulTerminated => .ok (Latin1.decode (span.takeWhile (· != 0)))

end StringRule

end TopSpeed
