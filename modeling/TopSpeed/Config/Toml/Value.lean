import TopSpeed.Config.Toml.Scan
import TopSpeed.Number.Binary
/-!
# TOML values

The grammar of keys and values, each piece as a `Scan`:

* strings in their four forms, with escapes in the basic ones and a backslash at
  the end of a line of a multi-line basic string joining it to the next;
* integers in four bases, floats, `inf` and `nan`, booleans;
* dates, times and both together, checked to be real (no 30th of February);
* arrays and inline tables, nested at most 79 deep.

A value starting with a digit or a sign is tried as a date-time, then as a float,
then as an integer: the first that knows what it reads decides the error. A
number that does not fit, a float too large to be finite, an escape naming no
character: each fails at the start of the piece it checks.

Inside braces a dotted key makes the tables it passes through; a key given twice
is refused (`assembleBraces`).
-/

namespace TopSpeed

namespace Toml

open Scan

/-- The bytes of a text. -/
def bytesOf (s : String) : List UInt8 := s.toUTF8.toList

/-- The text of some bytes that are UTF-8. -/
def textOf (bs : List UInt8) : String := (String.fromUTF8? (ByteArray.mk bs.toArray)).getD ""

/-- The UTF-8 bytes of a character. -/
def charBytes (c : Char) : List UInt8 := (String.singleton c).toUTF8.toList

/-- The value of a hexadecimal digit byte. -/
def hexValue (b : UInt8) : Option Nat :=
  if 48 ≤ b && b ≤ 57 then some (b.toNat - 48)
  else if 65 ≤ b && b ≤ 70 then some (b.toNat - 55)
  else if 97 ≤ b && b ≤ 102 then some (b.toNat - 87)
  else none

/-- A hexadecimal digit byte. -/
def isHexByte (b : UInt8) : Bool := (hexValue b).isSome

/-- An octal digit byte. -/
def isOctByte (b : UInt8) : Bool := 48 ≤ b && b ≤ 55

/-- A binary digit byte. -/
def isBinByte (b : UInt8) : Bool := b == 48 || b == 49

/-- A sign byte. -/
def isSign (b : UInt8) : Bool := b == 43 || b == 45

/-- The value of some digits in a base. -/
def digitsValue (base : Nat) (ds : List UInt8) : Nat :=
  ds.foldl (fun acc b => acc * base + ((hexValue b).getD 0)) 0

/-- Whether a number is a character's code point: not a surrogate, below `0x110000`. -/
def isCodePoint (v : Nat) : Bool := v < 0xD800 || (0xE000 ≤ v && v < 0x110000)

/-! ### Strings -/

/-- The `n` hexadecimal digits of a `\u` or `\U` escape, as the character's bytes.
Too few digits fail at their start, and so does a number that is no character. -/
def hexEscape (n : Nat) : Scan (List UInt8) := do
  let start ← get
  let ds ← takeUpTo isHexByte n
  if ds.length != n then failAt start
  let v := digitsValue 16 ds
  if isCodePoint v then pure (charBytes (Char.ofNat v)) else refuse start "value is out of range"

/-- The letters an escape may have after its backslash, as a message lists them. -/
def escapeLetters : List String := ["`b`", "`f`", "`n`", "`r`", "`t`", "`u`", "`U`", "`\\`", "`\"`"]

/-- The character of an escape, after its backslash; an unknown escape fails after
the byte that names it. -/
def escapeChar : Scan (List UInt8) := do
  match ← peek with
  | none => halt
  | some c =>
    skip 1
    match c with
    | 98 => pure [8]
    | 102 => pure [12]
    | 110 => pure [10]
    | 114 => pure [13]
    | 116 => pure [9]
    | 92 => pure [92]
    | 34 => pure [34]
    | 117 => labelled "unicode 4-digit hex code" (cut (hexEscape 4))
    | 85 => labelled "unicode 8-digit hex code" (cut (hexEscape 8))
    | _ => expecting escapeLetters (labelled "escape sequence" (cut halt))

/-- An escape: a backslash and what it stands for. -/
def escaped : Scan (List UInt8) := do
  byte 92
  escapeChar

/-- A byte that stands for itself in a basic string: a blank, a printable ASCII
byte other than `"` and `\`, or a non-ASCII byte. -/
def isBasicByte (b : UInt8) : Bool :=
  b == 9 || b == 32 || b == 0x21 || (0x23 ≤ b && b ≤ 0x5B) || (0x5D ≤ b && b ≤ 0x7E) || 0x80 ≤ b

/-- A byte of a literal string: a tab, a printable ASCII byte other than `'`, or
a non-ASCII byte. -/
def isLiteralByte (b : UInt8) : Bool := b == 9 || (32 ≤ b && b ≤ 126 && b != 39) || 128 ≤ b

/-- Runs `p` and goes back to where it began. -/
def lookAhead {α : Type} (p : Scan α) : Scan α := do
  let i ← get
  let a ← p
  set i
  pure a

/-- One byte other than `q`, left unread. -/
def notQuote (q : UInt8) : Scan Unit := lookAhead (do let _ ← oneOf (· != q))

/-- One or two quotes `q` that `term` follows. -/
def quotesBefore (q : UInt8) (term : Scan Unit) : Scan (List UInt8) :=
  orElse (do word [q, q]; lookAhead term; pure [q, q]) (do byte q; lookAhead term; pure [q])

/-- A basic string: the text between double quotes, escapes read. -/
def basicString : Scan (List UInt8) := do
  byte 34
  let parts ← many (orElse (takeSome isBasicByte) escaped)
  labelled "basic string" (cut (byte 34))
  pure parts.flatten

/-- A backslash ending a line, with the blanks and line endings after it. -/
def lineContinuation : Scan Unit := do
  byte 92
  blanks
  newline
  let _ ← many (orElse newline (do let _ ← oneOf isBlank))

/-- A piece of a multi-line basic string: plain bytes, joined lines (which stand
for nothing), an escape, or a line ending. -/
def mlBasicPiece : Scan (List UInt8) :=
  orElse (takeSome isBasicByte) <|
  orElse (do lineContinuation; let _ ← many lineContinuation; pure []) <|
  orElse escaped (do newline; pure [10])

/-- The pieces of a multi-line basic string after quotes that are not its end, at
most `n` runs. -/
def mlBasicRuns : Nat → Scan (List UInt8)
  | 0 => pure []
  | n + 1 => do
    match ← optional (quotesBefore 34 (notQuote 34)) with
    | none => pure []
    | some qs =>
      match ← optional mlBasicPiece with
      | none => pure []
      | some p => do
        let more ← many mlBasicPiece
        let rest ← mlBasicRuns n
        pure (qs ++ p ++ more.flatten ++ rest)

/-- The body of a multi-line basic string: up to two quotes may stand anywhere,
also just before the closing three. -/
def mlBasicBody : Scan (List UInt8) := do
  let first ← many mlBasicPiece
  let runs ← mlBasicRuns ((← read).size + 1)
  let last ← optional (quotesBefore 34 (word [34, 34, 34]))
  pure (first.flatten ++ runs ++ last.getD [])

/-- A multi-line basic string between three double quotes; a line ending right
after the opening ones is dropped. -/
def mlBasicString : Scan (List UInt8) := labelled "multiline basic string" do
  word [34, 34, 34]
  let _ ← optional newline
  let body ← cut mlBasicBody
  cut (word [34, 34, 34])
  pure body

/-- A literal string: the bytes between single quotes, as they are. -/
def literalString : Scan (List UInt8) := labelled "literal string" do
  byte 39
  let bs ← takeWhile isLiteralByte
  cut (byte 39)
  pure bs

/-- A byte or a line ending of a multi-line literal string. -/
def mlLiteralPiece : Scan Unit := orElse (do let _ ← oneOf isLiteralByte) newline

/-- The body of a multi-line literal string. -/
def mlLiteralBody : Scan Unit := do
  let _ ← many mlLiteralPiece
  let _ ← many (do
    let _ ← quotesBefore 39 (notQuote 39)
    mlLiteralPiece
    let _ ← many mlLiteralPiece)
  let _ ← optional (quotesBefore 39 (word [39, 39, 39]))

/-- Replaces each `\r\n` by `\n`. -/
def unixLines : List UInt8 → List UInt8
  | 13 :: 10 :: rest => 10 :: unixLines rest
  | b :: rest => b :: unixLines rest
  | [] => []

/-- A multi-line literal string between three single quotes. -/
def mlLiteralString : Scan (List UInt8) := labelled "multiline literal string" do
  word [39, 39, 39]
  let _ ← optional newline
  let start ← get
  cut mlLiteralBody
  let raw ← since start
  cut (word [39, 39, 39])
  pure (unixLines raw)

/-- A string of any of the four forms. -/
def quotedString : Scan (List UInt8) :=
  orElse mlBasicString (orElse basicString (orElse mlLiteralString literalString))

/-! ### Keys -/

/-- One key: bare, basic or literal, and where it stands. -/
def simpleKey : Scan Key := do
  let start ← get
  let bytes ← match ← peek with
    | some 34 => basicString
    | some 39 => literalString
    | _ => takeSome isBareKeyByte
  pure ⟨textOf bytes, ⟨start, ← get⟩⟩

/-- A dotted key, blanks allowed around its parts; at most 79 parts. -/
def key : Scan (List Key) := do
  let start ← get
  let parts ← labelled "key" (sepBy1 (do blanks; let k ← simpleKey; blanks; pure k) (byte 46))
  if 80 ≤ parts.length then refuse start "recursion limit exceeded"
  pure parts

/-! ### Numbers -/

/-- Digits after a first one, an underscore allowed between two. -/
def moreDigits (isD : UInt8 → Bool) : Scan Unit := do
  let _ ← many (orElse (do let _ ← oneOf isD)
    (do byte 95; expecting ["digit"] (cut (do let _ ← oneOf isD))))

/-- A decimal integer: a sign perhaps, then `0` or digits not starting with `0`. -/
def decimalInt : Scan Unit := labelled "integer" do
  let _ ← optional (oneOf isSign)
  orElse (do let _ ← oneOf (fun b => 49 ≤ b && b ≤ 57); moreDigits isDigitByte)
    (do let _ ← oneOf isDigitByte)

/-- Digits that may start with `0`. -/
def digitRun : Scan Unit := do
  let _ ← oneOf isDigitByte
  moreDigits isDigitByte

/-- The fraction of a float: a point and digits. -/
def fraction : Scan Unit := do
  byte 46
  expecting ["digit"] (cut digitRun)

/-- The exponent of a float: `e` or `E`, a sign perhaps, and digits. -/
def exponent : Scan Unit := do
  let _ ← oneOf (fun b => b == 101 || b == 69)
  let _ ← optional (oneOf isSign)
  cut digitRun

/-- The bits of the double a decimal stands for, given its sign, its digits, how
many of them follow the point, and the exponent. -/
def decimalBits (neg : Bool) (digits : List UInt8) (fracLen : Nat) (exp : Int) : UInt64 :=
  let m := digitsValue 10 digits
  let e := exp - fracLen
  let significant := (digits.dropWhile (· == 48)).length
  let bits := if m == 0 then 0
    else if e + significant > 400 then 0x7FF0000000000000
    else if e + significant < -400 then 0
    else if 0 ≤ e then BinaryFormat.roundRatio (m * Nat.pow 10 e.toNat) 1
    else BinaryFormat.roundRatio m (Nat.pow 10 e.natAbs)
  if neg then bits ||| 0x8000000000000000 else bits

/-- The double nearest to the text of a float, underscores left out. -/
def floatBits (text : List UInt8) : UInt64 :=
  let t := text.filter (· != 95)
  let neg := t.head? == some 45
  let t := if (t.head?.map isSign).getD false then t.drop 1 else t
  let whole := t.takeWhile isDigitByte
  let t := t.drop whole.length
  let frac := if t.head? == some 46 then (t.drop 1).takeWhile isDigitByte else []
  let t := if t.head? == some 46 then t.drop (1 + frac.length) else t
  let exp : Int := match t with
    | _ :: rest =>
      let v : Int := digitsValue 10 (rest.filter isDigitByte)
      if rest.head? == some 45 then -v else v
    | [] => 0
  decimalBits neg (whole ++ frac) frac.length exp

/-- Positive infinity. -/
def infinityBits : UInt64 := 0x7FF0000000000000

/-- A quiet NaN. -/
def nanBits : UInt64 := 0x7FF8000000000000

/-- A float: digits with a fraction, an exponent or both, or `inf` or `nan` with a
sign perhaps. A decimal too large for a double fails at its start. -/
def float : Scan UInt64 := labelled "floating-point number" (orElse finite special)
where
  /-- A float written with digits. -/
  finite : Scan UInt64 := do
    let start ← get
    decimalInt
    orElse exponent (do fraction; let _ ← optional exponent)
    let bits := floatBits (← since start)
    if bits == infinityBits then throw ⟨start, [], none, true⟩
    pure bits
  /-- Infinity or NaN. -/
  special : Scan UInt64 := do
    let sign ← optional (oneOf isSign)
    let v ← orElse (do word (bytesOf "inf"); pure infinityBits) (do word (bytesOf "nan"); pure nanBits)
    pure (if sign == some 45 then v ||| 0x8000000000000000 else v)

/-- An integer with a base prefix (`0x`, `0o`, `0b`); one past the range of a
64-bit signed integer fails at its start. -/
def radixInt (base : Nat) (isD : UInt8 → Bool) (letter : UInt8) (what : String) : Scan Int := do
  let start ← get
  let ds ← labelled what (do
    word [48, letter]
    let first ← get
    cut (do let _ ← oneOf isD; moreDigits isD)
    since first)
  let v := digitsValue base (ds.filter (· != 95))
  if Nat.pow 2 63 ≤ v then refuse start "number too large to fit in target type"
  pure v

/-- An integer in any base, within the range of a 64-bit signed integer. -/
def integer : Scan Int := do
  match ← peek, ← peekAt 1 with
  | some 48, some 120 => cut (radixInt 16 isHexByte 120 "hexadecimal integer")
  | some 48, some 111 => cut (radixInt 8 isOctByte 111 "octal integer")
  | some 48, some 98 => cut (radixInt 2 isBinByte 98 "binary integer")
  | _, _ => do
    let start ← get
    decimalInt
    let text ← since start
    let v := digitsValue 10 (text.filter isDigitByte)
    if text.head? == some 45 then
      if Nat.pow 2 63 < v then cut (refuse start "number too small to fit in target type")
      pure (-(v : Int))
    else
      if Nat.pow 2 63 ≤ v then cut (refuse start "number too large to fit in target type")
      pure v

/-! ### Dates and times -/

/-- Exactly `n` digits, as a number. -/
def digitsExactly (n : Nat) : Scan Nat := do
  let start ← get
  let ds ← takeUpTo isDigitByte n
  if ds.length != n then failAt start
  pure (digitsValue 10 ds)

/-- Exactly `n` digits making a number from `lo` to `hi`. -/
def ranged (n lo hi : Nat) : Scan Nat := do
  let start ← get
  let v ← digitsExactly n
  if v < lo || hi < v then refuse start "value is out of range"
  pure v

/-- The number of days of a month, leap years counted. -/
def daysInMonth (year month : Nat) : Nat :=
  if month == 2 then (if year % 4 == 0 && (year % 100 != 0 || year % 400 == 0) then 29 else 28)
  else if month == 4 || month == 6 || month == 9 || month == 11 then 30
  else 31

/-- A date `YYYY-MM-DD`; once the year and its dash are read, the rest must follow. -/
def fullDate : Scan Unit := do
  let year ← digitsExactly 4
  byte 45
  let month ← cut (ranged 2 1 12)
  cut (byte 45)
  let dayStart ← get
  let day ← cut (ranged 2 1 31)
  if daysInMonth year month < day then cut (refuse dayStart "value is out of range")

/-- A time `HH:MM:SS` with a fraction of a second perhaps; once the hour and its
colon are read, the rest must follow. -/
def partialTime : Scan Unit := do
  let _ ← ranged 2 0 23
  byte 58
  cut (do
    let _ ← ranged 2 0 59
    byte 58
    let _ ← ranged 2 0 60
    let _ ← optional (do byte 46; let _ ← takeSome isDigitByte))

/-- A time offset: `Z`, or a sign and `HH:MM`. -/
def timeOffset : Scan Unit := labelled "time offset" (orElse
  (do let _ ← oneOf (fun b => b == 90 || b == 122))
  (do
    let _ ← oneOf isSign
    cut (do let _ ← ranged 2 0 23; byte 58; let _ ← ranged 2 0 59)))

/-- A date with a time and an offset perhaps, or a time alone. -/
def dateTime : Scan Unit :=
  orElse
    (labelled "date-time" (do
      fullDate
      let _ ← optional (do
        let _ ← oneOf (fun b => b == 84 || b == 116 || b == 32)
        partialTime
        let _ ← optional timeOffset)))
    (labelled "time" partialTime)

/-! ### Values, arrays and inline tables -/

/-- The names of a path of keys, joined by dots. -/
def pathText (ks : List Key) : String := ".".intercalate (ks.map (·.name))

/-- Puts a value under a path of keys inside braces, making dotted tables on the
way; `done` is the part of the path already walked. -/
def placeInBraces (done : List Key) (leaf : Key) (v : Node) :
    List Key → List (Key × Node) → Except String (List (Key × Node))
  | [], entries =>
    if (lookup entries leaf.name).isSome then .error s!"duplicate key `{leaf.name}`"
    else .ok (entries ++ [(leaf, v)])
  | k :: rest, entries =>
    match lookup entries k.name with
    | none => do
      let inner ← placeInBraces (done ++ [k]) leaf v rest []
      pure (entries ++ [(k, .table .bracesDotted inner none)])
    | some (k0, .table form es sp) =>
      if !form.isImplicit then .error s!"duplicate key `{k.name}`"
      else do
        let inner ← placeInBraces (done ++ [k]) leaf v rest es
        pure (replace entries k.name (k0, .table form inner sp))
    | some (_, other) =>
      .error s!"dotted key `{pathText (done ++ [k])}` attempted to extend non-table type ({other.typeName})"

/-- The entries of an inline table from its pairs, in order. -/
def assembleBraces : List (List Key × Node) → List (Key × Node) → Except String (List (Key × Node))
  | [], entries => .ok entries
  | (path, v) :: more, entries =>
    match path.reverse with
    | [] => assembleBraces more entries
    | leaf :: above => do
      let entries ← placeInBraces [] leaf v above.reverse entries
      assembleBraces more entries

/-- Marks a failure as not a value of the kinds a word may start. -/
def notAString {α : Type} (p : Scan α) : Scan α := expecting ["`\"`", "`'`"] (labelled "string" p)

mutual

/-- A value and where it stands; `depth` arrays and inline tables enclose it. -/
def value (depth : Nat) : Nat → Scan Node
  | 0 => halt
  | fuel + 1 => do
    let start ← get
    let done := fun (s : Scalar) => do pure (Node.scalar s ⟨start, ← get⟩)
    match ← peek with
    | some 34 | some 39 => do
      let s ← quotedString
      done (.string (textOf s))
    | some 91 => array depth fuel
    | some 123 => inlineTable depth fuel
    | some b =>
      if isSign b || isDigitByte b then
        orElse (do dateTime; done (.datetime (textOf (← since start))))
          (orElse (do let f ← float; done (.float f)) (do let i ← integer; done (.integer i)))
      else if b == 95 then expecting ["leading digit"] (do let i ← integer; done (.integer i))
      else if b == 46 then expecting ["leading digit"] (do let f ← float; done (.float f))
      else if b == 116 then notAString (do cut (word (bytesOf "true")); done (.boolean true))
      else if b == 102 then notAString (do cut (word (bytesOf "false")); done (.boolean false))
      else if b == 105 then notAString (do word (bytesOf "inf"); done (.float infinityBits))
      else if b == 110 then notAString (do word (bytesOf "nan"); done (.float nanBits))
      else notAString halt
    | none => halt

/-- An array, from its opening bracket. -/
def array (depth : Nat) : Nat → Scan Node
  | 0 => halt
  | fuel + 1 => do
    let start ← get
    if 80 ≤ depth + 1 then cut (refuse start "recursion limit exceeded")
    byte 91
    let items ← cut (arrayItems (depth + 1) fuel)
    expecting ["`]`"] (labelled "array" (cut (byte 93)))
    pure (.array items ⟨start, ← get⟩)

/-- The items of an array, separated by commas, a comma allowed after the last. -/
def arrayItems (depth : Nat) : Nat → Scan (List Node)
  | 0 => halt
  | fuel + 1 => do
    let items ← optional (do
      let vs ← sepBy1 (arrayItem depth fuel) (byte 44)
      let _ ← optional (byte 44)
      pure vs)
    filler
    pure (items.getD [])

/-- An item of an array with the blanks, line endings and comments around it. -/
def arrayItem (depth : Nat) : Nat → Scan Node
  | 0 => halt
  | fuel + 1 => do
    filler
    let v ← value depth fuel
    filler
    pure v

/-- An inline table, from its opening brace. -/
def inlineTable (depth : Nat) : Nat → Scan Node
  | 0 => halt
  | fuel + 1 => do
    let start ← get
    if 80 ≤ depth + 1 then cut (refuse start "recursion limit exceeded")
    byte 123
    let bodyStart ← get
    let pairs ← cut (do
      let ps ← optional (sepBy1 (inlinePair (depth + 1) fuel) (byte 44))
      blanks
      pure (ps.getD []))
    let entries ← match assembleBraces pairs [] with
      | .ok es => pure es
      | .error msg => cut (refuse bodyStart msg)
    expecting ["`\x7d`"] (labelled "inline table" (cut (byte 125)))
    pure (.table .braces entries (some ⟨start, ← get⟩))

/-- A key/value pair of an inline table. -/
def inlinePair (depth : Nat) : Nat → Scan (List Key × Node)
  | 0 => halt
  | fuel + 1 => do
    let path ← key
    cut (do
      expecting ["`.`", "`=`"] (byte 61)
      blanks
      let v ← value depth fuel
      blanks
      pure (path, v))

end

end Toml

end TopSpeed
