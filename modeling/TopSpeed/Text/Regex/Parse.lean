import TopSpeed.Text.Regex.Reader
/-!
# Reading a pattern: the grammar

A pattern is a sequence of pieces, with `|` between alternatives:

* a character, `.`, `^` or `$`;
* an escape: `\x41`, `\u{263A}` and the like, the Perl classes `\d \s \w` and their
  negations, a Unicode class `\pL` or `\p{Name}`, an assertion (`\A \z \b \B \< \>`,
  `\b{start}` and the like), an escaped character;
* a bracketed class `[...]`: characters, ranges, escapes, ASCII classes
  `[:alpha:]`, nested classes, and the operations `&&`, `--` and `~~`;
* a group: `(...)`, `(?P<name>...)`, `(?<name>...)` or `(?flags:...)`, or a flag
  setting `(?flags)` that holds to the end of the group it stands in;
* a repetition of the piece before: `?`, `*`, `+`, `{m}`, `{m,}`, `{m,n}`, each
  perhaps followed by `?`.

The reading stops at the first problem of syntax, at the place it is found. Once
the pattern reads well, an unclosed group, then a nesting too deep, then the first
problem of meaning is reported. The meaning of a piece is checked as it is
finished, as the compiler of the automaton checks it, and the compiler at hand has
no Unicode tables:

* with the flag `u` on (the default), a Perl class, a Unicode class and any
  piece matched without regard to case are refused;
* with the flag `u` off, a Unicode class, a character beyond ASCII in a class, and
  anything that may match a byte beyond ASCII (`.`, a negated class, `\xFF`) are
  refused.
-/

namespace TopSpeed

namespace Regex

namespace Reader

/-! ### Meaning -/

/-- Checks a character standing alone: a byte beyond ASCII written in hexadecimal
may not stand in a pattern without Unicode, and the case of a character cannot be
folded with Unicode. Without Unicode only ASCII letters are folded, and any other
character stands for itself. -/
def literalMeaning (c : Char) (byte : Bool) (span : Span) : Reader Unit := do
  let f ← flags
  if !f.unicode && byte && 0x7F < c.toNat then defer .invalidUtf8 span
  else if f.caseless && f.unicode then defer .unicodeCaseUnavailable span

/-- Checks a character in a class: without Unicode a class holds bytes, so a
character beyond ASCII is refused. -/
def classLiteralMeaning (c : Char) (byte : Bool) (span : Span) : Reader Unit := do
  if (← flags).unicode then return
  if byte && 0x7F < c.toNat then defer .invalidUtf8 span
  else if 0x7F < c.toNat then defer .unicodeNotAllowed span

/-- Checks a Perl class: it needs Unicode tables with the flag `u`, and negated it
matches bytes beyond ASCII without. -/
def perlMeaning (negated : Bool) (span : Span) : Reader Unit := do
  if (← flags).unicode then defer .unicodePerlClassNotFound span
  else if negated then defer .invalidUtf8 span

/-- Checks a class made of ranges (an ASCII class, a bracketed class): with
Unicode its case cannot be folded, and without, negated, it matches bytes beyond
ASCII. -/
def setMeaning (negated : Bool) (span : Span) : Reader Unit := do
  let f ← flags
  if f.unicode then
    if f.caseless then defer .unicodeCaseUnavailable span
  else if negated then defer .invalidUtf8 span

/-- Checks an operation on classes: with Unicode and without regard to case the
sides are folded, the right one first, and only an empty side folds. -/
def operationMeaning (lhs rhs : Shape) : Reader Unit := do
  let f ← flags
  if f.unicode && f.caseless then
    if !rhs.isEmpty then defer .unicodeCaseUnavailable rhs.span
    else if !lhs.isEmpty then defer .unicodeCaseUnavailable lhs.span

/-! ### Repetitions -/

/-- A decimal number, blanks allowed around it: its value, or why there is none. -/
def decimal : Reader (Except SyntaxError Nat) := do
  let size := (← read).size
  let _ ← collectWhile Unicode.isWhiteSpace false size
  let start ← pos
  let digits ← collectWhile Char.isDigit true size
  let span : Span := ⟨start, ← pos⟩
  let _ ← collectWhile Unicode.isWhiteSpace true size
  if digits.isEmpty then return .error ⟨.decimalEmpty, span, none⟩
  let v := digits.foldl (fun (acc : Nat) d => acc * 10 + (d.toNat - 48)) 0
  if Nat.pow 2 32 ≤ v then return .error ⟨.decimalInvalid, span, none⟩
  return .ok v

/-- The count of a repetition, an empty one told as such. -/
def repetitionCount : Reader (Except SyntaxError Nat) := do
  match ← decimal with
  | .error e =>
    return .error (if e.kind == .decimalEmpty then { e with kind := .repetitionCountDecimalEmpty } else e)
  | .ok v => return .ok v

/-- Takes the piece a repetition applies to off the current sequence: there must be
one, and not a flag setting. -/
def operand : Reader Shape := do
  let s ← get
  match s.last, s.seq.items.getLast? with
  | .item, some x =>
    set { s with seq := { s.seq with items := s.seq.items.dropLast } }
    return x
  | _, _ => stop .repetitionMissing (← here)

/-- A repetition by `?`, `*` or `+`, perhaps lazy. -/
def uncountedRepetition : Reader Unit := do
  let x ← operand
  if (← bump) && (← cur) == '?' then let _ ← bump
  push (.level ⟨x.span.start, ← pos⟩ [x])

/-- A repetition by a count in braces, perhaps lazy. -/
def countedRepetition : Reader Unit := do
  let start ← pos
  let x ← operand
  let unclosed : Reader Unit := do stop .repetitionCountUnclosed ⟨start, ← pos⟩
  if !(← bumpAndBumpSpace) then unclosed
  let low ← repetitionCount
  if ← atEnd then unclosed
  let (lo, hi) ← if (← cur) == ',' then do
      if !(← bumpAndBumpSpace) then unclosed
      if (← cur) != '}' then do
        let lo ← orStop low
        let hi ← orStop (← repetitionCount)
        pure (lo, some hi)
      else do
        let lo ← orStop low
        pure (lo, none)
    else do
      let lo ← orStop low
      pure (lo, some lo)
  if (← atEnd) || (← cur) != '}' then unclosed
  if (← bumpAndBumpSpace) && (← cur) == '?' then let _ ← bump
  match hi with
  | some h => if h < lo then stop .repetitionCountInvalid ⟨start, ← pos⟩
  | none => pure ()
  push (.level ⟨x.span.start, ← pos⟩ [x])

/-! ### Escapes -/

/-- What an escape stands for, as far as the rest of the reading cares. -/
inductive Piece where
  /-- One character; `byte` when written as two hexadecimal digits after `\x`. -/
  | literal (c : Char) (byte : Bool)
  /-- A Perl class, perhaps negated. -/
  | perl (negated : Bool)
  /-- A Unicode class. -/
  | unicode
  /-- A zero-width assertion; `word` for a word boundary. -/
  | assertion (word : Bool)
  deriving Repr, Inhabited, DecidableEq

/-- The digits of a hexadecimal escape without braces: exactly `n`. -/
def hexDigits (n : Nat) : Reader Char := do
  let start ← pos
  let rec go : Nat → Nat → Nat → Reader Nat
    | 0, _, acc => pure acc
    | k + 1, i, acc => do
      if 0 < i then
        if !(← bumpAndBumpSpace) then stop .escapeUnexpectedEof (← here)
      if !isHexDigit (← cur) then stop .escapeHexInvalidDigit (← spanChar)
      go k (i + 1) (acc * 16 + hexDigitValue (← cur))
  let v ← go n 0 0
  let _ ← bumpAndBumpSpace
  if isCodePoint v then return Char.ofNat v
  else stop .escapeHexInvalid ⟨start, ← pos⟩

/-- The digits of a hexadecimal escape in braces. -/
def hexBrace : Reader Char := do
  let bracePos ← pos
  let start := bracePos + 1
  let rec go : Nat → List Char → Reader (List Char)
    | 0, acc => pure acc
    | k + 1, acc => do
      if !(← bumpAndBumpSpace) || (← cur) == '}' then return acc
      if !isHexDigit (← cur) then stop .escapeHexInvalidDigit (← spanChar)
      go k (acc ++ [← cur])
  let digits ← go ((← read).size + 1) []
  if ← atEnd then stop .escapeUnexpectedEof ⟨bracePos, ← pos⟩
  let stop_ ← pos
  let _ ← bumpAndBumpSpace
  if digits.isEmpty then stop .escapeHexEmpty ⟨bracePos, ← pos⟩
  let v := digits.foldl (fun (acc : Nat) d => acc * 16 + hexDigitValue d) 0
  if v < Nat.pow 2 32 && isCodePoint v then return Char.ofNat v
  else stop .escapeHexInvalid ⟨start, stop_⟩

/-- A hexadecimal escape after its backslash: `\x`, `\u` or `\U`; with whether
it is two digits after `\x`. -/
def hexEscape : Reader (Char × Bool) := do
  let n := match ← cur with
    | 'x' => 2
    | 'u' => 4
    | _ => 8
  if !(← bumpAndBumpSpace) then stop .escapeUnexpectedEof (← here)
  if (← cur) == '{' then return (← hexBrace, false)
  else return (← hexDigits n, n == 2)

/-- A Unicode class after its backslash: `\pL`, `\p{Name}`, `\P...`, and its
meaning: not allowed without Unicode, and with it a property the reader does not
know. -/
def unicodeClass (start : Nat) : Reader Unit := do
  if !(← bumpAndBumpSpace) then stop .escapeUnexpectedEof (← here)
  if (← cur) == '{' then
    let rec go : Nat → List Char → Reader (List Char)
      | 0, acc => pure acc
      | k + 1, acc => do
        if (← bumpAndBumpSpace) && (← cur) != '}' then go k (acc ++ [← cur]) else pure acc
    let name ← go ((← read).size + 1) []
    if ← atEnd then stop .escapeUnexpectedEof (← here)
    let _ ← bump
    let span : Span := ⟨start, ← pos⟩
    if !(← flags).unicode then defer .unicodeNotAllowed span
    else defer (namedClassProblem (String.ofList name)) span
  else
    let c ← cur
    if c == '\\' then stop .unicodeClassInvalid (← spanChar)
    let _ ← bumpAndBumpSpace
    let span : Span := ⟨start, ← pos⟩
    if !(← flags).unicode then defer .unicodeNotAllowed span
    else defer .unicodePropertyNotFound span

/-- A special word boundary `\b{start}` and the like, after `\b`; nothing when the
brace starts a repetition instead. -/
def specialWordBoundary (wbStart : Nat) : Reader Unit := do
  let start ← pos
  if !(← bumpAndBumpSpace) then stop .specialWordOrRepetitionUnexpectedEof ⟨wbStart, ← pos⟩
  let startContents ← pos
  let valid := fun (c : Char) => c.isAlpha || c == '-'
  if !valid (← cur) then
    setPos start
    return
  let name ← collectWhile valid true ((← read).size + 1)
  if (← atEnd) || (← cur) != '}' then stop .specialWordBoundaryUnclosed ⟨start, ← pos⟩
  let stop_ ← pos
  let _ ← bump
  let known := ["start", "end", "start-half", "end-half"]
  if !known.contains (String.ofList name) then
    stop .specialWordBoundaryUnrecognized ⟨startContents, stop_⟩

/-- An escape, from its backslash: what it stands for and where. -/
def escape : Reader (Piece × Span) := do
  let start ← pos
  if !(← bump) then stop .escapeUnexpectedEof ⟨start, ← pos⟩
  let c ← cur
  if c.isDigit then stop .unsupportedBackreference ⟨start, (← pos) + 1⟩
  if c == 'x' || c == 'u' || c == 'U' then
    let (ch, byte) ← hexEscape
    return (.literal ch byte, ⟨start, ← pos⟩)
  if c == 'p' || c == 'P' then
    unicodeClass start
    return (.unicode, ⟨start, ← pos⟩)
  if "dswDSW".toList.contains c then
    let _ ← bump
    return (.perl c.isUpper, ⟨start, ← pos⟩)
  let _ ← bump
  let span : Span := ⟨start, ← pos⟩
  if isEscapeable c then return (.literal c false, span)
  match c with
  | 'a' => return (.literal '\x07' false, span)
  | 'f' => return (.literal '\x0c' false, span)
  | 't' => return (.literal '\t' false, span)
  | 'n' => return (.literal '\n' false, span)
  | 'r' => return (.literal '\r' false, span)
  | 'v' => return (.literal '\x0b' false, span)
  | 'A' | 'z' => return (.assertion false, span)
  | 'b' =>
    if !(← atEnd) && (← cur) == '{' then specialWordBoundary start
    return (.assertion true, ⟨start, ← pos⟩)
  | 'B' | '<' | '>' => return (.assertion true, span)
  | _ => stop .escapeUnrecognized span

/-! ### Bracketed classes -/

/-- The problem of an unclosed class: at its innermost open bracket. -/
def unclosedClass {α : Type} : Reader α := do
  let opened := (← get).classes.findSome? fun
    | .opened sp _ _ => some sp
    | .operation _ => none
  stop .classUnclosed (opened.getD (← here))

/-- Adds an item to the innermost class. -/
def addClassItem (x : Shape) : Reader Unit :=
  modify fun s => { s with union := s.union.push x }

/-- An ASCII class such as `[:alpha:]`, if one starts here, with whether it is
negated and where it stands; else nothing is read. -/
def asciiClass : Reader (Option (Bool × Span)) := do
  let start ← pos
  let back : Reader (Option (Bool × Span)) := do
    setPos start
    return none
  if !(← bump) || (← cur) != ':' then return ← back
  if !(← bump) then return ← back
  let negated := (← cur) == '^'
  if negated then
    if !(← bump) then return ← back
  let nameStart ← pos
  let rec go : Nat → Reader Unit
    | 0 => pure ()
    | k + 1 => do
      if (← cur) != ':' then
        if ← bump then go k
  go ((← read).size + 1)
  if ← atEnd then return ← back
  let name := String.ofList (((← read).toList.drop nameStart).take ((← pos) - nameStart))
  if !(← bumpIf [':', ']']) then return ← back
  if !asciiClassNames.contains name then return ← back
  return some (negated, ⟨start, ← pos⟩)

/-- Opens a bracketed class: its `[`, a `^`, and leading `-` or `]` taken as
themselves. -/
def openClass : Reader Unit := do
  let start ← pos
  if !(← bumpAndBumpSpace) then stop .classUnclosed ⟨start, ← pos⟩
  let negated := (← cur) == '^'
  if negated then
    if !(← bumpAndBumpSpace) then stop .classUnclosed ⟨start, ← pos⟩
  let rec dashes : Nat → Union → Reader Union
    | 0, u => pure u
    | k + 1, u => do
      if (← cur) != '-' then return u
      let u := u.push (.flat (← spanChar))
      if !(← bumpAndBumpSpace) then stop .classUnclosed ⟨start, start⟩
      dashes k u
  let u ← dashes ((← read).size + 1) ⟨← here, []⟩
  let u ← if u.items.isEmpty && (← cur) == ']' then do
      let u := u.push (.flat (← spanChar))
      if !(← bumpAndBumpSpace) then stop .classUnclosed ⟨start, ← pos⟩
      pure u
    else pure u
  let span : Span := ⟨start, ← pos⟩
  modify fun s => { s with classes := .opened span negated s.union :: s.classes, union := u }

/-- Finishes the operation on classes that waits for its right side, if one does. -/
def finishOperation (rhs : Shape) : Reader Shape := do
  match (← get).classes with
  | .operation lhs :: rest =>
    operationMeaning lhs rhs
    modify fun s => { s with classes := rest }
    return .level ⟨lhs.span.start, rhs.span.stop⟩ [lhs, rhs]
  | _ => return rhs

/-- Starts an operation on classes, after its two characters: what was read since
the bracket or the last operation is its left side. -/
def startOperation : Reader Unit := do
  let lhs ← finishOperation (← get).union.close
  let fresh : Union := ⟨← here, []⟩
  modify fun s => { s with classes := .operation lhs :: s.classes, union := fresh }

/-- Closes the innermost class at its `]`; says whether it was the outermost, which
then stands in the current sequence. -/
def closeClass : Reader Bool := do
  let set ← finishOperation (← get).union.close
  let _ ← bump
  match (← get).classes with
  | .opened sp negated outer :: rest =>
    let shape := Shape.level ⟨sp.start, ← pos⟩ [set]
    setMeaning negated shape.span
    modify fun s => { s with classes := rest, union := outer.push shape }
    if rest.isEmpty then
      push shape
      return true
    else return false
  | _ => return true

/-- One item of a class: an escape or a character. -/
def classItem : Reader (Piece × Span) := do
  if (← cur) == '\\' then escape
  else
    let c ← cur
    let sp ← spanChar
    let _ ← bump
    return (.literal c false, sp)

/-- The character a range bound stands for. -/
def rangeBound : Piece × Span → Reader Char
  | (.literal c _, _) => pure c
  | (_, sp) => stop .classRangeLiteral sp

/-- Checks the meaning of a class item that stands alone. -/
def classItemMeaning : Piece × Span → Reader Unit
  | (.literal c byte, sp) => classLiteralMeaning c byte sp
  | (.perl negated, sp) => perlMeaning negated sp
  | _ => pure ()

/-- An item of a class, or a range of two. -/
def classRange : Reader Unit := do
  let first ← classItem
  bumpSpace
  if ← atEnd then unclosedClass
  let next ← peekSpace
  if (← cur) != '-' || next == some ']' || next == some '-' then
    match first with
    | (.assertion _, sp) => stop .classEscapeInvalid sp
    | _ =>
      classItemMeaning first
      addClassItem (.flat first.2)
      return
  if !(← bumpAndBumpSpace) then unclosedClass
  let second ← classItem
  let lo ← rangeBound first
  let hi ← rangeBound second
  let span : Span := ⟨first.2.start, second.2.stop⟩
  if hi < lo then stop .classRangeInvalid span
  classItemMeaning first
  classItemMeaning second
  addClassItem (.flat span)

/-- A bracketed class, from its `[` to its `]`, nested classes included. -/
def bracketed : Reader Unit := do
  openClass
  let rec go : Nat → Reader Unit
    | 0 => pure ()
    | k + 1 => do
      bumpSpace
      if ← atEnd then unclosedClass
      match ← cur with
      | '[' =>
        match ← asciiClass with
        | some (negated, sp) =>
          setMeaning negated sp
          addClassItem (.flat sp)
        | none => openClass
        go k
      | ']' =>
        if !(← closeClass) then go k
      | c =>
        if (c == '&' || c == '-' || c == '~') && (← peek) == some c then
          let _ ← bump
          let _ ← bump
          startOperation
          go k
        else do
          classRange
          go k
  go (2 * (← read).size + 2)

/-! ### Groups -/

/-- The flags of a flag group, up to its `:` or `)`. -/
def flagItems : Reader (List (FlagItem × Span)) := do
  let rec go : Nat → List (FlagItem × Span) → Option Span → Reader (List (FlagItem × Span) × Option Span)
    | 0, items, neg => pure (items, neg)
    | k + 1, items, neg => do
      let c ← cur
      if c == ':' || c == ')' then return (items, neg)
      let sp ← spanChar
      let item : FlagItem := if c == '-' then .negation else .flag c
      if c != '-' && !"imsUuRx".toList.contains c then stop .flagUnrecognized sp
      match items.find? (·.1 == item) with
      | some (_, original) =>
        throw ⟨if c == '-' then .flagRepeatedNegation else .flagDuplicate, sp, some original⟩
      | none => pure ()
      if !(← bump) then stop .flagUnexpectedEof (← here)
      go k (items ++ [(item, sp)]) (if c == '-' then some sp else none)
  let (items, neg) ← go ((← read).size + 1) [] none
  match neg with
  | some sp => stop .flagDanglingNegation sp
  | none => return items

/-- A capture name after `(?P<` or `(?<`, with its `>`. -/
def captureName : Reader Unit := do
  if ← atEnd then stop .groupNameUnexpectedEof (← here)
  let start ← pos
  let rec go : Nat → Reader Unit
    | 0 => pure ()
    | k + 1 => do
      if (← cur) == '>' then return
      if !isCaptureChar (← cur) ((← pos) == start) then stop .groupNameInvalid (← spanChar)
      if ← bump then go k
  go ((← read).size + 1)
  let stop_ ← pos
  if ← atEnd then stop .groupNameUnexpectedEof (← here)
  let _ ← bump
  if stop_ == start then stop .groupNameEmpty ⟨start, start⟩
  let name := String.ofList (((← read).toList.drop start).take (stop_ - start))
  let span : Span := ⟨start, stop_⟩
  match (← get).names.find? (·.1 == name) with
  | some (_, original) => throw ⟨.groupNameDuplicate, span, some original⟩
  | none => modify fun s => { s with names := s.names ++ [(name, span)] }

/-- Opens a group whose flags, if any, are `items`: a new sequence starts here. -/
def enterGroup (openSpan : Span) (items : List (FlagItem × Span)) : Reader Unit := do
  let p ← pos
  modify fun s => { s with
    groups := ⟨openSpan, s.seq, s.alt, s.flags⟩ :: s.groups
    flags := s.flags.set items
    seq := ⟨p, []⟩
    alt := none
    last := .none }

/-- A group's opening: `(`, `(?P<name>`, `(?<name>`, `(?flags:` or a flag setting
`(?flags)`. -/
def openGroup : Reader Unit := do
  let openSpan ← spanChar
  let _ ← bump
  bumpSpace
  if ← firstOf [['?', '='], ['?', '!'], ['?', '<', '='], ['?', '<', '!']] then
    stop .unsupportedLookAround ⟨openSpan.start, ← pos⟩
  let inner ← here
  if ← firstOf [['?', 'P', '<'], ['?', '<']] then
    captureName
    enterGroup openSpan []
  else if ← bumpIf ['?'] then
    if ← atEnd then stop .groupUnclosed openSpan
    let items ← flagItems
    let closing ← cur
    let _ ← bump
    if closing == ')' then
      if items.isEmpty then stop .repetitionMissing inner
      let span : Span := ⟨openSpan.start, ← pos⟩
      modify fun s => { s with
        flags := s.flags.set items
        seq := { s.seq with items := s.seq.items ++ [.flat span] }
        last := .flags }
    else enterGroup openSpan items
  else enterGroup openSpan []

/-- Closes the innermost group at its `)`: the group stands in the sequence around
it, and the flags before it are back in force. -/
def closeGroup : Reader Unit := do
  let s ← get
  match s.groups with
  | [] => stop .groupUnopened (← spanChar)
  | f :: rest =>
    let inner := closeBranches s.alt s.seq (← pos)
    let _ ← bump
    let shape := Shape.level ⟨f.span.start, ← pos⟩ [inner]
    modify fun s => { s with
      groups := rest
      flags := f.flags
      seq := { f.outer with items := f.outer.items ++ [shape] }
      alt := f.outerAlt
      last := .item }

/-- Ends an alternative at its `|`: the next one starts after it. -/
def alternate : Reader Unit := do
  let s ← get
  let branch := s.seq.close (← pos)
  let alt : Alt := match s.alt with
    | some a => { a with branches := a.branches ++ [branch] }
    | none => ⟨s.seq.start, [branch]⟩
  let _ ← bump
  let p ← pos
  modify fun s => { s with alt := some alt, seq := ⟨p, []⟩, last := .none }

/-! ### Patterns -/

/-- Reads the pieces of a pattern, at most `n`. -/
def pieces : Nat → Reader Unit
  | 0 => pure ()
  | n + 1 => do
    bumpSpace
    if ← atEnd then return
    match ← cur with
    | '(' => openGroup
    | ')' => closeGroup
    | '|' => alternate
    | '[' => bracketed
    | '?' | '*' | '+' => uncountedRepetition
    | '{' => countedRepetition
    | '\\' =>
      let (piece, span) ← escape
      match piece with
      | .literal c byte => literalMeaning c byte span
      | .perl negated => perlMeaning negated span
      | .unicode => pure ()
      | .assertion word =>
        if word && (← flags).unicode then modify fun s => { s with wordUnicode := true }
      push (.flat span)
    | c =>
      let span ← spanChar
      if c == '.' then
        if !(← flags).unicode then defer .invalidUtf8 span
      else if c != '^' && c != '$' then literalMeaning c false span
      let _ ← bump
      push (.flat span)
    pieces n

/-- Reads a whole pattern: a group left open is a problem at its innermost
parenthesis; then the nesting is checked, and the first problem of meaning is
reported. -/
def pattern : Reader Unit := do
  pieces ((← read).size + 1)
  let s ← get
  match s.groups with
  | f :: _ => stop .groupUnclosed f.span
  | [] => pure ()
  match (closeBranches s.alt s.seq (← pos)).tooDeep 0 with
  | some sp => stop .nestLimitExceeded sp
  | none => pure ()
  match s.deferred with
  | some e => throw e
  | none => pure ()

end Reader

end Regex

end TopSpeed
