import TopSpeed.Config.Toml.Tree
/-!
# Scanning TOML text

A `Scan` reads the bytes of a document from a position and may fail with a
`Problem`. A failure is either open (an alternative may still be tried from
where the failed step began) or final (the text cannot be read, whatever comes
next). A grammar step that has seen enough to know what it reads makes the
failures after it final (`Scan.cut`).

On its way out through the grammar a failure gathers notes: the name of the
construct it was in (`invalid integer`) and what would have been accepted there
(`expected newline, `#``). Its message names the innermost construct, every
expectation in order, and the cause if one was given (`value is out of range`).
The offset of a failure is where the reading stood when it failed; a check made
on a finished piece fails at the start of that piece.

This module holds the monad and its combinators, and the pieces of text that
separate the rest: blanks, comments and line endings.
-/

namespace TopSpeed

namespace Toml

/-- What a failure gathers on its way out of the grammar. -/
inductive Note where
  /-- The construct being read: `invalid ...`. -/
  | label (what : String)
  /-- Something that would have been accepted: `expected ...`. -/
  | expected (what : String)
  deriving Repr, Inhabited, DecidableEq

/-- Why a step of reading failed: where, the notes gathered so far (innermost
first), the cause if one was given, and whether no alternative may be tried. -/
structure Problem where
  /-- Where the reading stood. -/
  offset : Nat
  /-- The notes gathered, innermost first. -/
  notes : List Note
  /-- What went wrong, when a check said so. -/
  cause : Option String
  /-- Whether the failure ends the reading. -/
  final : Bool
  deriving Repr, Inhabited

/-- The message of a problem: the innermost construct, then every expectation,
then the cause, each on a line of its own. -/
def Problem.message (p : Problem) : String :=
  let label := p.notes.findSome? fun
    | .label w => some w
    | .expected _ => none
  let expected := p.notes.filterMap fun
    | .expected w => some w
    | .label _ => none
  let lines := (label.map ("invalid " ++ ·)).toList ++
    (if expected.isEmpty then [] else ["expected " ++ ", ".intercalate expected]) ++ p.cause.toList
  "\n".intercalate lines

/-- A reader of the bytes of a document, at a position, that may fail. -/
abbrev Scan := ReaderT (Array UInt8) (StateT Nat (Except Problem))

namespace Scan

variable {α : Type}

/-- The byte `k` places ahead. -/
def peekAt (k : Nat) : Scan (Option UInt8) := do
  let src ← read
  pure src[(← get) + k]?

/-- The next byte. -/
def peek : Scan (Option UInt8) := peekAt 0

/-- Moves on by `n` bytes. -/
def skip (n : Nat) : Scan Unit := modify (· + n)

/-- Fails at an offset; an alternative may be tried. -/
def failAt (offset : Nat) : Scan α := throw ⟨offset, [], none, false⟩

/-- Fails at an offset for a cause; an alternative may be tried. -/
def refuse (offset : Nat) (cause : String) : Scan α := throw ⟨offset, [], some cause, false⟩

/-- Fails here; an alternative may be tried. -/
def halt : Scan α := do failAt (← get)

/-- Runs `p`; when it fails open, goes back to where it began and runs `q`. Of two
open failures the second is kept. -/
def orElse (p q : Scan α) : Scan α :=
  tryCatch p fun e => if e.final then throw e else q

/-- Runs `p`, or nothing when it fails open. -/
def optional (p : Scan α) : Scan (Option α) :=
  tryCatch (some <$> p) fun e => if e.final then throw e else pure none

/-- Makes the failures of `p` final. -/
def cut (p : Scan α) : Scan α :=
  tryCatch p fun e => throw { e with final := true }

/-- Adds a note to the failures of `p`. -/
def note (n : Note) (p : Scan α) : Scan α :=
  tryCatch p fun e => throw { e with notes := e.notes ++ [n] }

/-- Names the construct `p` reads in its failures. -/
def labelled (what : String) (p : Scan α) : Scan α := note (.label what) p

/-- Adds what would have been accepted to the failures of `p`, in order. -/
def expecting (whats : List String) (p : Scan α) : Scan α :=
  whats.foldl (fun q w => note (.expected w) q) p

/-- Takes the byte `b`. -/
def byte (b : UInt8) : Scan Unit := do
  if (← peek) == some b then skip 1 else halt

/-- Takes the bytes of a word. -/
def word (bs : List UInt8) : Scan Unit := do
  let src ← read
  let i ← get
  if (List.range bs.length).all (fun k => src[i + k]? == bs[k]?) then skip bs.length else halt

/-- Takes one byte that passes a test. -/
def oneOf (p : UInt8 → Bool) : Scan UInt8 := do
  match ← peek with
  | some b => if p b then do skip 1; pure b else halt
  | none => halt

/-- Takes bytes while they pass a test, at most `n`. -/
def takeUpTo (p : UInt8 → Bool) : Nat → Scan (List UInt8)
  | 0 => pure []
  | n + 1 => do
    match ← peek with
    | some b =>
      if p b then do
        skip 1
        let rest ← takeUpTo p n
        pure (b :: rest)
      else pure []
    | none => pure []

/-- Takes every byte from here that passes a test. -/
def takeWhile (p : UInt8 → Bool) : Scan (List UInt8) := do
  takeUpTo p (← read).size

/-- Takes at least one byte that passes a test, and every one after it. -/
def takeSome (p : UInt8 → Bool) : Scan (List UInt8) := do
  let bs ← takeWhile p
  if bs.isEmpty then halt else pure bs

/-- Runs `p` as often as it succeeds, at most `n` times. -/
def manyUpTo (p : Scan α) : Nat → Scan (List α)
  | 0 => pure []
  | n + 1 => do
    match ← optional p with
    | some a => pure (a :: (← manyUpTo p n))
    | none => pure []

/-- Runs `p` as often as it succeeds; each success takes at least one byte, so the
length of the text bounds the count. -/
def many (p : Scan α) : Scan (List α) := do
  manyUpTo p ((← read).size + 1)

/-- The items after the first of a list separated by `sep`, at most `n` of them; a
separator with no item after it is left unread. -/
def sepRest (p : Scan α) (sep : Scan Unit) : Nat → Scan (List α)
  | 0 => pure []
  | n + 1 => do
    match ← optional (do sep; p) with
    | some a => pure (a :: (← sepRest p sep n))
    | none => pure []

/-- One item or more, separated by `sep`. -/
def sepBy1 (p : Scan α) (sep : Scan Unit) : Scan (List α) := do
  let a ← p
  let rest ← sepRest p sep ((← read).size + 1)
  pure (a :: rest)

/-- The bytes from an offset to here. -/
def since (start : Nat) : Scan (List UInt8) := do
  pure ((← read).extract start (← get)).toList

/-- Succeeds at the end of the text only. -/
def eof : Scan Unit := do
  if (← peek).isNone then pure () else halt

end Scan

open Scan

/-! ### Blanks, comments and line endings -/

/-- A space or a tab. -/
def isBlank (b : UInt8) : Bool := b == 32 || b == 9

/-- A byte allowed in a comment: a tab, a printable ASCII byte or any non-ASCII one. -/
def isCommentByte (b : UInt8) : Bool := b == 9 || (32 ≤ b && b ≤ 126) || 128 ≤ b

/-- A decimal digit byte. -/
def isDigitByte (b : UInt8) : Bool := 48 ≤ b && b ≤ 57

/-- Skips spaces and tabs. -/
def blanks : Scan Unit := do
  let _ ← takeWhile isBlank

/-- A comment: `#` and the rest of the line's allowed bytes. -/
def comment : Scan Unit := do
  byte 35
  let _ ← takeWhile isCommentByte

/-- A line ending: `\n` or `\r\n`. -/
def newline : Scan Unit := orElse (byte 10) (do byte 13; byte 10)

/-- A line ending or the end of the text. -/
def lineEnding : Scan Unit := orElse newline eof

/-- The rest of a line after a value or a header: blanks, perhaps a comment, and
a line ending. -/
def lineTrailing : Scan Unit := do
  blanks
  let _ ← optional comment
  lineEnding

/-- Skips blanks, line endings and comments. -/
def filler : Scan Unit := do
  let _ ← many (orElse (do let _ ← takeSome isBlank) (orElse newline comment))

end Toml

end TopSpeed
