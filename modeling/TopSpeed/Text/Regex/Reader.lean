import TopSpeed.Text.Regex.Syntax
/-!
# Reading a pattern: the state and the moves

A pattern is read character by character, left to right, by a `Reader`: a state
monad over the characters of the pattern that may stop at a problem.

The state (`Reading`) holds where the reading stands, the flags in force
(`Flags`: blanks skipped, Unicode known, case ignored), the sequence being read
and the alternatives before it, the open groups with what stood around each, the
capture names so far, the bracketed classes being read, and what the reading
learnt along the way that only matters once the whole pattern has read well: the
first problem of meaning (`Reading.deferred`) and whether a word boundary that
knows Unicode was met.

The moves are those of a careful scanner: look at the next character, move past
it, move past it and then past blanks and comments when the flag `x` is on, and
take characters while a test holds. Every loop takes a count bounded by the
length of the pattern, and each of its rounds moves on.
-/

namespace TopSpeed

namespace Regex

/-- A flag of a flag group: a letter, or the `-` that negates those after it. -/
inductive FlagItem where
  | negation
  | flag (c : Char)
  deriving Repr, Inhabited, DecidableEq

/-- The state a flag list gives a flag, if it names it. -/
def flagState (items : List (FlagItem × Span)) (c : Char) : Option Bool :=
  let rec go (negated : Bool) : List (FlagItem × Span) → Option Bool
    | [] => none
    | (.negation, _) :: rest => go true rest
    | (.flag d, _) :: rest => if d == c then some !negated else go negated rest
  go false items

/-- The flags that change how the rest of a pattern is read and understood. -/
structure Flags where
  /-- Blanks and comments are skipped (flag `x`). -/
  ignoreSpace : Bool
  /-- Classes, boundaries and cases know Unicode (flag `u`). -/
  unicode : Bool
  /-- Letters match without regard to case (flag `i`). -/
  caseless : Bool
  deriving Repr, Inhabited

/-- The flags after a flag list: those it names changed, the others kept. -/
def Flags.set (f : Flags) (items : List (FlagItem × Span)) : Flags :=
  { ignoreSpace := (flagState items 'x').getD f.ignoreSpace
    unicode := (flagState items 'u').getD f.unicode
    caseless := (flagState items 'i').getD f.caseless }

/-- What the current sequence of a pattern ends with: nothing, a flag setting, or
something a repetition may apply to. -/
inductive Last where
  | none
  | flags
  | item
  deriving Repr, Inhabited, DecidableEq

/-- A sequence being read: where it started and its pieces so far, in order. -/
structure Seq where
  /-- Where the sequence started. -/
  start : Nat
  /-- Its pieces. -/
  items : List Shape
  deriving Repr, Inhabited

/-- The shape of a finished sequence that ends at `stop`: an empty piece, its one
piece, or a level of its own for two pieces or more. -/
def Seq.close (q : Seq) (stop : Nat) : Shape :=
  match q.items with
  | [] => .flat ⟨q.start, stop⟩
  | [x] => x
  | xs => .level ⟨q.start, stop⟩ xs

/-- The alternatives read before the current one, and where the first started. -/
structure Alt where
  /-- Where the first alternative started. -/
  start : Nat
  /-- The finished alternatives. -/
  branches : List Shape
  deriving Repr, Inhabited

/-- The shape of what stands between two parentheses, or in a whole pattern, when
it ends at `stop`: the sequence, or the alternation it is the last branch of. -/
def closeBranches (alt : Option Alt) (q : Seq) (stop : Nat) : Shape :=
  match alt with
  | none => q.close stop
  | some a => .level ⟨a.start, stop⟩ (a.branches ++ [q.close stop])

/-- An open group: its parenthesis, and what stood around it when it opened. -/
structure Frame where
  /-- The opening parenthesis. -/
  span : Span
  /-- The sequence the group stands in. -/
  outer : Seq
  /-- The alternatives before that sequence. -/
  outerAlt : Option Alt
  /-- The flags in force before the group. -/
  flags : Flags
  deriving Repr, Inhabited

/-- The items of a class read so far, with the stretch from the first to the last. -/
structure Union where
  /-- From the first item to the last; where the union started while it is empty. -/
  span : Span
  /-- The items. -/
  items : List Shape
  deriving Repr, Inhabited

/-- Adds an item to a union. -/
def Union.push (u : Union) (x : Shape) : Union :=
  ⟨⟨if u.items.isEmpty then x.span.start else u.span.start, x.span.stop⟩, u.items ++ [x]⟩

/-- The shape of a finished union: empty, its one item, or a level of its own for
two items or more. -/
def Union.close (u : Union) : Shape :=
  match u.items with
  | [] => .flat u.span
  | [x] => x
  | xs => .level u.span xs

/-- What a bracketed class being read waits on. -/
inductive ClassFrame where
  /-- An open bracket: as it is shown when unclosed, whether it is negated, and the
  items of the class around it. -/
  | opened (span : Span) (negated : Bool) (outer : Union)
  /-- An operation on classes (`&&`, `--`, `~~`) waiting for its right side. -/
  | operation (lhs : Shape)
  deriving Repr, Inhabited

/-- Where the reading of a pattern stands. -/
structure Reading where
  /-- The index of the next character. -/
  pos : Nat
  /-- The flags in force. -/
  flags : Flags
  /-- The sequence being read. -/
  seq : Seq
  /-- The alternatives before it, in the same group. -/
  alt : Option Alt
  /-- The open groups, innermost first. -/
  groups : List Frame
  /-- What the current sequence ends with. -/
  last : Last
  /-- The capture names so far, with where each stands. -/
  names : List (String × Span)
  /-- The items of the innermost class being read. -/
  union : Union
  /-- What the bracketed classes being read wait on, innermost first. -/
  classes : List ClassFrame
  /-- The first problem of meaning, which only counts once the whole pattern reads well. -/
  deferred : Option SyntaxError
  /-- Whether a word boundary that knows Unicode was read. -/
  wordUnicode : Bool
  deriving Inhabited

/-- The state before anything is read: Unicode known, nothing else. -/
def Reading.initial : Reading :=
  ⟨0, ⟨false, true, false⟩, ⟨0, []⟩, none, [], .none, [], ⟨⟨0, 0⟩, []⟩, [], none, false⟩

/-- A reader of a pattern's characters that may stop at a problem. -/
abbrev Reader := ReaderT (Array Char) (StateT Reading (Except SyntaxError))

namespace Reader

/-- The index of the next character. -/
def pos : Reader Nat := do pure (← get).pos

/-- Moves to an index. -/
def setPos (i : Nat) : Reader Unit := modify fun s => { s with pos := i }

/-- The flags in force. -/
def flags : Reader Flags := do pure (← get).flags

/-- Whether the pattern is read to its end. -/
def atEnd : Reader Bool := do pure ((← read).size ≤ (← get).pos)

/-- The next character; a space at the end. -/
def cur : Reader Char := do pure ((← read).getD (← get).pos ' ')

/-- The character after the next one. -/
def peek : Reader (Option Char) := do pure (← read)[(← get).pos + 1]?

/-- Moves past the next character; says whether another one follows. -/
def bump : Reader Bool := do
  if ← atEnd then return false
  setPos ((← pos) + 1)
  return !(← atEnd)

/-- The empty stretch here. -/
def here : Reader Span := do pure ⟨← pos, ← pos⟩

/-- The stretch of the next character. -/
def spanChar : Reader Span := do pure ⟨← pos, (← pos) + 1⟩

/-- Stops at a problem. -/
def stop {α : Type} (kind : ErrorKind) (span : Span) : Reader α := throw ⟨kind, span, none⟩

/-- Keeps a problem of meaning. The meaning of the pieces is only worked out once
the whole pattern reads well, piece after piece as each is finished, so a later
problem of syntax comes first, and of two problems of meaning the earlier. -/
def defer (kind : ErrorKind) (span : Span) : Reader Unit :=
  modify fun s => { s with deferred := s.deferred <|> some ⟨kind, span, none⟩ }

/-- Adds a finished piece to the current sequence. -/
def push (x : Shape) : Reader Unit :=
  modify fun s => { s with seq := { s.seq with items := s.seq.items ++ [x] }, last := .item }

/-- Moves past the characters of a word if they come next. -/
def bumpIf (w : List Char) : Reader Bool := do
  let cs ← read
  let i ← pos
  if (List.range w.length).all fun k => cs[i + k]? == w[k]? then
    setPos (i + w.length)
    return true
  else return false

/-- Moves past the first of some words that comes next; says whether one did. -/
def firstOf : List (List Char) → Reader Bool
  | [] => pure false
  | w :: ws => do
    if ← bumpIf w then return true
    firstOf ws

/-- Skips the rest of a comment, up to and with its line ending. -/
def skipComment : Nat → Reader Unit
  | 0 => pure ()
  | n + 1 => do
    if ← atEnd then return
    let c ← cur
    let _ ← bump
    if c != '\n' then skipComment n

/-- Skips blanks and comments, when flag `x` is on. -/
def bumpSpace : Reader Unit := do
  if !(← flags).ignoreSpace then return
  let rec go : Nat → Reader Unit
    | 0 => pure ()
    | n + 1 => do
      if ← atEnd then return
      let c ← cur
      if Unicode.isWhiteSpace c then
        let _ ← bump
        go n
      else if c == '#' then
        let _ ← bump
        skipComment (← read).size
        go n
      else pure ()
  go ((← read).size + 1)

/-- Moves past the next character and then past blanks; says whether another
character follows. -/
def bumpAndBumpSpace : Reader Bool := do
  if !(← bump) then return false
  bumpSpace
  return !(← atEnd)

/-- The first character after the next one that is not a blank, when flag `x`
is on; a comment mark is passed over once. -/
def peekSpace : Reader (Option Char) := do
  if !(← flags).ignoreSpace then return ← peek
  if ← atEnd then return none
  let cs ← read
  let from_ := (← pos) + 1
  let rec scan (inComment : Bool) : List Char → Option Char
    | [] => none
    | c :: rest =>
      if Unicode.isWhiteSpace c then scan inComment rest
      else if !inComment && c == '#' then scan true rest
      else some c
  match scan false (cs.toList.drop from_) with
  | some c => return some c
  | none => return cs[from_]?

/-- Takes characters while a test holds, at most `n`; each step may skip blanks. -/
def collectWhile (p : Char → Bool) (spaced : Bool) : Nat → Reader (List Char)
  | 0 => pure []
  | n + 1 => do
    if (← atEnd) || !p (← cur) then return []
    let c ← cur
    if spaced then let _ ← bumpAndBumpSpace else let _ ← bump
    return c :: (← collectWhile p spaced n)

/-- Takes a result that may be a problem. -/
def orStop {α : Type} : Except SyntaxError α → Reader α
  | .ok a => pure a
  | .error e => throw e

end Reader

end Regex

end TopSpeed
