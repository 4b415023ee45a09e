import TopSpeed.Text.Latin1
import TopSpeed.Bytes.Word
/-!
# A positional reader over a byte span

Pages are small and are decoded from a buffer read (and decrypted, and expanded)
in one go. A `Reader` is that span with a cursor; it never looks past the end of
its span, and bounding a read to a page or a record is done by handing out a
sub-reader over the next bytes.

A `Decoder` is a computation that reads from a reader and may fail. A read that
would pass the end of the span fails with `Error.outOfRange` and leaves the cursor
where it was; a read that succeeds moves the cursor past the bytes it used. A
failure does not undo earlier moves, so a string read whose rule fails has
still consumed its span.
-/

namespace TopSpeed

/-- A byte span with a cursor into it. -/
structure Reader where
  /-- The whole span. -/
  data : List UInt8
  /-- The position of the next byte to read, relative to the start of the span. -/
  pos : Nat := 0
  deriving Repr, Inhabited

/-- A computation that reads from a `Reader` and may fail; its moves stay made. -/
abbrev Decoder := ExceptT Error (StateM Reader)

namespace Reader

/-- A reader at the start of a span. -/
def ofBytes (bs : List UInt8) : Reader := ⟨bs, 0⟩

/-- The length of the span. -/
def len (r : Reader) : Nat := r.data.length

/-- The number of bytes after the cursor. -/
def remaining (r : Reader) : Nat := r.data.length - r.pos

/-- Whether the cursor has reached the end of the span. -/
def atEnd (r : Reader) : Bool := r.data.length ≤ r.pos

/-- Whether the span is empty. -/
def isEmpty (r : Reader) : Bool := r.data.isEmpty

/-- The byte at an absolute position of the span, without moving. -/
def peekAt (r : Reader) (at_ : Nat) : Except Error UInt8 :=
  match r.data[at_]? with
  | some b => .ok b
  | none => .error (.outOfRange at_ 1 r.data.length)

/-- Runs a decoder on a reader, giving its outcome and the reader after it. -/
def run {α : Type} (d : Decoder α) (r : Reader) : Except Error α × Reader :=
  (d.run).run r

/-- Runs a decoder on a whole span and keeps only its outcome. -/
def decode {α : Type} (d : Decoder α) (bs : List UInt8) : Except Error α :=
  (run d (ofBytes bs)).1

end Reader

namespace Decoder

/-- The current reader. -/
def reader : Decoder Reader := get

/-- The byte at an absolute position of the span, without moving. -/
def peek (at_ : Nat) : Decoder UInt8 := do
  let r ← get
  match r.peekAt at_ with
  | .ok b => pure b
  | .error e => throw e

/-- The next `n` bytes; fails without moving if fewer remain. -/
def take (n : Nat) : Decoder (List UInt8) := do
  let r ← get
  if r.pos + n ≤ r.data.length then
    set { r with pos := r.pos + n }
    pure ((r.data.drop r.pos).take n)
  else throw (.outOfRange r.pos n r.data.length)

/-- Everything from the cursor to the end of the span. -/
def rest : Decoder (List UInt8) := do
  let r ← get
  set { r with pos := r.data.length }
  pure (r.data.drop r.pos)

/-- An unsigned byte. -/
def u8 : Decoder UInt8 := do
  let bs ← take 1
  pure (bs.headD 0)

/-- A signed byte. -/
def i8 : Decoder Int8 := do
  let b ← u8
  pure b.toInt8

/-- An unsigned 16-bit word in the given byte order. -/
def u16 (e : Endian) : Decoder UInt16 := do
  let bs ← take 2
  pure (e.value bs).toUInt16

/-- A signed 16-bit word in the given byte order. -/
def i16 (e : Endian) : Decoder Int16 := do
  let w ← u16 e
  pure w.toInt16

/-- An unsigned 32-bit word in the given byte order. -/
def u32 (e : Endian) : Decoder UInt32 := do
  let bs ← take 4
  pure (e.value bs).toUInt32

/-- A signed 32-bit word in the given byte order. -/
def i32 (e : Endian) : Decoder Int32 := do
  let w ← u32 e
  pure w.toInt32

/-- The bit pattern of a single-precision float in the given byte order. -/
def f32Bits (e : Endian) : Decoder UInt32 := u32 e

/-- The bit pattern of a double-precision float in the given byte order. -/
def f64Bits (e : Endian) : Decoder UInt64 := do
  let bs ← take 8
  pure (e.value bs).toUInt64

/-- `n` bytes turned into text by a string rule; the span is used even if the rule fails. -/
def string (n : Nat) (rule : StringRule) : Decoder String := do
  let span ← take n
  match rule.apply span with
  | .ok s => pure s
  | .error e => throw e

/-- Text up to a NUL byte, which is consumed but not returned. -/
def zstring : Decoder String := do
  let r ← get
  let rest := r.data.drop r.pos
  if rest.contains 0 then
    let text := rest.takeWhile (· != 0)
    set { r with pos := r.pos + text.length + 1 }
    pure (Latin1.decode text)
  else throw (.outOfRange r.pos (rest.length + 1) r.data.length)

/-- A reader bounded to the next `n` bytes. -/
def sub (n : Nat) : Decoder Reader := do
  let bs ← take n
  pure (Reader.ofBytes bs)

/-- Fails with `e` unless `ok` holds. -/
def ensure (ok : Bool) (e : Error) : Decoder Unit :=
  if ok then pure () else throw e

/-- Lifts the outcome of a pure check into a decoder. -/
def ofExcept {α : Type} : Except Error α → Decoder α
  | .ok a => pure a
  | .error e => throw e

end Decoder

end TopSpeed
