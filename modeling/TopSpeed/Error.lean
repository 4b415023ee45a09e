import TopSpeed.Text.Hex
/-!
# Decoding errors

Every failure of the decoder falls into one of six kinds, and a caller that only
cares about the kind (a wrong password against a truncated file, say) branches on
`ErrorKind`. An `Error` carries what its message needs: the text of a format or
argument problem, the position, width and span of a read that ran past the end,
or the table, field and reason of a value that would not decode.

`Error.message` is the one place where the wording lives.
-/

namespace TopSpeed

/-- The broad category of a decoding failure. -/
inductive ErrorKind where
  /-- A header tag, signature or page address did not match. -/
  | formatMismatch
  /-- A read would have gone past the end of its span. -/
  | outOfRange
  /-- Run-length expansion did not produce the declared length. -/
  | runLength
  /-- A field value could not be decoded against its descriptor. -/
  | decoding
  /-- The caller passed something unusable. -/
  | invalidArgument
  /-- The underlying byte source failed. -/
  | io
  /-- The decoder met a case it cannot go on from, and the program stops. -/
  | halt
  deriving DecidableEq, Repr, Inhabited

namespace ErrorKind

/-- The name of the kind, as it is reported to callers. -/
def name : ErrorKind → String
  | formatMismatch => "FormatMismatch"
  | outOfRange => "OutOfRange"
  | runLength => "RunLength"
  | decoding => "Decoding"
  | invalidArgument => "InvalidArgument"
  | io => "Io"
  | halt => "Panic"

/-- The kind in words, as log lines print it. -/
def text : ErrorKind → String
  | formatMismatch => "format mismatch"
  | outOfRange => "out of range"
  | runLength => "run-length expansion error"
  | decoding => "decoding error"
  | invalidArgument => "invalid argument"
  | io => "I/O error"
  | halt => "halt"

end ErrorKind

/-- A decoding failure with what its message needs. -/
inductive Error where
  /-- A tag, signature, address or ordering did not match what the format demands. -/
  | formatMismatch (text : String)
  /-- A read of `wanted` bytes at `position` ran past a span of `length` bytes. -/
  | outOfRange (position wanted length : Nat)
  /-- A compressed payload did not expand to its declared size. -/
  | runLength (text : String)
  /-- The value of `field` in the record of `table` could not be decoded. -/
  | decoding (table field reason : String)
  /-- The caller passed something unusable. -/
  | invalidArgument (text : String)
  /-- The byte source itself failed. -/
  | io (text : String)
  /-- The decoder cannot go on: it was asked to split a span into elements of width zero. -/
  | halt (reason : String)
  deriving DecidableEq, Repr, Inhabited

namespace Error

/-- The category of an error. -/
def kind : Error → ErrorKind
  | formatMismatch .. => .formatMismatch
  | outOfRange .. => .outOfRange
  | runLength .. => .runLength
  | decoding .. => .decoding
  | invalidArgument .. => .invalidArgument
  | io .. => .io
  | halt .. => .halt

/-- Whether the error stops the program rather than the unit being decoded. -/
def halts (e : Error) : Bool := e.kind == .halt

/-- The text of an error, one template per kind. -/
def message : Error → String
  | formatMismatch t => s!"Format mismatch: {t}"
  | outOfRange p w l => s!"Read of {w} bytes at position {p} exceeds length {l}"
  | runLength t => s!"Run-length expansion failed: {t}"
  | decoding table field reason => s!"Cannot decode field '{field}' of {table}: {reason}"
  | invalidArgument t => s!"Invalid argument: {t}"
  | io t => s!"I/O error: {t}"
  | halt r => r

/-- A record header carried the wrong tag byte. -/
def tagMismatch (what : String) (expected found : UInt8) : Error :=
  .formatMismatch (what ++ " header expects tag 0x" ++ Hex.upperPad 2 expected.toNat ++
    ", found 0x" ++ Hex.upperPad 2 found.toNat)

end Error

end TopSpeed
