import TopSpeed.Bytes.Word
import TopSpeed.Text.Escape
import TopSpeed.Error
/-!
# The page cipher

Files protected by an owner password have every page scrambled by a transform of
64-byte blocks, keyed only by the password. There is no nonce and no
authentication: a wrong key yields bytes that fail the first address or tag
check of the page.

* `Key.ofPassword` derives sixteen 32-bit words from the password: the password
  bytes, each raised by its position, are spread over 64 bytes by the stride
  `0x11`, read as little-endian words, and mixed for sixteen rounds;
* `Key.encryptBlock` and `Key.decryptBlock` transform one block of sixteen
  words; each of the sixteen steps swaps, under the bit mask of a key word,
  the bits of two words and offsets both by that word, so the steps undo one
  another in reverse order;
* `Key.encrypt` and `Key.decrypt` take whole blocks only, and refuse a buffer
  whose length is not a multiple of 64.
-/

namespace TopSpeed

/-- The size of a cipher block in bytes. -/
def blockSize : Nat := 64

/-- A span length rounded up to whole cipher blocks. -/
def blockAligned (len : Nat) : Nat :=
  (len + blockSize - 1) / blockSize * blockSize

/-- The expanded key schedule: sixteen 32-bit words. -/
structure Key where
  /-- The key words. -/
  words : Vector UInt32 16

namespace Key

/-- The text a key shows of itself: none of its words. -/
def debugText : String := "Key \x7b .. \x7d"

/-- Sixteen little-endian words read from the first 64 bytes of a list. -/
def wordsOfBytes (bs : List UInt8) : Vector UInt32 16 :=
  Vector.ofFn fun (i : Fin 16) => (Endian.little.value ((bs.drop (4 * i.val)).take 4)).toUInt32

/-- The 64 bytes of sixteen words, each little-endian. -/
def bytesOfWords (w : Vector UInt32 16) : List UInt8 :=
  w.toList.flatMap fun x => Endian.little.bytes 4 x.toNat

/-- The index named by the low four bits of a word. -/
def low4 (x : UInt32) : Fin 16 :=
  ⟨(x &&& 0x0F).toNat % 16, Nat.mod_lt _ (by decide)⟩

/-- The 64 scattered password bytes: position `17 t mod 64` holds byte `t mod n`, raised by `t`. -/
def spread (pw : List UInt8) : List UInt8 :=
  (List.range 64).foldl
    (fun (acc : List UInt8) t => acc.set ((t * 0x11) &&& 0x3F) (pw[t % pw.length]?.getD 0 + t.toUInt8))
    (List.replicate 64 0)

/-- Rotates a word left by `r` bits, for `r` from 1 to 31. -/
def rotl (x : UInt32) (r : Nat) : UInt32 :=
  (x <<< r.toUInt32) ||| (x >>> (32 - r).toUInt32)

/-- One mixing step: word `y` becomes the rotated sum with the word its low bits name. -/
def mixStep (round : Nat) (w : Vector UInt32 16) (y : Fin 16) : Vector UInt32 16 :=
  let b := low4 w[y]
  let ka := w[y]
  let kb := w[b]
  let na := rotl (ka + kb) (round + 1)
  let w := w.set y na
  w.set b (kb ^^^ na)

/-- Sixteen rounds of sixteen mixing steps. -/
def mix (w : Vector UInt32 16) : Vector UInt32 16 :=
  (List.range 16).foldl
    (fun w round => (List.finRange 16).foldl (mixStep round) w) w

/-- The password checks: not empty, and every character within ISO-8859-1. -/
def passwordBytes (password : String) : Except Error (List UInt8) :=
  if password.isEmpty then .error (.invalidArgument "password is empty")
  else
    match password.toList.find? (fun c => c.toNat > 0xFF) with
    | some c => .error (.invalidArgument s!"password character {Escape.quoteChar c} is outside ISO-8859-1")
    | none => .ok (password.toList.map fun c => c.toNat.toUInt8)

/-- Derives the key schedule from an owner password. -/
def ofPassword (password : String) : Except Error Key := do
  let pw ← passwordBytes password
  pure ⟨mix (wordsOfBytes (spread pw))⟩

/-- One decryption step under key word `t`. -/
def decryptStep (k : Vector UInt32 16) (w : Vector UInt32 16) (t : Fin 16) : Vector UInt32 16 :=
  let kt := k[t]
  let b := low4 kt
  let va := w[t]
  let vb := w[b]
  let w := w.set t (((vb &&& kt) ||| (va &&& ~~~kt)) - kt)
  w.set b (((va &&& kt) ||| (vb &&& ~~~kt)) - kt)

/-- One encryption step under key word `t`. -/
def encryptStep (k : Vector UInt32 16) (w : Vector UInt32 16) (t : Fin 16) : Vector UInt32 16 :=
  let kt := k[t]
  let b := low4 kt
  let sa := w[t] + kt
  let sb := w[b] + kt
  let w := w.set t ((sb &&& kt) ||| (sa &&& ~~~kt))
  w.set b ((sa &&& kt) ||| (sb &&& ~~~kt))

/-- Decrypts one block of sixteen words: the steps from the last key word to the first. -/
def decryptBlock (key : Key) (w : Vector UInt32 16) : Vector UInt32 16 :=
  (List.finRange 16).reverse.foldl (decryptStep key.words) w

/-- Encrypts one block of sixteen words: the steps from the first key word to the last. -/
def encryptBlock (key : Key) (w : Vector UInt32 16) : Vector UInt32 16 :=
  (List.finRange 16).foldl (encryptStep key.words) w

/-- Applies a block transform to every 64-byte block of a buffer. -/
def blocks (f : Vector UInt32 16 → Vector UInt32 16) (bs : List UInt8) : List UInt8 :=
  if bs.length < blockSize then []
  else bytesOfWords (f (wordsOfBytes bs)) ++ blocks f (bs.drop blockSize)
termination_by bs.length
decreasing_by simp [blockSize] at *; omega

/-- Refuses a buffer that is not made of whole blocks. -/
def checkBlocks (len : Nat) : Except Error Unit :=
  if len % blockSize = 0 then .ok ()
  else .error (.invalidArgument s!"cipher input of {len} bytes is not a multiple of {blockSize}")

/-- Decrypts a buffer of whole blocks. -/
def decrypt (key : Key) (bs : List UInt8) : Except Error (List UInt8) := do
  checkBlocks bs.length
  pure (blocks key.decryptBlock bs)

/-- Encrypts a buffer of whole blocks. -/
def encrypt (key : Key) (bs : List UInt8) : Except Error (List UInt8) := do
  checkBlocks bs.length
  pure (blocks key.encryptBlock bs)

end Key

end TopSpeed
