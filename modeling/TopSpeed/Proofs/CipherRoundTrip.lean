import TopSpeed.Cipher
import TopSpeed.Proofs.ByteCodec
import Mathlib
/-!
# Decryption undoes encryption

The page cipher transforms 64-byte blocks, read as sixteen little-endian words,
by sixteen steps keyed by the words of the key. The main statement is that for
every key, decrypting what was encrypted gives back the buffer, and encrypting
what was decrypted too, for every buffer of whole blocks, while a buffer with a
partial block is refused by both before any block is touched
(`Key.cipher_inverse_or_refused`); with it, a password that is not empty and
stays within ISO-8859-1 always yields a key (`Key.ofPassword_ok`).

The proof follows the layers of the cipher:

* one step swaps, under the mask of a key word, the bits of two words offset by
  that word; the decryption step with the same word undoes it, and the other way
  round (`Key.decryptStep_encryptStep`, `Key.encryptStep_decryptStep`, from
  `Key.unswap_swap`, `Key.swap_unswap` and three facts about blending two words
  under a mask). When the mask names the word it is keyed by, the two words are
  one and the step only offsets it;
* the decryption steps run in the reverse order, so they undo the block, and the
  block undoes them (`Key.decryptBlock_encryptBlock`,
  `Key.encryptBlock_decryptBlock`, from `Key.foldl_reverse_foldl`);
* a block of bytes read as words and written back is unchanged, and so is a
  block of words written as bytes and read back (`Key.bytesOfWords_wordsOfBytes`,
  `Key.wordsOfBytes_bytesOfWords`);
* a buffer is transformed block after block, so a block transform undone by
  another is undone on the whole buffer (`Key.blocks_blocks`).
-/

namespace TopSpeed.Key

/-! ### One step -/

/-- Blending `a` and `b` under the mask `k` keeps the bits of `a` under the mask. -/
theorem blend_and (a b k : UInt32) : ((a &&& k) ||| (b &&& ~~~k)) &&& k = a &&& k := by
  apply UInt32.toBitVec_inj.mp
  ext i hi
  simp
  cases a.toBitVec[i] <;> cases k.toBitVec[i] <;> simp

/-- Blending `a` and `b` under the mask `k` keeps the bits of `b` outside the mask. -/
theorem blend_andNot (a b k : UInt32) : ((a &&& k) ||| (b &&& ~~~k)) &&& ~~~k = b &&& ~~~k := by
  apply UInt32.toBitVec_inj.mp
  ext i hi
  simp
  cases b.toBitVec[i] <;> cases k.toBitVec[i] <;> simp

/-- A word blended with itself is unchanged. -/
theorem blend_self (a k : UInt32) : (a &&& k) ||| (a &&& ~~~k) = a := by
  apply UInt32.toBitVec_inj.mp
  ext i hi
  simp
  cases a.toBitVec[i] <;> cases k.toBitVec[i] <;> simp

/-- Swapping the masked bits of words `t` and `b` after offsetting both by `kt`,
then swapping them back and taking the offset off, gives the words back. -/
theorem unswap_swap (w : Vector UInt32 16) (t b : Fin 16) (kt : UInt32) :
    let W := (w.set t.val (((w.get b + kt) &&& kt) ||| ((w.get t + kt) &&& ~~~kt)) t.isLt).set b.val
      (((w.get t + kt) &&& kt) ||| ((w.get b + kt) &&& ~~~kt)) b.isLt
    (W.set t.val (((W.get b &&& kt) ||| (W.get t &&& ~~~kt)) - kt) t.isLt).set b.val
      (((W.get t &&& kt) ||| (W.get b &&& ~~~kt)) - kt) b.isLt = w := by
  intro W
  apply Vector.ext
  intro i hi
  simp only [W, Vector.get_eq_getElem, Vector.getElem_set]
  by_cases hb : b.val = t.val
  · -- both words are one: the step adds the mask to it, and the reverse step takes it off
    simp only [hb, ↓reduceIte, blend_self]
    by_cases hti : t.val = i
    · subst hti
      simp only [↓reduceIte, add_sub_cancel_right]
    · simp only [hti, ↓reduceIte]
  · simp only [hb, ↓reduceIte, blend_and, blend_andNot, blend_self]
    by_cases h1 : b.val = i
    · subst h1
      simp only [↓reduceIte, add_sub_cancel_right]
    · by_cases h2 : t.val = i
      · subst h2
        simp only [h1, ↓reduceIte, add_sub_cancel_right]
      · simp only [h1, ↓reduceIte, h2]

theorem decryptStep_encryptStep (k w : Vector UInt32 16) (t : Fin 16) :
    decryptStep k (encryptStep k w t) t = w :=
  unswap_swap w t (low4 k[t]) k[t]

/-- Swapping back the masked bits of words `t` and `b` after taking the offset
`kt` off both, then offsetting them and swapping again, gives the words back. -/
theorem swap_unswap (w : Vector UInt32 16) (t b : Fin 16) (kt : UInt32) :
    let W := (w.set t.val (((w.get b &&& kt) ||| (w.get t &&& ~~~kt)) - kt) t.isLt).set b.val
      (((w.get t &&& kt) ||| (w.get b &&& ~~~kt)) - kt) b.isLt
    (W.set t.val (((W.get b + kt) &&& kt) ||| ((W.get t + kt) &&& ~~~kt)) t.isLt).set b.val
      (((W.get t + kt) &&& kt) ||| ((W.get b + kt) &&& ~~~kt)) b.isLt = w := by
  intro W
  apply Vector.ext
  intro i hi
  simp only [W, Vector.get_eq_getElem, Vector.getElem_set]
  by_cases hb : b.val = t.val
  · -- both words are one: the reverse step takes the mask off it, and the step adds it back
    simp only [hb, ↓reduceIte, blend_self, sub_add_cancel]
    by_cases hti : t.val = i
    · subst hti
      simp only [↓reduceIte]
    · simp only [hti, ↓reduceIte]
  · simp only [hb, ↓reduceIte, sub_add_cancel, blend_and, blend_andNot, blend_self]
    by_cases h1 : b.val = i
    · subst h1
      simp only [↓reduceIte]
    · by_cases h2 : t.val = i
      · subst h2
        simp only [h1, ↓reduceIte]
      · simp only [h1, ↓reduceIte, h2]

theorem encryptStep_decryptStep (k w : Vector UInt32 16) (t : Fin 16) :
    encryptStep k (decryptStep k w t) t = w :=
  swap_unswap w t (low4 k[t]) k[t]

/-! ### One block -/

/-- Steps undone one by one in reverse order undo the whole sequence. -/
theorem foldl_reverse_foldl {α β : Type} {f g : α → β → α} (h : ∀ a b, g (f a b) b = a) :
    ∀ (l : List β) (a : α), l.reverse.foldl g (l.foldl f a) = a
  | [], _ => rfl
  | b :: l, a => by
    simp only [List.reverse_cons, List.foldl_append, List.foldl_cons, List.foldl_nil]
    rw [foldl_reverse_foldl h l, h]

theorem decryptBlock_encryptBlock (key : Key) (w : Vector UInt32 16) :
    key.decryptBlock (key.encryptBlock w) = w :=
  foldl_reverse_foldl (decryptStep_encryptStep key.words) _ w

/-- The steps in order undo the steps in reverse order: the reverse of the reversed
sequence is the sequence. -/
theorem encryptBlock_decryptBlock (key : Key) (w : Vector UInt32 16) :
    key.encryptBlock (key.decryptBlock w) = w := by
  have h := foldl_reverse_foldl (encryptStep_decryptStep key.words) (List.finRange 16).reverse w
  rwa [List.reverse_reverse] at h

/-! ### Words and bytes -/

/-- The `i`-th chunk of `k` bytes of a list of chunks of `k` bytes is the `i`-th chunk. -/
theorem take_drop_flatMap {α β : Type} {k : Nat} (f : α → List β) (hf : ∀ a, (f a).length = k) :
    ∀ (l : List α) (i : Nat) (hi : i < l.length), ((l.flatMap f).drop (k * i)).take k = f l[i]
  | [], _, hi => absurd hi (by simp)
  | a :: l, 0, _ => by simp [← hf a]
  | a :: l, i + 1, hi => by
    have hdrop : (f a ++ l.flatMap f).drop k = l.flatMap f := by
      rw [← hf a, List.drop_left]
    rw [List.flatMap_cons, Nat.mul_succ, Nat.add_comm, ← List.drop_drop, hdrop]
    exact take_drop_flatMap f hf l i (by simpa using hi)

/-- The first `n` chunks of `k` bytes, put back together, are the first `k * n` bytes. -/
theorem flatten_ofFn_chunks {α : Type} (k : Nat) :
    ∀ (n : Nat) (bs : List α),
      (List.ofFn fun i : Fin n => (bs.drop (k * i)).take k).flatten = bs.take (k * n)
  | 0, bs => by simp
  | n + 1, bs => by
    rw [List.ofFn_succ, List.flatten_cons]
    have ih := flatten_ofFn_chunks k n (bs.drop k)
    simp only [Fin.val_succ, Nat.mul_succ, Fin.val_zero, Nat.mul_zero, List.drop_zero]
    simp only [List.drop_drop, Nat.add_comm k] at ih
    rw [ih, Nat.add_comm (k * n) k, List.take_add]

@[simp] theorem length_bytesOfWords (w : Vector UInt32 16) : (bytesOfWords w).length = 64 := by
  simp only [bytesOfWords, List.length_flatMap, Endian.length_bytes]
  rw [List.map_const']
  simp

theorem wordsOfBytes_bytesOfWords (w : Vector UInt32 16) : wordsOfBytes (bytesOfWords w) = w := by
  apply Vector.ext
  intro i hi
  have hchunk := take_drop_flatMap (fun x : UInt32 => Endian.little.bytes 4 x.toNat)
    (fun x => Endian.length_bytes _ 4 _) w.toList i (by simpa using hi)
  simp only [wordsOfBytes, Vector.getElem_ofFn, bytesOfWords]
  rw [hchunk, Endian.value_bytes_of_lt _ (by simpa using w[i].toNat_lt)]
  simp

/-- A block is read from the first 64 bytes only. -/
theorem wordsOfBytes_append {xs : List UInt8} (h : 64 ≤ xs.length) (ys : List UInt8) :
    wordsOfBytes (xs ++ ys) = wordsOfBytes xs := by
  apply Vector.ext
  intro i hi
  simp only [wordsOfBytes, Vector.getElem_ofFn]
  rw [List.drop_append_of_le_length (by omega), List.take_append_of_le_length (by simp; omega)]

theorem bytesOfWords_wordsOfBytes {bs : List UInt8} (h : 64 ≤ bs.length) :
    bytesOfWords (wordsOfBytes bs) = bs.take 64 := by
  -- each word is below `2 ^ 32`, so it writes back the four bytes it was read from
  have hchunk (i : Fin 16) :
      Endian.little.bytes 4 (Endian.little.value ((bs.drop (4 * i)).take 4)).toUInt32.toNat =
        (bs.drop (4 * i)).take 4 := by
    have hlen : ((bs.drop (4 * i)).take 4).length = 4 := by simp; omega
    have hlt := Endian.value_lt .little ((bs.drop (4 * i)).take 4)
    rw [hlen] at hlt
    have hback := Endian.little_bytes_value ((bs.drop (4 * i)).take 4)
    rw [hlen] at hback
    rw [UInt32.toNat_ofNat_of_lt' (by omega), hback]
  simp only [bytesOfWords, wordsOfBytes, Vector.toList_ofFn, List.flatMap, List.map_ofFn]
  rw [show ((fun x : UInt32 => Endian.little.bytes 4 x.toNat) ∘ fun i : Fin 16 =>
      (Endian.little.value ((bs.drop (4 * i)).take 4)).toUInt32) = fun i : Fin 16 => (bs.drop (4 * i)).take 4
    from funext hchunk, flatten_ofFn_chunks]

/-! ### Buffers of whole blocks -/

theorem blocks_of_lt (f : Vector UInt32 16 → Vector UInt32 16) {bs : List UInt8} (h : bs.length < blockSize) :
    blocks f bs = [] := by
  rw [blocks, if_pos h]

theorem blocks_of_le (f : Vector UInt32 16 → Vector UInt32 16) {bs : List UInt8} (h : blockSize ≤ bs.length) :
    blocks f bs = bytesOfWords (f (wordsOfBytes bs)) ++ blocks f (bs.drop blockSize) := by
  rw [blocks, if_neg (Nat.not_lt.mpr h)]

/-- A buffer of whole blocks keeps its length through a block transform. -/
theorem length_blocks (f : Vector UInt32 16 → Vector UInt32 16) :
    ∀ n (bs : List UInt8), bs.length = blockSize * n → (blocks f bs).length = bs.length
  | 0, bs, h => by
    have hnil : bs = [] := List.eq_nil_of_length_eq_zero (by simpa using h)
    subst hnil
    rw [blocks_of_lt f (by decide)]
  | n + 1, bs, h => by
    simp only [blockSize] at h
    have hle : blockSize ≤ bs.length := by simp only [blockSize]; omega
    rw [blocks_of_le f hle, List.length_append, length_bytesOfWords,
      length_blocks f n _ (by simp only [blockSize, List.length_drop]; omega)]
    simp only [blockSize, List.length_drop]
    omega

/-- A block transform undone by another, applied block after block, is undone
block after block. -/
theorem blocks_blocks {f g : Vector UInt32 16 → Vector UInt32 16} (hgf : ∀ w, g (f w) = w) :
    ∀ n (bs : List UInt8), bs.length = blockSize * n → blocks g (blocks f bs) = bs
  | 0, bs, h => by
    have hnil : bs = [] := List.eq_nil_of_length_eq_zero (by simpa using h)
    subst hnil
    have hnil : blocks f ([] : List UInt8) = [] := blocks_of_lt _ (by decide)
    rw [hnil, blocks_of_lt _ (by decide)]
  | n + 1, bs, h => by
    simp only [blockSize] at h
    have hle : 64 ≤ bs.length := by omega
    rw [blocks_of_le _ hle, blocks_of_le _ (by simp [blockSize])]
    simp only [blockSize]
    -- the first block is read back from the bytes just written, the rest by induction
    rw [List.drop_left' (length_bytesOfWords _), wordsOfBytes_append (by simp), wordsOfBytes_bytesOfWords,
      hgf, bytesOfWords_wordsOfBytes hle,
      blocks_blocks hgf n _ (by simp only [blockSize, List.length_drop]; omega),
      List.take_append_drop]

/-- Decrypting the blocks of an encrypted buffer of whole blocks gives it back. -/
theorem blocks_decrypt_encrypt (key : Key) (n : Nat) (bs : List UInt8) (h : bs.length = blockSize * n) :
    blocks key.decryptBlock (blocks key.encryptBlock bs) = bs :=
  blocks_blocks key.decryptBlock_encryptBlock n bs h

theorem encrypt_eq (key : Key) {bs : List UInt8} (h : bs.length % blockSize = 0) :
    key.encrypt bs = .ok (blocks key.encryptBlock bs) := by
  simp [encrypt, checkBlocks, h]

theorem decrypt_eq (key : Key) {bs : List UInt8} (h : bs.length % blockSize = 0) :
    key.decrypt bs = .ok (blocks key.decryptBlock bs) := by
  simp [decrypt, checkBlocks, h]

/-- **Decryption undoes encryption** on every buffer of whole blocks. -/
theorem decrypt_encrypt (key : Key) {bs : List UInt8} (h : bs.length % blockSize = 0) :
    key.decrypt (blocks key.encryptBlock bs) = .ok bs := by
  have hn : bs.length = blockSize * (bs.length / blockSize) := by simp [blockSize] at h ⊢; omega
  have hlen := length_blocks key.encryptBlock _ bs hn
  simp [decrypt, checkBlocks, hlen, h, blocks_decrypt_encrypt key _ bs hn]

/-- Encryption undoes decryption on every buffer of whole blocks. -/
theorem encrypt_decrypt (key : Key) {bs : List UInt8} (h : bs.length % blockSize = 0) :
    key.encrypt (blocks key.decryptBlock bs) = .ok bs := by
  have hn : bs.length = blockSize * (bs.length / blockSize) := by simp [blockSize] at h ⊢; omega
  have hlen := length_blocks key.decryptBlock _ bs hn
  simp [encrypt, checkBlocks, hlen, h, blocks_blocks key.encryptBlock_decryptBlock _ bs hn]

/-- A buffer that is not whole blocks is refused, by both directions alike, with an
error that names only its length: no block of it is read. -/
theorem crypt_of_partial (key : Key) {bs : List UInt8} (h : bs.length % blockSize ≠ 0) :
    key.decrypt bs = .error (.invalidArgument s!"cipher input of {bs.length} bytes is not a multiple of {blockSize}") ∧
    key.encrypt bs = .error (.invalidArgument s!"cipher input of {bs.length} bytes is not a multiple of {blockSize}") := by
  simp [decrypt, encrypt, checkBlocks, h, bind, Except.bind]

/-- **The cipher is a bijection on whole blocks, and refuses anything else**: for
every key schedule, sixteen arbitrary words, decrypting an encrypted buffer of whole
blocks gives it back and so does encrypting a decrypted one; a buffer with a partial
block is refused by both with the same argument error, before any block is
transformed, so the buffer is all the caller has afterwards. -/
theorem cipher_inverse_or_refused (key : Key) (bs : List UInt8) :
    if bs.length % blockSize = 0 then
      (key.encrypt bs >>= key.decrypt) = .ok bs ∧ (key.decrypt bs >>= key.encrypt) = .ok bs
    else
      key.decrypt bs = .error (.invalidArgument s!"cipher input of {bs.length} bytes is not a multiple of {blockSize}") ∧
      key.encrypt bs = .error (.invalidArgument s!"cipher input of {bs.length} bytes is not a multiple of {blockSize}") := by
  split
  · next h =>
    rw [encrypt_eq key h, decrypt_eq key h]
    exact ⟨decrypt_encrypt key h, encrypt_decrypt key h⟩
  · next h => exact crypt_of_partial key h

/-! ### Keys from passwords -/

/-- A password that is not empty and keeps within ISO-8859-1 gives a key. -/
theorem ofPassword_ok {password : String} (hne : password ≠ "")
    (hchars : ∀ c ∈ password.toList, c.toNat ≤ 0xFF) : ∃ k, ofPassword password = .ok k := by
  have hfind : password.toList.find? (fun c => decide (c.toNat > 0xFF)) = none := by
    rw [List.find?_eq_none]
    intro c hc
    simpa using hchars c hc
  have hempty : password.isEmpty = false := by simpa using hne
  exact ⟨_, by simp [ofPassword, passwordBytes, hempty, hfind, bind, Except.bind]; rfl⟩

end TopSpeed.Key
