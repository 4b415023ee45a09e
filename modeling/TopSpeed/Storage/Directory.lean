import TopSpeed.Storage.Page
/-!
# Directory pages and key ranges

The file header names a root page. Pages above level 0 are directories: lists
of child pages, each tagged with the largest record key found below it. Leaf
pages hold records.

A directory entry is a 32-bit page reference, a 16-bit page length, a key
length byte and that many key bytes. The keys of one directory must not
decrease (`Directory.parse`).

A `KeyRange` restricts a walk to the keys that start with a prefix. Keys
compare bytewise, a proper prefix first. Two tests on the largest key of a
subtree let a walk skip work:

* `KeyRange.isBelow`: the largest key sorts before the prefix, so no key of the
  subtree is in range;
* `KeyRange.isBeyond`: the largest key is past every key in range, so every
  later subtree lies past the range as well.
-/

namespace TopSpeed

/-- One child reference of a directory page. -/
structure DirectoryEntry where
  /-- The page reference of the child. -/
  reference : UInt32
  /-- The on-disk length of the child page. -/
  length : UInt16
  /-- The largest record key in the child's subtree. -/
  maxKey : List UInt8
  deriving Repr, Inhabited, DecidableEq

namespace Directory

/-- Reads one directory entry. -/
def entry : Decoder DirectoryEntry := do
  let reference ← Decoder.u32 .little
  let length ← Decoder.u16 .little
  let keyLen ← Decoder.u8
  let maxKey ← Decoder.take keyLen.toNat
  pure { reference, length, maxKey }

/-- Reads `n` entries after `previous`, refusing a key below the one before it;
`offset` names the page in the error. -/
def entries (offset : Nat) : Nat → Option DirectoryEntry → Decoder (List DirectoryEntry)
  | 0, _ => pure []
  | n + 1, previous => do
    let e ← entry
    if let some p := previous then
      if decide (e.maxKey < p.maxKey) then
        throw (.formatMismatch s!"directory page at 0x{Hex.upper offset} lists keys out of order")
    let rest ← entries offset n (some e)
    pure (e :: rest)

/-- Parses the `count` entries of a directory payload found at `offset`. -/
def parse (offset : Nat) (payload : List UInt8) (count : Nat) : Except Error (List DirectoryEntry) :=
  Reader.decode (entries offset count none) payload

/-- Parses the entries of a directory page. -/
def ofPage (p : Page) : Except Error (List DirectoryEntry) :=
  parse p.offset p.payload p.header.recordCount.toNat

/-- Reading `n` entries gives `n` entries, when it gives any. -/
theorem length_of_run_entries (offset n : Nat) :
    ∀ (previous : Option DirectoryEntry) (r r' : Reader) (es : List DirectoryEntry),
      Reader.run (entries offset n previous) r = (.ok es, r') → es.length = n := by
  induction n with
  | zero =>
    intro previous r r' es h
    simp only [entries, Reader.run] at h
    cases h
    rfl
  | succ n ih =>
    intro previous r r' es h
    -- the entry read first goes in front of the rest
    have hcons : ∀ (x : DirectoryEntry) (r₁ : Reader),
        Reader.run (do let rest ← entries offset n (some x); pure (x :: rest)) r₁ = (.ok es, r') →
          es.length = n + 1 := by
      intro x r₁ hx
      simp only [Reader.run, ExceptT.run_bind, StateT.run_bind] at hx
      rcases hrest : StateT.run (ExceptT.run (entries offset n (some x))) r₁ with ⟨_ | rest, r₂⟩ <;>
        rw [hrest, ← Id.pure_run (_, r₂), pure_bind] at hx
      · cases hx
      · cases hx
        simp [ih _ _ _ _ hrest]
    simp only [entries, Reader.run, ExceptT.run_bind, StateT.run_bind] at h
    rcases hentry : StateT.run (ExceptT.run entry) r with ⟨_ | x, r₁⟩ <;>
      rw [hentry, ← Id.pure_run (_, r₁), pure_bind] at h
    · cases h
    · -- a key below the one before it fails, whatever follows
      simp only [Id.run] at h
      split at h
      · split at h
        · cases h
        · exact hcons x r₁ h
      · exact hcons x r₁ h

/-- A directory page lists exactly as many entries as its header counts. -/
theorem length_of_ofPage {page : Page} {es : List DirectoryEntry} (h : ofPage page = .ok es) :
    es.length = page.header.recordCount.toNat := by
  rcases hrun : Reader.run (entries page.offset page.header.recordCount.toNat none)
      (Reader.ofBytes page.payload) with ⟨o, r'⟩
  have ho : o = .ok es := by
    rw [← h, ofPage, parse, Reader.decode, hrun]
  subst ho
  exact length_of_run_entries _ _ _ _ _ _ hrun

end Directory

/-- The keys that start with a prefix. -/
structure KeyRange where
  /-- The common prefix of the keys in range. -/
  pref : List UInt8 := []
  deriving Repr, Inhabited, DecidableEq

namespace KeyRange

/-- Every key. -/
def all : KeyRange := ⟨[]⟩

/-- Whether a key is in range. -/
def contains (r : KeyRange) (key : List UInt8) : Bool := r.pref.isPrefixOf key

/-- A subtree whose largest key is `maxKey` holds nothing in range. -/
def isBelow (r : KeyRange) (maxKey : List UInt8) : Bool := decide (maxKey < r.pref)

/-- Every key after `maxKey` is past the range. -/
def isBeyond (r : KeyRange) (maxKey : List UInt8) : Bool :=
  !r.pref.isPrefixOf maxKey && decide (r.pref < maxKey)

end KeyRange

end TopSpeed
