import TopSpeed.Proofs.DefinitionScan
import TopSpeed.Proofs.ByteCodec
/-!
# Record-header keys read back

Every header has a key, the bytes a writer lays down for it (`Header.key`): the
table-name tag `0xFE` followed by the name, one byte a character; or the key prefix
of the header's table and kind (the table number big-endian, then the tag)
followed by the header's numbers, big-endian. The writer's table prefix and memo
prefix (`tablePrefix`, `MemoHeader.keyPrefix`) are the first bytes of these keys.

`Header.parse` routes a key by its first byte, then by its fifth, and each kind's
decoder reads its own fields. The keys of two kinds are not told apart by their
first byte: a table number whose top byte is `0xFE` begins with the table-name
tag, and `Header.parse` reads every key of such a table as a table name
(`Header.parse_key_of_topByte`, `Header.highTableDataKey_parses_as_name`).

For every other header that a key can spell (`Header.Writable`: a name of
ISO-8859-1 characters, an index number below the data tag), the key reads back
whatever follows it (`Header.parse_key_append`). Conversely, a header that
parses is the header of the key at the front of the bytes
(`Header.key_of_parse`): its table is the first four bytes read big-endian and
its tag the fifth byte, or the first for a table name. The main statement
gathers the three: `Header.parse_key_round_trip`.

Both directions follow the decoders' `do` blocks: forwards with the rules of
`Decoder.Reads`, backwards with what each successful read has consumed
(`Reader.remains_of_run_u32` and its kin).
-/

namespace TopSpeed

namespace Header

open Decoder

/-- The key a writer lays down for a header: the table-name tag and the name, or the
table's key prefix for the kind followed by the header's numbers, big-endian. An
index entry's key holds its index number in the tag's place; the index key and the
record number that follow it belong to the entry, not to its header. -/
def key : Header → List UInt8
  | tableName name => Tag.tableName :: Latin1.encode name
  | data t n => tablePrefix t Tag.data ++ Endian.big.bytes 4 n.toNat
  | metadata t about => tablePrefix t Tag.metadata ++ [about]
  | definition h => tablePrefix h.table Tag.definition ++ Endian.big.bytes 2 h.block.toNat
  | memo h => MemoHeader.keyPrefix h.table h.owner h.memoIndex ++ Endian.big.bytes 2 h.sequence.toNat
  | index t i => tablePrefix t i

/-- The headers a key can spell: a table name of ISO-8859-1 characters, and an index
number below the data tag. -/
def Writable : Header → Prop
  | tableName name => ∀ c ∈ name.toList, c.toNat < 256
  | index _ i => i < Tag.data
  | _ => True

/-! ### The shape of a key -/

/-- The key of a header of a table begins with the table's key prefix for its tag. -/
theorem key_of_table? {h : Header} {t : UInt32} (ht : h.table? = some t) :
    ∃ fields, h.key = tablePrefix t h.tag ++ fields := by
  cases h with
  | tableName => cases ht
  | data => cases ht; exact ⟨_, rfl⟩
  | metadata => cases ht; exact ⟨_, rfl⟩
  | definition => cases ht; exact ⟨_, rfl⟩
  | memo m =>
    cases ht
    exact ⟨Endian.big.bytes 4 m.owner.toNat ++ (Endian.big.bytes 4 m.memoIndex.toNat ++
      Endian.big.bytes 2 m.sequence.toNat), by simp [key, tag, MemoHeader.keyPrefix]⟩
  | index => cases ht; exact ⟨[], by simp [key, tag]⟩

/-- The two bytes the router looks at, in a key of a table: the top byte of the
table number and the tag. -/
theorem peekAt_key {h : Header} {t : UInt32} (ht : h.table? = some t) (x : List UInt8) :
    (Reader.ofBytes (h.key ++ x)).peekAt 0 = .ok (t >>> 24).toUInt8 ∧
      (Reader.ofBytes (h.key ++ x)).peekAt 4 = .ok h.tag := by
  obtain ⟨fields, hk⟩ := key_of_table? ht
  have h0 := head?_tablePrefix t h.tag
  have hlen : 4 < (tablePrefix t h.tag).length := by simp
  rw [hk, List.append_assoc]
  constructor
  · simp only [Reader.ofBytes, Reader.peekAt, List.getElem?_append_left (Nat.zero_lt_of_lt hlen),
      ← List.head?_eq_getElem?, h0]
  · simp only [Reader.ofBytes, Reader.peekAt, List.getElem?_append_left hlen]
    simp [tablePrefix]

/-- A key of a table holds the table number in its first four bytes and the tag in
its fifth, whatever follows it. -/
theorem table_tag_of_key {h : Header} {t : UInt32} (ht : h.table? = some t) (x : List UInt8) :
    t.toNat = Endian.big.value ((h.key ++ x).take 4) ∧ (h.key ++ x)[4]? = some h.tag := by
  obtain ⟨fields, hk⟩ := key_of_table? ht
  have htake : (h.key ++ x).take 4 = Endian.big.bytes 4 t.toNat := by
    simp [hk, tablePrefix]
  refine ⟨?_, by simp [hk, tablePrefix]⟩
  rw [htake, Endian.value_bytes (lt_of_lt_of_eq t.toNat_lt (by norm_num))]

theorem beq_topByte {t : UInt32} (ht : t >>> 24 ≠ 0xFE) :
    ((t >>> 24).toUInt8 == Tag.tableName) = false := by
  simpa [topByte_eq_tableName_iff] using ht

/-! ### Every key reads back -/

theorem reads_tablePart (what : String) (t : UInt32) (tag : UInt8) :
    Reads (tablePart what tag) (tablePrefix t tag) t := by
  have hp : tablePrefix t tag = Endian.big.bytes 4 t.toNat ++ ([tag] ++ []) := by
    simp [tablePrefix]
  rw [hp]
  refine reads_bind (reads_u32 .big t) (reads_bind (reads_u8 tag) ?_)
  simp only [bne_self_eq_false, Bool.false_eq_true, if_false]
  exact reads_pure t

theorem decode_dataDecoder (t n : UInt32) (x : List UInt8) :
    Reader.decode dataDecoder ((data t n).key ++ x) = .ok (t, n) :=
  (reads_bind (reads_tablePart _ t _) (reads_bind_pure (reads_u32 .big n) _)).decode x

theorem decode_metadataDecoder (t : UInt32) (about : UInt8) (x : List UInt8) :
    Reader.decode metadataDecoder ((metadata t about).key ++ x) = .ok (t, about) :=
  (reads_bind (reads_tablePart _ t _) (reads_bind_pure (reads_u8 about) _)).decode x

theorem decode_definitionDecoder (d : DefinitionHeader) (x : List UInt8) :
    Reader.decode definitionDecoder ((definition d).key ++ x) = .ok d :=
  (reads_bind (reads_tablePart _ d.table _) (reads_bind_pure (reads_u16 .big d.block) _)).decode x

theorem decode_memoDecoder (m : MemoHeader) (x : List UInt8) :
    Reader.decode memoDecoder ((memo m).key ++ x) = .ok m := by
  have hk : (memo m).key = tablePrefix m.table Tag.memo ++ (Endian.big.bytes 4 m.owner.toNat ++
      (Endian.big.bytes 4 m.memoIndex.toNat ++ Endian.big.bytes 2 m.sequence.toNat)) := by
    simp [key, MemoHeader.keyPrefix]
  rw [hk]
  exact (reads_bind (reads_tablePart _ _ _) (reads_bind (reads_u32 .big _)
    (reads_bind (reads_u32 .big _) (reads_bind_pure (reads_u16 .big _) _)))).decode x

theorem decode_indexDecoder (t : UInt32) {i : UInt8} (hi : i < Tag.data) (x : List UInt8) :
    Reader.decode indexDecoder ((index t i).key ++ x) = .ok (t, i) := by
  have hk : (index t i).key = Endian.big.bytes 4 t.toNat ++ ([i] ++ []) := by simp [key, tablePrefix]
  rw [hk]
  refine (reads_bind (reads_u32 .big t) (reads_bind (reads_u8 i) ?_)).decode x
  rw [if_neg (by simpa using hi)]
  exact reads_pure _

theorem decode_tableNameDecoder (rest : List UInt8) :
    Reader.decode tableNameDecoder (Tag.tableName :: rest) = .ok (Latin1.decode rest) := rfl

/-- Whatever follows the table-name tag is read as a name. -/
theorem parse_tableName_tag (rest : List UInt8) :
    parse (Tag.tableName :: rest) = .ok (.tableName (Latin1.decode rest)) := by
  simp only [parse, Reader.ofBytes, Reader.peekAt, List.getElem?_cons_zero, bind, Except.bind,
    beq_self_eq_true, if_true, decode_tableNameDecoder]
  rfl

/-- The key of a header reads back, whatever follows it, unless it is a table name's;
a table's number must not begin with the table-name tag. -/
theorem parse_key_append {h : Header} (hw : h.Writable) (htop : ∀ t ∈ h.table?, t >>> 24 ≠ 0xFE)
    (x : List UInt8) (hx : h.table? = none → x = []) : parse (h.key ++ x) = .ok h := by
  cases h with
  | tableName name =>
    obtain rfl : x = [] := hx rfl
    rw [key, List.append_nil, parse_tableName_tag, Latin1.decode_encode hw]
  | data t n =>
    obtain ⟨h0, h4⟩ := peekAt_key (h := data t n) rfl x
    simp only [parse, h0, h4, beq_topByte (htop t rfl), bind, Except.bind, decode_dataDecoder, tag]
    rfl
  | metadata t about =>
    obtain ⟨h0, h4⟩ := peekAt_key (h := metadata t about) rfl x
    simp only [parse, h0, h4, beq_topByte (htop t rfl), bind, Except.bind, decode_metadataDecoder, tag]
    simp +decide
    rfl
  | definition d =>
    obtain ⟨h0, h4⟩ := peekAt_key (h := definition d) rfl x
    simp only [parse, h0, h4, beq_topByte (htop d.table rfl), bind, Except.bind,
      decode_definitionDecoder, tag]
    simp +decide
    rfl
  | memo m =>
    obtain ⟨h0, h4⟩ := peekAt_key (h := memo m) rfl x
    simp only [parse, h0, h4, beq_topByte (htop m.table rfl), bind, Except.bind, decode_memoDecoder, tag]
    simp +decide
    rfl
  | index t i =>
    obtain ⟨h0, h4⟩ := peekAt_key (h := index t i) rfl x
    -- an index number is below every fixed tag, so each of the router's tests fails
    have hbelow : ∀ tag, Tag.data ≤ tag → (i == tag) = false := by
      intro tag htag
      have hi : i.toNat < Tag.data.toNat := hw
      have htag' : Tag.data.toNat ≤ tag.toNat := htag
      simp only [beq_eq_false_iff_ne, ne_eq, ← UInt8.toNat_inj]
      omega
    simp only [parse, h0, h4, beq_topByte (htop t rfl), bind, Except.bind, decode_indexDecoder t hw, tag,
      hbelow Tag.data (by decide), hbelow Tag.metadata (by decide), hbelow Tag.definition (by decide),
      hbelow Tag.memo (by decide)]
    simp only [Bool.false_eq_true, if_false, if_pos (show i < Tag.data from hw)]
    rfl

/-- The keys of a table whose number begins with the table-name tag are read as
table names. -/
theorem parse_key_of_topByte {h : Header} {t : UInt32} (ht : h.table? = some t) (htop : t >>> 24 = 0xFE)
    (x : List UInt8) : parse (h.key ++ x) = .ok (.tableName (Latin1.decode (h.key ++ x).tail)) := by
  obtain ⟨fields, hk⟩ := key_of_table? ht
  have hhead : (tablePrefix t h.tag).head? = some Tag.tableName := by
    rw [head?_tablePrefix, (topByte_eq_tableName_iff t).mpr htop]
  obtain ⟨tail, htail⟩ : ∃ tail, tablePrefix t h.tag = Tag.tableName :: tail := by
    cases hp : tablePrefix t h.tag with
    | nil => simp [hp] at hhead
    | cons b tail =>
      rw [hp, List.head?_cons, Option.some.injEq] at hhead
      exact ⟨tail, by rw [hhead]⟩
  rw [hk, htail, List.cons_append, List.cons_append, parse_tableName_tag, List.tail_cons]

/-- The data record of table `0xFE000000` has a key that is read as a table name. -/
theorem highTableDataKey_parses_as_name :
    parse (data 0xFE000000 1).key = .ok (.tableName (Latin1.decode [0, 0, 0, 0xF3, 0, 0, 0, 1])) ∧
      parse (data 0xFE000000 1).key ≠ .ok (data 0xFE000000 1) := by
  have h : parse (data 0xFE000000 1).key =
      .ok (.tableName (Latin1.decode [0, 0, 0, 0xF3, 0, 0, 0, 1])) := rfl
  refine ⟨h, ?_⟩
  rw [h]
  simp

/-! ### Every header that parses is read from its key -/

section Converse

variable {r r' : Reader} {bs d : List UInt8}

/-- The table part of a key that reads is the table's key prefix for the expected tag. -/
theorem remains_of_run_tablePart {what : String} {tag : UInt8} {t : UInt32} (hr : r.Remains bs)
    (h : Reader.run (tablePart what tag) r = (.ok t, r')) :
    ∃ rest, bs = tablePrefix t tag ++ rest ∧ r'.Remains rest := by
  obtain ⟨table, r₁, hu, h₁⟩ := Reader.run_bind_eq_ok h
  obtain ⟨rest₁, rfl, hr₁⟩ := Reader.remains_of_run_u32 hr hu
  obtain ⟨b, r₂, hu8, h₂⟩ := Reader.run_bind_eq_ok h₁
  obtain ⟨rest₂, rfl, hr₂⟩ := Reader.remains_of_run_u8 hr₁ hu8
  rw [Reader.run_ite] at h₂
  split at h₂
  · rw [Reader.run_bind, Reader.run_throw] at h₂
    cases h₂
  · next htag =>
    rw [Reader.run_pure] at h₂
    cases h₂
    obtain rfl : b = tag := by simpa using htag
    exact ⟨rest₂, by simp [tablePrefix], hr₂⟩

/-- A decoder that starts with the table part reads the rest of its key after the
table's key prefix. -/
theorem decode_tablePart_bind {α : Type} {what : String} {tag : UInt8} {f : UInt32 → Decoder α} {v : α}
    (hd : Reader.decode (tablePart what tag >>= f) d = .ok v) :
    ∃ t rest r r', d = tablePrefix t tag ++ rest ∧ r.Remains rest ∧ Reader.run (f t) r = (.ok v, r') := by
  obtain ⟨r₁, hrun⟩ := Reader.exists_run_of_decode hd
  obtain ⟨table, r₂, htp, h₁⟩ := Reader.run_bind_eq_ok hrun
  obtain ⟨rest, rfl, hr⟩ := remains_of_run_tablePart (Reader.remains_ofBytes d) htp
  exact ⟨table, rest, r₂, r₁, rfl, hr, h₁⟩

theorem key_of_decode_dataDecoder {t n : UInt32} (hd : Reader.decode dataDecoder d = .ok (t, n)) :
    ∃ x, d = (data t n).key ++ x := by
  obtain ⟨table, rest₁, r₂, r₁, rfl, hr₁, h₁⟩ := decode_tablePart_bind hd
  obtain ⟨n', r₃, hu, hp⟩ := Reader.run_bind_eq_ok h₁
  obtain ⟨rest₂, rfl, -⟩ := Reader.remains_of_run_u32 hr₁ hu
  rw [Reader.run_pure] at hp
  cases hp
  exact ⟨rest₂, by simp [key]⟩

theorem key_of_decode_metadataDecoder {t : UInt32} {about : UInt8}
    (hd : Reader.decode metadataDecoder d = .ok (t, about)) : ∃ x, d = (metadata t about).key ++ x := by
  obtain ⟨table, rest₁, r₂, r₁, rfl, hr₁, h₁⟩ := decode_tablePart_bind hd
  obtain ⟨b, r₃, hu, hp⟩ := Reader.run_bind_eq_ok h₁
  obtain ⟨rest₂, rfl, -⟩ := Reader.remains_of_run_u8 hr₁ hu
  rw [Reader.run_pure] at hp
  cases hp
  exact ⟨rest₂, by simp [key]⟩

theorem key_of_decode_definitionDecoder {h : DefinitionHeader}
    (hd : Reader.decode definitionDecoder d = .ok h) : ∃ x, d = (definition h).key ++ x := by
  obtain ⟨table, rest₁, r₂, r₁, rfl, hr₁, h₁⟩ := decode_tablePart_bind hd
  obtain ⟨block, r₃, hu, hp⟩ := Reader.run_bind_eq_ok h₁
  obtain ⟨rest₂, rfl, -⟩ := Reader.remains_of_run_u16 hr₁ hu
  rw [Reader.run_pure] at hp
  cases hp
  exact ⟨rest₂, by simp [key]⟩

theorem key_of_decode_memoDecoder {m : MemoHeader}
    (hd : Reader.decode memoDecoder d = .ok m) : ∃ x, d = (memo m).key ++ x := by
  obtain ⟨table, rest₁, r₂, r₁, rfl, hr₁, h₁⟩ := decode_tablePart_bind hd
  obtain ⟨owner, r₃, ho, h₂⟩ := Reader.run_bind_eq_ok h₁
  obtain ⟨rest₂, rfl, hr₂⟩ := Reader.remains_of_run_u32 hr₁ ho
  obtain ⟨memoIndex, r₄, hi, h₃⟩ := Reader.run_bind_eq_ok h₂
  obtain ⟨rest₃, rfl, hr₃⟩ := Reader.remains_of_run_u32 hr₂ hi
  obtain ⟨sequence, r₅, hs, hp⟩ := Reader.run_bind_eq_ok h₃
  obtain ⟨rest₄, rfl, -⟩ := Reader.remains_of_run_u16 hr₃ hs
  rw [Reader.run_pure] at hp
  cases hp
  exact ⟨rest₄, by simp [key, MemoHeader.keyPrefix]⟩

theorem key_of_decode_indexDecoder {t : UInt32} {i : UInt8}
    (hd : Reader.decode indexDecoder d = .ok (t, i)) : i < Tag.data ∧ ∃ x, d = (index t i).key ++ x := by
  obtain ⟨r₁, hrun⟩ := Reader.exists_run_of_decode hd
  obtain ⟨table, r₂, hu, h₁⟩ := Reader.run_bind_eq_ok hrun
  obtain ⟨rest₁, rfl, hr₁⟩ := Reader.remains_of_run_u32 (Reader.remains_ofBytes d) hu
  obtain ⟨b, r₃, hu8, h₂⟩ := Reader.run_bind_eq_ok h₁
  obtain ⟨rest₂, rfl, -⟩ := Reader.remains_of_run_u8 hr₁ hu8
  rw [Reader.run_ite] at h₂
  split at h₂
  · rw [Reader.run_bind, Reader.run_throw] at h₂
    cases h₂
  · next hlt =>
    rw [Reader.run_pure] at h₂
    cases h₂
    exact ⟨by simpa using hlt, rest₂, by simp [key, tablePrefix]⟩

theorem tableNameDecoder_eq_ok {name : String} (hd : Reader.decode tableNameDecoder d = .ok name) :
    ∃ rest, d = Tag.tableName :: rest ∧ name = Latin1.decode rest := by
  obtain ⟨r₁, hrun⟩ := Reader.exists_run_of_decode hd
  obtain ⟨b, r₂, hu8, h₁⟩ := Reader.run_bind_eq_ok hrun
  obtain ⟨rest, rfl, -⟩ := Reader.remains_of_run_u8 (Reader.remains_ofBytes d) hu8
  rw [Reader.run_ite] at h₁
  split at h₁
  · rw [Reader.run_bind, Reader.run_throw] at h₁
    cases h₁
  · next htag =>
    obtain rfl : b = Tag.tableName := by simpa using htag
    rw [decode_tableNameDecoder] at hd
    cases hd
    exact ⟨rest, rfl, rfl⟩

/-- A key that the router did not take for a table name is of a table whose number
does not begin with the table-name tag. -/
theorem topByte_ne_of_peekAt {h : Header} {t : UInt32} (ht : h.table? = some t) {x : List UInt8}
    {first : UInt8} (hfirst : (Reader.ofBytes (h.key ++ x)).peekAt 0 = .ok first)
    (hne : ¬(first == Tag.tableName) = true) : t >>> 24 ≠ 0xFE := by
  rw [(peekAt_key ht x).1] at hfirst
  cases hfirst
  intro htop
  exact hne (by simpa [topByte_eq_tableName_iff] using htop)

/-- What the router concludes of a header of a table decoded from its key. -/
theorem readsBack_of_key {h : Header} {x : List UInt8} {first : UInt8}
    (hfirst : (Reader.ofBytes (h.key ++ x)).peekAt 0 = .ok first) (hne : ¬(first == Tag.tableName) = true)
    {t : UInt32} (ht : h.table? = some t) (hw : h.Writable) :
    h.Writable ∧ (∀ t ∈ h.table?, t >>> 24 ≠ 0xFE) ∧
      ∃ x', h.key ++ x = h.key ++ x' ∧ (h.table? = none → x' = []) := by
  refine ⟨hw, fun t' ht' => ?_, x, rfl, fun hn => by simp [ht] at hn⟩
  rw [ht, Option.mem_some_iff] at ht'
  subst ht'
  exact topByte_ne_of_peekAt ht hfirst hne

/-- A header that parses is one a key can spell, of a table whose number does not
begin with the table-name tag, read from its key at the front of the bytes; a table
name's key is all of them. -/
theorem key_of_parse {h : Header} (hp : parse d = .ok h) :
    h.Writable ∧ (∀ t ∈ h.table?, t >>> 24 ≠ 0xFE) ∧ ∃ x, d = h.key ++ x ∧ (h.table? = none → x = []) := by
  simp only [parse, bind, Except.bind] at hp
  split at hp
  · cases hp
  next first hfirst =>
  split at hp
  · -- the first byte is the table-name tag
    split at hp
    · cases hp
    next name hname =>
    cases hp
    obtain ⟨rest, rfl, rfl⟩ := tableNameDecoder_eq_ok hname
    exact ⟨fun c hc => Latin1.toNat_lt_of_mem_decode hc, nofun, [], by simp [key], fun _ => rfl⟩
  next hne =>
  split at hp
  · cases hp
  next tag htag =>
  -- one branch per tag the router knows, each decoding a key of its own kind
  split at hp
  · split at hp
    · cases hp
    next v hv =>
    cases hp
    obtain ⟨x, rfl⟩ := key_of_decode_dataDecoder hv
    exact readsBack_of_key hfirst hne rfl trivial
  split at hp
  · split at hp
    · cases hp
    next v hv =>
    cases hp
    obtain ⟨x, rfl⟩ := key_of_decode_metadataDecoder hv
    exact readsBack_of_key hfirst hne rfl trivial
  split at hp
  · split at hp
    · cases hp
    next v hv =>
    cases hp
    obtain ⟨x, rfl⟩ := key_of_decode_definitionDecoder hv
    exact readsBack_of_key hfirst hne rfl trivial
  split at hp
  · split at hp
    · cases hp
    next v hv =>
    cases hp
    obtain ⟨x, rfl⟩ := key_of_decode_memoDecoder hv
    exact readsBack_of_key hfirst hne rfl trivial
  split at hp
  · split at hp
    · cases hp
    next v hv =>
    cases hp
    obtain ⟨hi, x, rfl⟩ := key_of_decode_indexDecoder hv
    exact readsBack_of_key hfirst hne rfl hi
  · cases hp

end Converse

/-- **Record-header keys round-trip.** The key of every header a key can spell reads
back, whatever follows it (nothing follows a table name's), provided its table's
number does not begin with the table-name tag `0xFE`; the keys of a table whose
number does are read as table names. Conversely, a header that parses is read from
its own key at the front of the bytes, all of them for a table name; its table is
the first four bytes read big-endian and its tag the fifth, or the first byte for a
table name, which has no table. -/
theorem parse_key_round_trip :
    (∀ h : Header, h.Writable → (∀ t ∈ h.table?, t >>> 24 ≠ 0xFE) →
      ∀ x, (h.table? = none → x = []) → parse (h.key ++ x) = .ok h) ∧
    (∀ (h : Header) (t : UInt32), h.table? = some t → t >>> 24 = 0xFE →
      ∀ x, parse (h.key ++ x) = .ok (.tableName (Latin1.decode (h.key ++ x).tail))) ∧
    (∀ d h, parse d = .ok h →
      h.Writable ∧ (∃ x, d = h.key ++ x ∧ (h.table? = none → x = [])) ∧
      (∀ t ∈ h.table?, t >>> 24 ≠ 0xFE ∧ t.toNat = Endian.big.value (d.take 4) ∧ d[4]? = some h.tag) ∧
      (h.table? = none → d[0]? = some h.tag)) := by
  refine ⟨fun h hw htop x hx => parse_key_append hw htop x hx,
    fun h t ht htop x => parse_key_of_topByte ht htop x, fun d h hp => ?_⟩
  obtain ⟨hw, htop, x, rfl, hx⟩ := key_of_parse hp
  refine ⟨hw, ⟨x, rfl, hx⟩, fun t ht => ⟨htop t ht, table_tag_of_key ht x⟩, fun hn => ?_⟩
  -- only a table name has no table
  cases h with
  | tableName name => simp [key, tag]
  | _ => cases hn

/-- An index entry's key, followed by bytes of the entry's own, reads back its
header. -/
theorem indexKey_reads_back :
    (index 0x00010203 5).Writable ∧
      parse ((index 0x00010203 5).key ++ [0x41, 0x42]) = .ok (index 0x00010203 5) := by
  have hw : (index 0x00010203 5).Writable := show (5 : UInt8) < Tag.data by decide
  refine ⟨hw, parse_key_round_trip.1 _ hw ?_ _ ?_⟩
  · intro t ht
    cases ht
    decide
  · intro hn
    cases hn

/-- A memo fragment's key is routed to the memo decoder. -/
example : parse (memo ⟨2, 11, 1, 3⟩).key = .ok (memo ⟨2, 11, 1, 3⟩) := rfl

end Header

end TopSpeed
