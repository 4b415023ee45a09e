import TopSpeed.Schema.Definition
import TopSpeed.Proofs.ByteCodec
import TopSpeed.Proofs.MemoAssembly
/-!
# Table definitions read back

A writer lays a definition down as one little-endian structure
(`TableDefinition.bytes`): the driver version, the record length and the three
counts, then each field of the flat list, each memo and each index, one after
another. A field descriptor ends with what its type needs (`Field.trailerBytes`):
a decimal's places and element width, a string type's text width and picture,
with a pad byte after an empty picture. An external file name is followed by the
byte 1 when it is empty (`TableDefinition.externalFileBytes`).

The `Writable` predicates say what such bytes can spell: numbers that fit their
words, text of ISO-8859-1 characters other than NUL, and for a field the form
the reader gives it (no places unless decimal, no text width or picture unless a
string type, little-endian, no members). For every such content and whatever
follows it, parsing returns the content with no name, its memos numbered from
zero and its fields nested under their groups (`TableDefinition.asParsed`), and
so does parsing the blocks of any split of the bytes in any order, once the
block numbers increase along the bytes (`TableDefinition.bytes_read_back`).

Each record is read back by following its decoder's `do` block with the rules of
`Decoder.Reads`; `TableDefinition.reads_repeated` carries a list of records
through the counted loop, numbering them as it goes, and `mergeSort_eq_of_perm`
puts the blocks back in order.
-/

namespace TopSpeed

open Decoder

theorem FieldType.ofCode?_code (t : FieldType) : ofCode? t.code = some t := by
  cases t <;> rfl

/-! ### Field descriptors -/

namespace Field

/-- What a descriptor carries after its number: a decimal's places and the width
of one element, a string type's text width and picture, with a pad byte when the
picture is empty. -/
def trailerBytes (f : Field) : List UInt8 :=
  if f.type == .decimal then [f.places.toUInt8, f.elementLength.toUInt8]
  else if f.type.isString then
    Endian.little.bytes 2 f.stringLength ++ Latin1.terminated f.picture ++
      (if f.picture.isEmpty then [0] else [])
  else []

/-- The descriptor a writer lays down for a field of a flat list. -/
def descriptorBytes (f : Field) : List UInt8 :=
  [f.type.code] ++ Endian.little.bytes 2 f.offset ++ Latin1.terminated f.name ++
    Endian.little.bytes 2 f.elements ++ Endian.little.bytes 2 f.length ++
    Endian.little.bytes 2 f.flags ++ Endian.little.bytes 2 f.number ++ f.trailerBytes

/-- The fields a descriptor can spell and the reader gives back unchanged. -/
structure Writable (f : Field) : Prop where
  offset_lt : f.offset < 2 ^ 16
  name : Latin1.Terminable f.name
  elements_lt : f.elements < 2 ^ 16
  length_lt : f.length < 2 ^ 16
  flags_lt : f.flags < 2 ^ 16
  number_lt : f.number < 2 ^ 16
  places : if f.type = .decimal then f.places < 2 ^ 8 else f.places = 0
  text : if f.type.isString then f.stringLength < 2 ^ 16 ∧ Latin1.Terminable f.picture
    else f.stringLength = 0 ∧ f.picture = ""
  endian : f.endian = .little
  members : f.members = []

theorem reads_decode {f : Field} (hf : f.Writable) : Reads decode f.descriptorBytes f := by
  unfold decode descriptorBytes
  simp only [List.append_assoc]
  refine reads_bind (reads_u8 _) (reads_bind (reads_u16_of_lt _ hf.offset_lt)
    (reads_bind (reads_terminated hf.name) ?_))
  simp only [FieldType.ofCode?_code]
  refine reads_bind (reads_u16_of_lt _ hf.elements_lt) (reads_bind (reads_u16_of_lt _ hf.length_lt)
    (reads_bind (reads_u16_of_lt _ hf.flags_lt) (reads_bind (reads_u16_of_lt _ hf.number_lt) ?_)))
  simp only [UInt16.toNat_ofNat_of_lt' hf.offset_lt, UInt16.toNat_ofNat_of_lt' hf.elements_lt,
    UInt16.toNat_ofNat_of_lt' hf.length_lt, UInt16.toNat_ofNat_of_lt' hf.flags_lt,
    UInt16.toNat_ofNat_of_lt' hf.number_lt]
  obtain ⟨-, -, -, -, -, -, hplaces, htext, hend, hmem⟩ := hf
  unfold trailerBytes
  by_cases hdec : f.type = .decimal
  · -- a decimal: its places, and the width of one element, which is not kept
    have hstr : f.type.isString = false := by rw [hdec]; rfl
    rw [if_pos hdec] at hplaces
    rw [if_neg (by simp [hstr])] at htext
    simp only [hdec, beq_self_eq_true, if_true]
    refine (reads_bind (reads_u8 _) (reads_bind_pure (reads_u8 _) _)).of_eq ?_
    cases f
    simp_all [UInt8.toNat_ofNat_of_lt' hplaces]
  · rw [if_neg hdec] at hplaces
    have hdec' : (f.type == .decimal) = false := by simpa using hdec
    simp only [hdec', Bool.false_eq_true, if_false]
    by_cases hstr : f.type.isString
    · -- a string type: its text width and picture, and a pad byte after an empty one
      rw [if_pos hstr] at htext
      simp only [hstr, if_true, List.append_assoc]
      refine reads_bind (reads_u16_of_lt _ htext.1) (reads_bind (reads_terminated htext.2) ?_)
      simp only [UInt16.toNat_ofNat_of_lt' htext.1]
      by_cases hempty : f.picture.isEmpty
      · simp only [hempty, if_true]
        refine (reads_bind_pure (reads_u8 _) _).of_eq ?_
        cases f
        simp_all
      · simp only [hempty, Bool.false_eq_true, if_false]
        refine (reads_pure _).of_eq ?_
        cases f
        simp_all
    · rw [if_neg hstr] at htext
      simp only [hstr, Bool.false_eq_true, if_false]
      refine (reads_pure _).of_eq ?_
      cases f
      simp_all

end Field

/-! ### Memo, key and index descriptors -/

namespace TableDefinition

/-- An external file name as a writer lays it down: its text and NUL, and the byte
1 after an empty one. -/
def externalFileBytes (s : String) : List UInt8 :=
  Latin1.terminated s ++ (if s.isEmpty then [1] else [])

theorem reads_externalFile (what : String) {s : String} (h : Latin1.Terminable s) :
    Reads (externalFile what) (externalFileBytes s) s := by
  unfold externalFile externalFileBytes
  refine reads_bind (reads_terminated h) ?_
  by_cases hs : s.isEmpty
  · -- an empty name is followed by the marker, which the reader checks
    simp only [hs, if_true]
    refine reads_bind (reads_u8 1) ?_
    simp only [bne_self_eq_false, Bool.false_eq_true, if_false]
    exact reads_pure s
  · simp only [hs, Bool.false_eq_true, if_false]
    exact reads_pure s

example : externalFileBytes "" = [0, 1] := by decide

end TableDefinition

namespace MemoDescriptor

/-- The descriptor a writer lays down for a memo column; its number is where it
stands in the list. -/
def bytes (m : MemoDescriptor) : List UInt8 :=
  TableDefinition.externalFileBytes m.externalFile ++ Latin1.terminated m.name ++
    Endian.little.bytes 2 m.length ++ Endian.little.bytes 2 m.flags.toNat

/-- The memo columns a descriptor can spell. -/
structure Writable (m : MemoDescriptor) : Prop where
  externalFile : Latin1.Terminable m.externalFile
  name : Latin1.Terminable m.name
  length_lt : m.length < 2 ^ 16

end MemoDescriptor

namespace KeyField

/-- The bytes of one key component: the field number and the flags. -/
def bytes (k : KeyField) : List UInt8 :=
  Endian.little.bytes 2 k.fieldNumber ++ Endian.little.bytes 2 k.flags

/-- The key components two 16-bit words can spell. -/
structure Writable (k : KeyField) : Prop where
  fieldNumber_lt : k.fieldNumber < 2 ^ 16
  flags_lt : k.flags < 2 ^ 16

end KeyField

namespace IndexDescriptor

/-- The descriptor a writer lays down for an index. -/
def bytes (x : IndexDescriptor) : List UInt8 :=
  TableDefinition.externalFileBytes x.externalFile ++ Latin1.terminated x.name ++ [x.flags.toUInt8] ++
    Endian.little.bytes 2 x.keyFields.length ++ x.keyFields.flatMap KeyField.bytes

/-- The indexes a descriptor can spell. -/
structure Writable (x : IndexDescriptor) : Prop where
  externalFile : Latin1.Terminable x.externalFile
  name : Latin1.Terminable x.name
  flags_lt : x.flags < 2 ^ 8
  count_lt : x.keyFields.length < 2 ^ 16
  keyFields : ∀ k ∈ x.keyFields, k.Writable

end IndexDescriptor

namespace TableDefinition

theorem reads_memoDecoder (index : Nat) {m : MemoDescriptor} (hm : m.Writable) :
    Reads (memoDecoder index) m.bytes { m with index := index } := by
  unfold memoDecoder MemoDescriptor.bytes
  simp only [List.append_assoc]
  refine (reads_bind (reads_externalFile _ hm.externalFile) (reads_bind (reads_terminated hm.name)
    (reads_bind (reads_u16_of_lt _ hm.length_lt) (reads_bind_pure (reads_u16 _ m.flags) _)))).of_eq ?_
  simp [UInt16.toNat_ofNat_of_lt' hm.length_lt]

theorem reads_keyFieldDecoder {k : KeyField} (hk : k.Writable) : Reads keyFieldDecoder k.bytes k := by
  unfold keyFieldDecoder KeyField.bytes
  refine (reads_bind (reads_u16_of_lt _ hk.fieldNumber_lt)
    (reads_bind_pure (reads_u16_of_lt _ hk.flags_lt) _)).of_eq ?_
  simp [UInt16.toNat_ofNat_of_lt' hk.fieldNumber_lt, UInt16.toNat_ofNat_of_lt' hk.flags_lt]

/-! ### Counted lists -/

/-- Items written one after another are read back by `repeated`, numbered from
`index` on. -/
theorem reads_repeated {α β : Type} {d : Nat → Decoder α} {enc : β → List UInt8} {g : Nat → β → α}
    (xs : List β) (h : ∀ k, ∀ x ∈ xs, Reads (d k) (enc x) (g k x)) (index : Nat) :
    Reads (repeated d xs.length index) (xs.flatMap enc) (xs.mapIdx fun i x => g (index + i) x) := by
  induction xs generalizing index with
  | nil => exact reads_pure []
  | cons x xs ih =>
    have hx := h index x List.mem_cons_self
    have hxs := ih (fun k y hy => h k y (List.mem_cons_of_mem _ hy)) (index + 1)
    refine (reads_bind hx (reads_bind_pure hxs _)).of_eq ?_
    simp only [List.mapIdx_cons, Nat.add_zero]
    congr 2
    funext i y
    rw [Nat.add_assoc, Nat.add_comm 1 i]

/-- Items that do not depend on their number are read back as they were written. -/
theorem reads_repeated_const {α : Type} {d : Decoder α} {enc : α → List UInt8} (xs : List α)
    (h : ∀ x ∈ xs, Reads d (enc x) x) (index : Nat) :
    Reads (repeated (fun _ => d) xs.length index) (xs.flatMap enc) xs := by
  refine (reads_repeated (g := fun _ x => x) xs (fun _ => h) index).of_eq ?_
  exact List.ext_getElem (by simp) (by simp)

theorem reads_indexDecoder {x : IndexDescriptor} (hx : x.Writable) : Reads indexDecoder x.bytes x := by
  unfold indexDecoder IndexDescriptor.bytes
  simp only [List.append_assoc]
  refine reads_bind (reads_externalFile _ hx.externalFile) (reads_bind (reads_terminated hx.name)
    (reads_bind (reads_u8 _) (reads_bind (reads_u16_of_lt _ hx.count_lt) ?_)))
  simp only [UInt16.toNat_ofNat_of_lt' hx.count_lt]
  refine (reads_bind_pure (reads_repeated_const x.keyFields
    (fun k hk => reads_keyFieldDecoder (hx.keyFields k hk)) 0) _).of_eq ?_
  simp [UInt8.toNat_ofNat_of_lt' hx.flags_lt]

/-! ### Whole definitions -/

/-- The content of a definition as a writer lays it down: the driver version, the
record length, the three counts, then the flat fields, the memos and the
indexes. The table, the name and the memos' numbers are not written. -/
def bytes (d : TableDefinition) : List UInt8 :=
  Endian.little.bytes 2 d.driverVersion ++ Endian.little.bytes 2 d.recordLength ++
    Endian.little.bytes 2 d.fields.length ++ Endian.little.bytes 2 d.memos.length ++
    Endian.little.bytes 2 d.indexes.length ++ d.fields.flatMap Field.descriptorBytes ++
    d.memos.flatMap MemoDescriptor.bytes ++ d.indexes.flatMap IndexDescriptor.bytes

/-- The definitions, with flat fields, that a writer can lay down. -/
structure Writable (d : TableDefinition) : Prop where
  driverVersion_lt : d.driverVersion < 2 ^ 16
  recordLength_lt : d.recordLength < 2 ^ 16
  fields_length_lt : d.fields.length < 2 ^ 16
  memos_length_lt : d.memos.length < 2 ^ 16
  indexes_length_lt : d.indexes.length < 2 ^ 16
  fields : ∀ f ∈ d.fields, f.Writable
  memos : ∀ m ∈ d.memos, m.Writable
  indexes : ∀ x ∈ d.indexes, x.Writable

/-- What a reader of table `t` makes of the content `d`: no name, the memos
numbered from zero in order, and the flat fields nested under their groups. -/
def asParsed (d : TableDefinition) (t : UInt32) : TableDefinition :=
  { d with table := t, name := none, fields := Field.nestAll d.fields,
           memos := d.memos.mapIdx fun i m => { m with index := i } }

theorem reads_decoder (t : UInt32) {d : TableDefinition} (hd : d.Writable) :
    Reads (decoder t) d.bytes
      { d with table := t, name := none, memos := d.memos.mapIdx fun i m => { m with index := i } } := by
  unfold decoder bytes
  simp only [List.append_assoc]
  refine reads_bind (reads_u16_of_lt _ hd.driverVersion_lt) (reads_bind (reads_u16_of_lt _ hd.recordLength_lt)
    (reads_bind (reads_u16_of_lt _ hd.fields_length_lt) (reads_bind (reads_u16_of_lt _ hd.memos_length_lt)
    (reads_bind (reads_u16_of_lt _ hd.indexes_length_lt) ?_))))
  simp only [UInt16.toNat_ofNat_of_lt' hd.fields_length_lt, UInt16.toNat_ofNat_of_lt' hd.memos_length_lt,
    UInt16.toNat_ofNat_of_lt' hd.indexes_length_lt]
  -- the three lists, each read by its own decoder as often as its count says
  refine (reads_bind (reads_repeated_const d.fields (fun f hf => Field.reads_decode (hd.fields f hf)) 0)
    (reads_bind (reads_repeated d.memos (fun i m hm => reads_memoDecoder i (hd.memos m hm)) 0)
    (reads_bind_pure (reads_repeated_const d.indexes
      (fun x hx => reads_indexDecoder (hd.indexes x hx)) 0) _))).of_eq ?_
  simp [UInt16.toNat_ofNat_of_lt' hd.driverVersion_lt, UInt16.toNat_ofNat_of_lt' hd.recordLength_lt]

theorem run_parse_of_decode {t : UInt32} {data : List UInt8} {flat : TableDefinition}
    (h : Reader.decode (decoder t) data = .ok flat) :
    Logging.run (parse t data) =
      (.ok { flat with fields := Field.nestAll flat.fields },
        [parsedLine { flat with fields := Field.nestAll flat.fields }]) := by
  unfold parse
  rw [h]
  rfl

/-- Blocks put in order by their numbers parse as their bytes joined in that order,
whatever order they come in. -/
theorem ofBlocks_of_perm (t : UInt32) {blocks chunks : List (UInt16 × List UInt8)}
    (hperm : blocks.Perm chunks) (hseq : chunks.Pairwise fun a b => a.1 < b.1) :
    ofBlocks t blocks = parse t (chunks.flatMap Prod.snd) := by
  unfold ofBlocks
  rw [mergeSort_eq_of_perm Prod.fst hperm hseq]

/-- **A definition reads back.** The bytes a writer lays down for a definition it
can spell, followed by anything, parse as the definition with no name, its memos
numbered from zero and its fields nested under their groups, with the one debug
line of a parse; and so do the blocks of every split of those bytes whose numbers
increase along them, in any order. -/
theorem bytes_read_back (t : UInt32) {d : TableDefinition} (hd : d.Writable) (trailing : List UInt8) :
    Logging.run (parse t (d.bytes ++ trailing)) = (.ok (d.asParsed t), [parsedLine (d.asParsed t)]) ∧
    ∀ chunks : List (UInt16 × List UInt8), chunks.Pairwise (fun a b => a.1 < b.1) →
      chunks.flatMap Prod.snd = d.bytes ++ trailing →
      ∀ blocks, blocks.Perm chunks →
        Logging.run (ofBlocks t blocks) = (.ok (d.asParsed t), [parsedLine (d.asParsed t)]) := by
  have hparse := run_parse_of_decode ((reads_decoder t hd).decode trailing)
  refine ⟨hparse, fun chunks hseq hsplit blocks hperm => ?_⟩
  rw [ofBlocks_of_perm t hperm hseq, hsplit]
  exact hparse

/-- A table of a long, a string with no picture, a text memo, a blob memo and an
index on the long. -/
def contactsDefinition : TableDefinition :=
  { table := 0, name := none, driverVersion := 1, recordLength := 14,
    fields :=
      [{ (default : Field) with name := "ID", type := .long, length := 4, elements := 1, number := 1 },
       { (default : Field) with name := "NAME", type := .string, offset := 4, length := 10, elements := 1,
                                number := 2, stringLength := 10 }],
    memos := [⟨"NOTES", 0, "", 0x1000, 0⟩, ⟨"PHOTO", 0, "", 0x1000, 4⟩],
    indexes := [⟨"BYID", "", 0, [⟨1, 0⟩]⟩] }

theorem contactsDefinition_writable : contactsDefinition.Writable := by
  refine ⟨by decide, by decide, by decide, by decide, by decide, ?_, ?_, ?_⟩
  · simp only [contactsDefinition, List.forall_mem_cons, List.not_mem_nil, IsEmpty.forall_iff,
      implies_true, and_true]
    exact ⟨⟨by decide, by decide, by decide, by decide, by decide, by decide, by decide, by decide, rfl, rfl⟩,
      ⟨by decide, by decide, by decide, by decide, by decide, by decide, by decide, by decide, rfl, rfl⟩⟩
  · simp only [contactsDefinition, List.forall_mem_cons, List.not_mem_nil, IsEmpty.forall_iff,
      implies_true, and_true]
    exact ⟨⟨by decide, by decide, by decide⟩, ⟨by decide, by decide, by decide⟩⟩
  · simp only [contactsDefinition, List.forall_mem_cons, List.not_mem_nil, IsEmpty.forall_iff,
      implies_true, and_true]
    refine ⟨by decide, by decide, by decide, by decide, ?_⟩
    simp only [List.forall_mem_cons, List.not_mem_nil, IsEmpty.forall_iff, implies_true, and_true]
    exact ⟨by decide, by decide⟩

/-- The contacts definition split into two blocks after its twentieth byte, the
second block supplied first. -/
theorem contactsDefinition_reads_back_from_blocks :
    contactsDefinition.Writable ∧
      Logging.run (ofBlocks 1 [(1, contactsDefinition.bytes.drop 20), (0, contactsDefinition.bytes.take 20)]) =
        (.ok (contactsDefinition.asParsed 1), [parsedLine (contactsDefinition.asParsed 1)]) := by
  have hw := contactsDefinition_writable
  refine ⟨hw, (bytes_read_back 1 hw []).2 [(0, contactsDefinition.bytes.take 20),
    (1, contactsDefinition.bytes.drop 20)] (by decide) (by simp) _ (List.Perm.swap _ _ [])⟩

end TableDefinition

end TopSpeed
