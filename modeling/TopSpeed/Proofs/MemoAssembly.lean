import TopSpeed.Proofs.Computation
import TopSpeed.Record.Memo
/-!
# A memo assembles the same from its fragments in any order

A memo of `n` bytes is stored as fragments, each a consecutive chunk of the bytes
under the memo's header with a sequence number; the sequence numbers increase
along the bytes (`MemoFragment.ofChunks`). `MemoRecord.assemble` receives the
fragments in whatever order its caller found them, sorts them by sequence and
joins them. The main statement (`MemoRecord.assemble_any_order`) is that, for
every split of a body into chunks and every order of the fragments, it gives the
memo of the whole body: its text up to the first NUL for a text column, and for a
blob column the bytes its little-endian length prefix announces, or a decoding
error naming the column when fewer are stored. A NUL or a length prefix that
straddles two chunks is read as if the body had been stored in one piece.

Two facts carry it: sorting by a 16-bit key a permutation of a list whose keys
increase gives it back (`mergeSort_eq_of_perm`, here for the fragments' sequence
numbers: `MemoFragment.sortBySequence_of_perm`),
and what `assemble` computes from fragments of one memo of the definition's
table (`MemoRecord.run_assemble_one_memo`).
-/

namespace TopSpeed

/-- Sorting by a 16-bit key a permutation of a list whose keys increase strictly
gives back that list. -/
theorem mergeSort_eq_of_perm {α : Type} (key : α → UInt16) {fs l : List α} (hperm : fs.Perm l)
    (hl : l.Pairwise fun a b => key a < key b) :
    fs.mergeSort (fun a b => decide (key a ≤ key b)) = l := by
  have hsorted : (fs.mergeSort fun a b => decide (key a ≤ key b)).Perm l :=
    (List.mergeSort_perm _ _).trans hperm
  have hle : (fs.mergeSort fun a b => decide (key a ≤ key b)).Pairwise fun a b => key a ≤ key b := by
    have h := @List.pairwise_mergeSort _ (fun a b => decide (key a ≤ key b))
      (fun _ _ _ hab hbc => by simp only [decide_eq_true_eq] at *; exact UInt16.le_trans hab hbc)
      (fun a b => by simpa using UInt16.le_total (key a) (key b)) fs
    simpa only [decide_eq_true_eq] using h
  -- the keys stay pairwise distinct under the permutation, so the sorted order is
  -- strict
  have hne : (fs.mergeSort fun a b => decide (key a ≤ key b)).Pairwise fun a b => key a ≠ key b :=
    (hsorted.pairwise_iff fun h => Ne.symm h).mpr (hl.imp UInt16.ne_of_lt)
  have hlt := (hle.and hne).imp fun h => UInt16.lt_of_le_of_ne h.1 h.2
  exact hsorted.eq_of_pairwise
    (fun _ _ _ _ hab hba => absurd (UInt16.lt_trans hab hba) (UInt16.lt_irrefl _)) hlt hl

namespace MemoFragment

/-- The fragments of memo `memoIndex` of record `owner` of `table`, one per chunk,
each with its sequence number. -/
def ofChunks (table owner memoIndex : UInt32) (chunks : List (UInt16 × List UInt8)) :
    List MemoFragment :=
  chunks.map fun c => ⟨⟨table, owner, memoIndex, c.1⟩, c.2⟩

/-- Sorting a permutation of fragments whose sequence numbers increase strictly
puts them back in that order. -/
theorem sortBySequence_of_perm {fs l : List MemoFragment} (hperm : fs.Perm l)
    (hl : l.Pairwise fun a b => a.header.sequence < b.header.sequence) :
    sortBySequence fs = l :=
  mergeSort_eq_of_perm (fun f : MemoFragment => f.header.sequence) hperm hl

theorem flatMap_payload_ofChunks (table owner memoIndex : UInt32) (chunks : List (UInt16 × List UInt8)) :
    (ofChunks table owner memoIndex chunks).flatMap (·.payload) = chunks.flatMap Prod.snd := by
  simp [ofChunks, List.flatMap_map]

end MemoFragment

namespace MemoRecord

/-- What assembling fragments of one memo of the definition's table returns, when
the definition declares the memo. -/
theorem run_assemble_one_memo {d : TableDefinition} {D : MemoDescriptor} {fs : List MemoFragment}
    {first : MemoFragment} (hhead : fs.head? = some first) (hsame : ∀ f ∈ fs, f.sameMemo first = true)
    (htable : first.header.table = d.table) (hD : d.memo? first.header.memoIndex.toNat = some D) :
    (Logging.run (assemble d fs)).1 =
      if D.isBlob then
        ((unpackBlob ((MemoFragment.sortBySequence fs).flatMap (·.payload))).mapError
          (Error.decoding d.label D.name)).map fun bs =>
            ⟨d.table, first.header.owner, first.header.memoIndex, D.name, .blob bs⟩
      else .ok ⟨d.table, first.header.owner, first.header.memoIndex, D.name,
        .memo (Latin1.decode (((MemoFragment.sortBySequence fs).flatMap (·.payload)).takeWhile (· != 0)))⟩ := by
  have hfind : fs.find? (fun f => !f.sameMemo first) = none := by
    rw [List.find?_eq_none]
    intro f hf
    simp [hsame f hf]
  show ((ExceptT.run (assemble d fs)).run #[]).1 = _
  rw [assemble]
  simp only [hhead, hfind, htable, bne_self_eq_false, hD, Bool.false_eq_true, if_false]
  by_cases hblob : D.isBlob = true
  · -- a blob is unpacked, or its failure named after the column
    simp only [hblob, if_true]
    cases hunpack : unpackBlob ((MemoFragment.sortBySequence fs).flatMap (·.payload)) with
    | ok bs => rfl
    | error reason => rfl
  · simp only [hblob, Bool.false_eq_true, if_false]
    rfl

/-- A blob whose length prefix announces at most the bytes that follow it unpacks to
those bytes. -/
theorem unpackBlob_of_le {data : List UInt8} (h : 4 + Endian.little.value (data.take 4) ≤ data.length) :
    unpackBlob data = .ok ((data.drop 4).take (Endian.little.value (data.take 4))) := by
  have hlen : ¬data.length < 4 := by omega
  have hrest : Endian.little.value (data.take 4) ≤ (data.drop 4).length := by
    rw [List.length_drop]
    omega
  rw [unpackBlob, if_neg hlen]
  simp only [if_pos hrest]

/-- A blob that stores fewer bytes than its length prefix announces, or has no
whole prefix, does not unpack. -/
theorem unpackBlob_of_lt {data : List UInt8} (h : data.length < 4 + Endian.little.value (data.take 4)) :
    ∃ reason, unpackBlob data = .error reason := by
  rw [unpackBlob]
  split
  · exact ⟨_, rfl⟩
  · have hrest : ¬Endian.little.value (data.take 4) ≤ (data.drop 4).length := by
      rw [List.length_drop]
      omega
    simp only [if_neg hrest]
    exact ⟨_, rfl⟩

/-- **Memo assembly is order-independent.** Take a definition that declares memo
index `i` with descriptor `D`, an owner `o`, a body `B` and a split of `B` into one
or more chunks, possibly empty, with strictly increasing sequence numbers. Whatever
the order in which the fragments are supplied, assembling them gives the memo of
`B`: its text up to the first NUL for a text column; for a blob column the bytes
after its four-byte little-endian length `n`, when `B` holds them all, and otherwise
a decoding error naming the column. -/
theorem assemble_any_order (d : TableDefinition) {D : MemoDescriptor} {i : UInt32}
    (hD : d.memo? i.toNat = some D) (o : UInt32) (B : List UInt8) (chunks : List (UInt16 × List UInt8))
    (hne : chunks ≠ []) (hseq : chunks.Pairwise fun a b => a.1 < b.1) (hsplit : chunks.flatMap Prod.snd = B)
    (fs : List MemoFragment) (hperm : fs.Perm (MemoFragment.ofChunks d.table o i chunks)) :
    (D.isBlob = false →
      (Logging.run (assemble d fs)).1 = .ok ⟨d.table, o, i, D.name, .memo (Latin1.decode (B.takeWhile (· != 0)))⟩) ∧
    (D.isBlob = true → 4 + Endian.little.value (B.take 4) ≤ B.length →
      (Logging.run (assemble d fs)).1 =
        .ok ⟨d.table, o, i, D.name, .blob ((B.drop 4).take (Endian.little.value (B.take 4)))⟩) ∧
    (D.isBlob = true → B.length < 4 + Endian.little.value (B.take 4) →
      ∃ reason, (Logging.run (assemble d fs)).1 = .error (.decoding d.label D.name reason)) := by
  -- every fragment is one of the memo's, and one of them comes first
  have hmem : ∀ f ∈ fs, f.header = ⟨d.table, o, i, f.header.sequence⟩ := by
    intro f hf
    obtain ⟨c, -, rfl⟩ := List.mem_map.mp (hperm.subset hf)
    rfl
  obtain ⟨first, hhead⟩ : ∃ first, fs.head? = some first := by
    cases fs with
    | nil => exact absurd (List.Perm.nil_eq hperm).symm (by simpa [MemoFragment.ofChunks] using hne)
    | cons f fs => exact ⟨f, rfl⟩
  have hfirst := hmem first (List.mem_of_mem_head? hhead)
  have hsame : ∀ f ∈ fs, f.sameMemo first = true := by
    intro f hf
    rw [MemoFragment.sameMemo, hmem f hf, hfirst]
    simp
  have hsorted : MemoFragment.sortBySequence fs = MemoFragment.ofChunks d.table o i chunks :=
    MemoFragment.sortBySequence_of_perm hperm (by simpa [MemoFragment.ofChunks, List.pairwise_map] using hseq)
  have hrun := run_assemble_one_memo hhead hsame (by rw [hfirst]) (by rw [hfirst]; exact hD)
  rw [hsorted, MemoFragment.flatMap_payload_ofChunks, hsplit, hfirst] at hrun
  refine ⟨fun hblob => ?_, fun hblob hle => ?_, fun hblob hlt => ?_⟩
  · rw [hrun, hblob, if_neg Bool.false_ne_true]
  · rw [hrun, hblob, if_pos rfl, unpackBlob_of_le hle]
    rfl
  · obtain ⟨reason, hreason⟩ := unpackBlob_of_lt hlt
    exact ⟨reason, by rw [hrun, hblob, if_pos rfl, hreason]; rfl⟩

/-- A blob whose length prefix and bytes are spread over three fragments, supplied
out of order, assembles to the six bytes its prefix announces. -/
theorem splitBlob_assembles_any_order :
    ({ table := 1, name := none, driverVersion := 1, recordLength := 4, fields := [],
        memos := [⟨"NOTES", 0, "", 0x1000, 0⟩, ⟨"PICTURE", 1, "", 0x1000, 4⟩], indexes := [] } :
        TableDefinition).memo? (1 : UInt32).toNat = some ⟨"PICTURE", 1, "", 0x1000, 4⟩ ∧
    ([(0, [6, 0, 0, 0, 0x61, 0x62]), (1, [0x63, 0x64]), (2, [0x65, 0x66])] : List (UInt16 × List UInt8)) ≠ [] ∧
    ([(0, [6, 0, 0, 0, 0x61, 0x62]), (1, [0x63, 0x64]), (2, [0x65, 0x66])] :
        List (UInt16 × List UInt8)).Pairwise (fun a b => a.1 < b.1) ∧
    ([(0, [6, 0, 0, 0, 0x61, 0x62]), (1, [0x63, 0x64]), (2, [0x65, 0x66])] :
        List (UInt16 × List UInt8)).flatMap Prod.snd = [6, 0, 0, 0, 0x61, 0x62, 0x63, 0x64, 0x65, 0x66] ∧
    (MemoFragment.ofChunks 1 3 1 [(1, [0x63, 0x64]), (2, [0x65, 0x66]), (0, [6, 0, 0, 0, 0x61, 0x62])]).Perm
      (MemoFragment.ofChunks 1 3 1 [(0, [6, 0, 0, 0, 0x61, 0x62]), (1, [0x63, 0x64]), (2, [0x65, 0x66])]) ∧
    (Logging.run (assemble
      { table := 1, name := none, driverVersion := 1, recordLength := 4, fields := [],
        memos := [⟨"NOTES", 0, "", 0x1000, 0⟩, ⟨"PICTURE", 1, "", 0x1000, 4⟩], indexes := [] }
      (MemoFragment.ofChunks 1 3 1 [(1, [0x63, 0x64]), (2, [0x65, 0x66]), (0, [6, 0, 0, 0, 0x61, 0x62])]))).1 =
      .ok ⟨1, 3, 1, "PICTURE", .blob [0x61, 0x62, 0x63, 0x64, 0x65, 0x66]⟩ :=
  ⟨rfl, by decide, by decide, rfl, by decide,
    (assemble_any_order ⟨1, none, 1, 4, [], [⟨"NOTES", 0, "", 0x1000, 0⟩, ⟨"PICTURE", 1, "", 0x1000, 4⟩], []⟩
      (i := 1) rfl 3 [6, 0, 0, 0, 0x61, 0x62, 0x63, 0x64, 0x65, 0x66]
      [(0, [6, 0, 0, 0, 0x61, 0x62]), (1, [0x63, 0x64]), (2, [0x65, 0x66])] (by decide) (by decide) rfl
      (MemoFragment.ofChunks 1 3 1 [(1, [0x63, 0x64]), (2, [0x65, 0x66]), (0, [6, 0, 0, 0, 0x61, 0x62])])
      (by decide)).2.1 rfl (by decide)⟩

end MemoRecord

end TopSpeed
