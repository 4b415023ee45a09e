import TopSpeed.Proofs.WrittenFile
import TopSpeed.Proofs.Pruning
/-!
# Writing a file and reading it back

The main statement is `Writer.writeFile_reads_back`: a file the writer makes from
records with distinct headers opens, with the password its key came from, and the
walk of every key under the strict policy yields exactly those records sorted by
header, with no failure, in a separator-ordered file.

The proof reads the tree the build wrote from the top down:

* `Walk.ReadsBack t rs after`: the tree `t` below an entry yields the records `rs`,
  has no failing page, and is separated given the keys `after` that follow it;
* one case per kind of page: a leaf the build wrote reads back its records
  (`Walk.readsBack_leaf`), and the entries of a directory the runs they cover
  (`Walk.readsBack_forest`), so that every entry reads back what it covers, by
  induction on its level (`Walk.readsBack_tree`);
* the root is at a level below 26 (`Writer.Builder.le_of_pow_lt_pages`), far below
  the bound the walk starts from, and the walk's root entry differs from the one
  the build returned only by its key, which no page read looks at (`Walk.tree_congr`).

A directory's entries are keyed by the last header below each, so they increase
with the records (`Writer.Builder.maxKeys_lt`), as the reader checks; and the
strict walk of a tree without failing pages is the tolerant one.
-/

namespace TopSpeed

open PageTree

/-! ### Records as the reader finds them -/

@[simp] theorem WriteRecord.header_toRaw (w : WriteRecord) : w.toRaw.header = w.header := by
  simp [WriteRecord.toRaw, RawRecord.header, WriteRecord.bytes]

theorem keysOf_map_toRaw (rs : List WriteRecord) :
    keysOf (rs.map WriteRecord.toRaw) = rs.map WriteRecord.header := by
  simp [keysOf, Function.comp_def]

/-! ### Counts fit their fields -/

theorem Leaf.length_le_length_encode_go : ∀ (previous : Option (List UInt8 × Nat)) (ws : List WriteRecord),
    ws.length ≤ (Leaf.encode.go previous ws).length
  | _, [] => by simp [Leaf.encode.go]
  | previous, w :: ws => by
    have ih := length_le_length_encode_go (some (w.bytes, w.header.length)) ws
    rw [Leaf.encode.go, List.length_append, List.length_cons]
    have : 1 ≤ (Leaf.encodeRecord previous w.bytes w.header.length).length := by
      simp [Leaf.encodeRecord]
    omega

/-- Each record of a leaf takes at least its flag byte. -/
theorem Leaf.length_le_length_encode (ws : List WriteRecord) : ws.length ≤ (Leaf.encode ws).length :=
  Leaf.length_le_length_encode_go none ws

/-- Each entry of a directory takes at least its reference, length and key length. -/
theorem Directory.length_le_length_encode : ∀ es : List DirectoryEntry, es.length ≤ (Directory.encode es).length
  | [] => by simp
  | e :: es => by
    have ih := length_le_length_encode es
    rw [Directory.encode, List.flatMap_cons, List.length_append, ← Directory.encode, Directory.encodeEntry]
    simp
    omega

/-! ### Sorting by header -/

/-- Records with distinct headers, sorted by header as the writer sorts them, have
increasing headers. -/
theorem WriteRecord.headers_mergeSort_lt (records : List WriteRecord)
    (hdistinct : (records.map WriteRecord.header).Nodup) :
    ((records.mergeSort fun x y => decide (x.header ≤ y.header)).map WriteRecord.header).Pairwise (· < ·) := by
  have hle := @List.pairwise_mergeSort _ (fun x y : WriteRecord => decide (x.header ≤ y.header))
    (fun a b c hab hbc => by
      simp only [decide_eq_true_eq] at hab hbc ⊢
      exact List.le_trans hab hbc)
    (fun a b => by simpa using List.le_total a.header b.header) records
  have hnodup : ((records.mergeSort fun x y => decide (x.header ≤ y.header)).map WriteRecord.header).Nodup :=
    ((List.mergeSort_perm records _).map WriteRecord.header).nodup_iff.mpr hdistinct
  rw [List.Nodup, List.pairwise_map] at hnodup
  rw [List.pairwise_map]
  exact (hle.and hnodup).imp fun ⟨hxy, hne⟩ =>
    (List.le_iff_lt_or_eq.mp (of_decide_eq_true hxy)).resolve_right hne

/-! ### Keys of sorted records -/

namespace Writer.Builder

section Sorted

variable {rs : List WriteRecord}

theorem lastHeader_mem (hne : rs ≠ []) : lastHeader rs ∈ rs.map WriteRecord.header := by
  rw [lastHeader, List.getLast?_eq_some_getLast hne, Option.map_some, Option.getD_some]
  exact List.mem_map_of_mem (List.getLast_mem hne)

/-- The last header of records in increasing order is the largest. -/
theorem le_lastHeader (hsorted : (rs.map WriteRecord.header).Pairwise (· < ·)) :
    ∀ r ∈ rs, r.header ≤ lastHeader rs := by
  intro r hr
  obtain ⟨init, last, rfl⟩ := (List.eq_nil_or_concat' rs).resolve_left (List.ne_nil_of_mem hr)
  have hlast : lastHeader (init ++ [last]) = last.header := by simp [lastHeader]
  rw [hlast]
  rcases List.mem_append.mp hr with hr | hr
  · rw [List.map_append, List.pairwise_append] at hsorted
    exact List.le_of_lt (hsorted.2.2 _ (List.mem_map_of_mem hr) _ (by simp))
  · rw [List.mem_singleton.mp hr]
    exact List.le_refl _

end Sorted

variable {b : Builder} {level : Nat}

theorem Covers.maxKey_mem {e : DirectoryEntry} {rs : List WriteRecord} (h : b.Covers level e rs) :
    e.maxKey ∈ rs.map WriteRecord.header := by
  obtain ⟨hne, hkey⟩ := h.maxKey_eq
  rw [hkey]
  exact lastHeader_mem hne

/-- The keys of entries that cover runs of records are headers of those records. -/
theorem maxKey_mem_flatten : ∀ {es : List DirectoryEntry} {rss : List (List WriteRecord)},
    List.Forall₂ (b.Covers level) es rss → ∀ e ∈ es, e.maxKey ∈ rss.flatten.map WriteRecord.header
  | [], [], .nil, _, he => by cases he
  | _ :: _, rs :: rss, .cons hc hall, e, he => by
    rw [List.flatten_cons, List.map_append]
    rcases List.mem_cons.mp he with rfl | he
    · exact List.mem_append_left _ hc.maxKey_mem
    · exact List.mem_append_right _ (maxKey_mem_flatten hall e he)

/-- Entries that cover consecutive runs of records in increasing order have
increasing keys. -/
theorem maxKeys_lt : ∀ {es : List DirectoryEntry} {rss : List (List WriteRecord)},
    List.Forall₂ (b.Covers level) es rss → (rss.flatten.map WriteRecord.header).Pairwise (· < ·) →
      (es.map DirectoryEntry.maxKey).Pairwise (· < ·)
  | [], [], .nil, _ => List.Pairwise.nil
  | e :: es, rs :: rss, .cons hc hall, hsorted => by
    rw [List.flatten_cons, List.map_append, List.pairwise_append] at hsorted
    rw [List.map_cons, List.pairwise_cons]
    refine ⟨fun k hk => ?_, maxKeys_lt hall hsorted.2.1⟩
    obtain ⟨e', he', rfl⟩ := List.mem_map.mp hk
    exact hsorted.2.2 _ hc.maxKey_mem _ (maxKey_mem_flatten hall e' he')

end Writer.Builder

/-! ### The tree below an entry -/

namespace Walk

open Writer Builder

/-- The tree below an entry reads back the records `rs`, in order, with no failing
page, and is separated given the keys `after` that the walk finds after it. -/
def ReadsBack (t : PageTree) (rs : List WriteRecord) (after : List (List UInt8)) : Prop :=
  t.records = rs.map WriteRecord.toRaw ∧ t.Intact ∧ t.Separated after

section Tree

variable {img : Image} {b : Builder}

/-- The entries of a directory the build wrote read back, one after another, the
runs of records they cover, given that each entry's tree does. -/
theorem readsBack_forest {level : Nat}
    (ih : ∀ (e : DirectoryEntry) (rs : List WriteRecord) (after : List (List UInt8)), b.Covers level e rs →
      (∀ r ∈ rs, r.bytes.length < 2 ^ 16 ∧ r.header.length < 256) →
      (rs.map WriteRecord.header ++ after).Pairwise (· < ·) → ReadsBack (tree img (level + 1) e) rs after)
    {es : List DirectoryEntry} {rss : List (List WriteRecord)} (after : List (List UInt8))
    (hall : List.Forall₂ (b.Covers level) es rss)
    (hsmall : ∀ r ∈ rss.flatten, r.bytes.length < 2 ^ 16 ∧ r.header.length < 256)
    (hsorted : (rss.flatten.map WriteRecord.header ++ after).Pairwise (· < ·)) :
    recordsAll (forest img (level + 1) es) = rss.flatten.map WriteRecord.toRaw ∧
      IntactAll (forest img (level + 1) es) ∧ SeparatedAll (forest img (level + 1) es) after := by
  -- on the entries, each followed by the keys of the later ones
  induction hall with
  | nil =>
    rw [forest]
    exact ⟨rfl, trivial, trivial⟩
  | @cons e rs es rss hc hall ihall =>
    rw [List.flatten_cons] at hsmall hsorted
    rw [List.map_append, List.append_assoc] at hsorted
    obtain ⟨hrec, hint, hsep⟩ := ihall (fun r hr => hsmall r (List.mem_append_right _ hr))
      (List.pairwise_append.mp hsorted).2.1
    -- the keys after this entry are those of the later entries, then those after the directory
    have hkeys : keysOf (recordsAll (forest img (level + 1) es)) = rss.flatten.map WriteRecord.header := by
      rw [hrec, keysOf_map_toRaw]
    obtain ⟨trec, tint, tsep⟩ := ih e rs (keysOf (recordsAll (forest img (level + 1) es)) ++ after) hc
      (fun r hr => hsmall r (List.mem_append_left _ hr)) (by rw [hkeys]; exact hsorted)
    obtain ⟨hne, hmax⟩ := hc.maxKey_eq
    rw [forest]
    refine ⟨by rw [recordsAll_cons, trec, hrec, List.flatten_cons, List.map_append], ⟨tint, hint⟩,
      ?_, ?_, tsep, hsep⟩
    · -- the entry's key is the last of its records', the largest
      intro k hk
      rw [trec, keysOf_map_toRaw] at hk
      obtain ⟨r, hr, rfl⟩ := List.mem_map.mp hk
      rw [hmax]
      exact le_lastHeader (List.pairwise_append.mp hsorted).1 r hr
    · -- and it is one of them, below every key after them
      intro k hk
      rw [hkeys] at hk
      exact List.le_of_lt ((List.pairwise_append.mp hsorted).2.2 _ hc.maxKey_mem _ hk)

variable (hold : img.HoldsPages b)
include hold

/-- The count in a page's header is what was counted: it is at most the payload's
length, which fits in 15 bits. -/
theorem toNat_count {e : DirectoryEntry} {payload : List UInt8} {count : UInt16} {level : UInt8}
    (hw : b.Wrote e payload count level) {n : Nat} (hn : n ≤ payload.length) : n.toUInt16.toNat = n := by
  have hpayload := hold.payload _ hw.1
  simp only at hpayload
  simp
  omega

/-- A leaf the build wrote reads back its records, below any directory. -/
theorem readsBack_leaf {bound : Nat} {e : DirectoryEntry} {rs : List WriteRecord} (after : List (List UInt8))
    (hcov : b.Covers 0 e rs) (hbound : 0 < bound) (hsmall : ∀ r ∈ rs, r.bytes.length < 2 ^ 16) :
    ReadsBack (tree img bound e) rs after := by
  obtain ⟨-, -, hw⟩ := hcov
  have hread := hold.readPage_of_wrote hw
  have hcount := toNat_count hold hw (Leaf.length_le_length_encode rs)
  rw [tree_of_leaf _ (rs.map WriteRecord.toRaw) hread (by simpa [Page.headerFor] using hbound) rfl
    (by show (Leaf.parse (Leaf.encode rs) rs.length.toUInt16.toNat).1 = _
        rw [hcount]
        exact Leaf.parse_encode rs hsmall)]
  exact ⟨records_leaf _ _, trivial, trivial⟩

/-- A directory the build wrote reads back the records of its entries, one after
another, given that each entry's tree does. -/
theorem readsBack_dir {level bound : Nat} {e : DirectoryEntry} {es : List DirectoryEntry}
    {rss : List (List WriteRecord)} (after : List (List UInt8))
    (ih : ∀ (e : DirectoryEntry) (rs : List WriteRecord) (after : List (List UInt8)), b.Covers level e rs →
      (∀ r ∈ rs, r.bytes.length < 2 ^ 16 ∧ r.header.length < 256) →
      (rs.map WriteRecord.header ++ after).Pairwise (· < ·) → ReadsBack (tree img (level + 1) e) rs after)
    (hall : List.Forall₂ (b.Covers level) es rss)
    (hw : b.Wrote e (Directory.encode es) es.length.toUInt16 (level + 1).toUInt8)
    (hbound : level + 1 < bound) (hlevel : level + 1 < 256)
    (hsmall : ∀ r ∈ rss.flatten, r.bytes.length < 2 ^ 16 ∧ r.header.length < 256)
    (hsorted : (rss.flatten.map WriteRecord.header ++ after).Pairwise (· < ·)) :
    ReadsBack (tree img bound e) rss.flatten after := by
  have hread := hold.readPage_of_wrote hw
  have hlevel8 : (level + 1).toUInt8.toNat = level + 1 := by
    simp
    omega
  have hleaf : ((level + 1).toUInt8 == 0) = false := by
    rw [beq_eq_false_iff_ne]
    intro h
    rw [h] at hlevel8
    simp at hlevel8
  have hcount := toNat_count hold hw (Directory.length_le_length_encode es)
  -- the keys of the entries are headers of the records below, in increasing order
  have hkeys : ∀ e' ∈ es, e'.maxKey.length < 256 := by
    intro e' he'
    obtain ⟨r, hr, hkey⟩ := List.mem_map.mp (maxKey_mem_flatten hall e' he')
    rw [← hkey]
    exact (hsmall r hr).2
  have hincreasing := (maxKeys_lt hall (List.pairwise_append.mp hsorted).1).imp List.le_of_lt
  rw [tree_of_dir _ es hread (by simp only [Page.headerFor, hlevel8]; exact hbound) hleaf
    (by show Directory.parse _ (Directory.encode es) es.length.toUInt16.toNat = _
        rw [hcount]
        exact Directory.parse_encode _ es hkeys hincreasing)]
  simp only [Page.headerFor, hlevel8]
  obtain ⟨hrec, hint, hsep⟩ := readsBack_forest ih after hall hsmall hsorted
  exact ⟨by rw [records_dir, hrec], hint, hsep⟩

/-- **Every entry of the build reads back the records it covers**, below a
directory of a higher level, with no failing page, and separated given keys after
it that are larger than all its own. -/
theorem readsBack_tree : ∀ (level bound : Nat) (e : DirectoryEntry) (rs : List WriteRecord)
    (after : List (List UInt8)), b.Covers level e rs → level < bound → level < 256 →
    (∀ r ∈ rs, r.bytes.length < 2 ^ 16 ∧ r.header.length < 256) →
    (rs.map WriteRecord.header ++ after).Pairwise (· < ·) → ReadsBack (tree img bound e) rs after
  | 0, _, _, _, after, hcov, hbound, _, hsmall, _ =>
    readsBack_leaf hold after hcov hbound fun r hr => (hsmall r hr).1
  | level + 1, _, _, _, after, ⟨_, _, _, hall, rfl, _, hw⟩, hbound, hlevel, hsmall, hsorted =>
    -- the entries below sit one level lower, under a page of this level
    readsBack_dir hold after (fun e rs after hc hs hp => readsBack_tree level (level + 1) e rs after hc
      (Nat.lt_succ_self _) (by omega) hs hp) hall hw hbound hlevel hsmall hsorted

end Tree

/-- The tree below an entry depends on where the entry points, not on its key. -/
theorem tree_congr (img : Image) (bound : Nat) {e e' : DirectoryEntry} (hr : e.reference = e'.reference)
    (hl : e.length = e'.length) : tree img bound e = tree img bound e' := by
  obtain ⟨r, l, k⟩ := e
  obtain ⟨r', l', k'⟩ := e'
  simp only at hr hl
  subst hr hl
  rw [tree, tree]

end Walk

/-! ### How deep the tree goes -/

namespace Writer.Builder

/-- Pages of at least one byte take at least one unit each. -/
theorem length_le_unitsOf : ∀ {ps : List WrittenPage}, (∀ p ∈ ps, 1 ≤ p.bytes.length) → ps.length ≤ unitsOf ps
  | [], _ => Nat.le_refl _
  | p :: ps, h => by
    have ih := length_le_unitsOf fun q hq => h q (List.mem_cons_of_mem p hq)
    have hp := h p List.mem_cons_self
    simp only [List.length_cons, unitsOf_cons]
    omega

/-- A laid build within `2 ^ 32` bytes has fewer than `2 ^ 24` pages, so a tree
with `2 ^ (top - 1)` below twice its pages has at most 25 levels. -/
theorem le_of_pow_lt_pages {b : Builder} (hlaid : b.Laid) (hext : b.extent < 2 ^ 32) {top : Nat}
    (hbound : 2 ^ (top - 1) < 2 * b.pages.length) : top ≤ 25 := by
  have hbytes : ∀ p ∈ b.pages, 1 ≤ p.bytes.length := by
    intro p hp
    obtain ⟨count, level, hb⟩ := hlaid.2 p hp
    rw [hb, Page.length_stored]
    have := le_blockAligned (Page.plain p.reference p.payload count level).length
    have : 1 ≤ (Page.plain p.reference p.payload count level).length := by simp [Page.plain, PageHeader.byteSize]; omega
    split <;> omega
  have hunits := length_le_unitsOf hbytes
  rw [extent_eq] at hext
  simp only [headerSize] at hext
  have hpow : 2 ^ (top - 1) < 2 ^ 25 := by omega
  have := (Nat.pow_lt_pow_iff_right (by decide : 1 < 2)).mp hpow
  omega

end Writer.Builder

/-! ### The whole file -/

namespace Writer

/-- **A written file reads back the records it was written with.** For records
with distinct headers of at most 255 bytes, in records of at most `0xFFFF` bytes,
any layout with a fanout of at least two whose pages hold payloads below `2 ^ 15`
bytes in a file below `2 ^ 32` bytes, and a password, if any, that makes a key:
the file opens with that password, and the walk of every key under the strict
policy yields exactly the records sorted by header, each with its header length,
and no failure. The file is separator-ordered. -/
theorem writeFile_reads_back (records : List WriteRecord) (layout : Layout) (password : Option String)
    (lastRecord : UInt32) (hne : records ≠ []) (hdistinct : (records.map WriteRecord.header).Nodup)
    (hsizes : ∀ r ∈ records, r.header.length ≤ 255 ∧ r.bytes.length ≤ 0xFFFF) (hfanout : 2 ≤ layout.fanout)
    (hpassword : ∀ p ∈ password, p ≠ "" ∧ ∀ c ∈ p.toList, c.toNat ≤ 0xFF)
    (hpayload : ∀ p ∈ ((Builder.new (password.bind fun p => (Key.ofPassword p).toOption)).buildTree
      records layout).pages, p.payload.length < 2 ^ 15)
    (hextent : ((Builder.new (password.bind fun p => (Key.ofPassword p).toOption)).buildTree
      records layout).extent < 2 ^ 32) :
    ∃ img, (Logging.run (Database.open (writeFile (password.bind fun p => (Key.ofPassword p).toOption)
        records layout lastRecord) password)).1 = .ok img ∧
      ∃ sorted : List WriteRecord, sorted.Perm records ∧ (sorted.map WriteRecord.header).Pairwise (· < ·) ∧
        Yield.items (Database.rawRecords img KeyRange.all .strict) = sorted.map WriteRecord.toRaw ∧
        Yield.failures (Database.rawRecords img KeyRange.all .strict) = [] ∧ img.SeparatorOrdered := by
  generalize hkey : password.bind (fun p => (Key.ofPassword p).toOption) = key at hpayload hextent
  -- the tree the build writes, and the file it opens as
  obtain ⟨hext, top, root, htop, hdepth, hroot, hcov⟩ :=
    Builder.buildTree_spec (Builder.new key) records layout hne hfanout
  have hlaid := hext.2.2 (Builder.laid_new key)
  obtain ⟨img, hopen, hold, hrootRef, hrootLen⟩ := Builder.open_finish hlaid hpayload hextent lastRecord password
    (hext.1.trans hkey.symm) fun p hp => Key.ofPassword_ok (hpassword p hp).1 (hpassword p hp).2
  refine ⟨img, hopen, _, List.mergeSort_perm records _, WriteRecord.headers_mergeSort_lt records hdistinct, ?_⟩
  -- the walk starts at the root the build wrote, whose tree reads back every record
  have htop25 := Builder.le_of_pow_lt_pages hlaid hextent hdepth
  have hroot' : img.pageTree = Walk.tree img Walk.rootBound root := by
    rw [Image.pageTree]
    apply Walk.tree_congr
    · show img.header.rootReference = _
      rw [hrootRef, hroot]
    · show img.header.rootLength = _
      rw [hrootLen, hroot]
  obtain ⟨hrecords, hintact, hsep⟩ := Walk.readsBack_tree hold top Walk.rootBound root _ [] hcov
    (by simp only [Walk.rootBound]; omega) (by omega)
    (fun r hr => by
      have := hsizes r ((List.mergeSort_perm records _).mem_iff.mp hr)
      omega)
    (by simpa using WriteRecord.headers_mergeSort_lt records hdistinct)
  rw [← hroot'] at hrecords hintact hsep
  -- with no failing page, the strict walk is the tolerant one
  obtain ⟨hitems, hfailures⟩ := Database.items_rawRecords
    (PageTree.run_policy_of_intact KeyRange.all .strict .tolerant _ hintact)
  refine ⟨?_, hfailures, hsep⟩
  rw [hitems, PageTree.found, PageTree.items_run_all]
  simp only [KeyRange.contains_all, List.filter_true]
  rw [← hrecords]
  rfl

/-- A file of two records, each in a leaf of its own under one directory page,
written without a password, reads back both. -/
theorem twoRecordFile_reads_back :
    ∃ img, (Logging.run (Database.open (writeFile none [⟨[1], [2]⟩, ⟨[3], [4, 5]⟩] ⟨1, 100, 2⟩ 0) none)).1 =
        .ok img ∧
      ∃ sorted : List WriteRecord, sorted.Perm [⟨[1], [2]⟩, ⟨[3], [4, 5]⟩] ∧
        (sorted.map WriteRecord.header).Pairwise (· < ·) ∧
        Yield.items (Database.rawRecords img KeyRange.all .strict) = sorted.map WriteRecord.toRaw ∧
        Yield.failures (Database.rawRecords img KeyRange.all .strict) = [] ∧ img.SeparatorOrdered :=
  writeFile_reads_back [⟨[1], [2]⟩, ⟨[3], [4, 5]⟩] ⟨1, 100, 2⟩ none 0 (by simp) (by decide) (by decide)
    (by decide) (by simp)
    (by
      simp only [Builder.buildTree]
      rw [List.mergeSort_of_pairwise (by decide), Builder.addLevels]
      decide)
    (by
      simp only [Builder.buildTree]
      rw [List.mergeSort_of_pairwise (by decide), Builder.addLevels]
      decide)

end Writer

end TopSpeed
