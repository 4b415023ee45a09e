import TopSpeed.Proofs.PolicyCoherence
/-!
# The scan of every record and the fetch of one table find the same definitions

A table definition is stored as blocks, each keyed by the table number, the
definition tag `0xFA` and a block number. `Database.definitions` finds them in one
scan of every record of the file: it keeps the records whose key passes the test
`Database.isDefinition`, decodes their keys, cuts the blocks into runs of one
table (`Database.groupBlocks`) and parses each run. `Database.tableDefinition`
reads only the records under the key prefix of one table's blocks.

The key test passes over every key that begins with the table-name tag `0xFE`, so
that no table name is taken for a block. A table whose number has `0xFE` as its
top byte has keys that begin with that byte too: the fetch finds its definition
and the scan never does (`Database.nameTagImage_definition_unscanned`).

For every other table the two agree (`Database.definitions_agree_with_fetch`). In
a file whose keys increase and whose tree is separator-ordered, under the
tolerant policy and under the strict one when the scan fails nowhere, the scan
yields at most one definition per table, in increasing table order, and the fetch
of a table returns the scan's definition of it, or none where the scan has none:
under the tolerant policy, a table whose blocks do not parse has neither
(`Database.truncatedBlockImage_definition_dropped`).

The proof follows the records through the scan: what gathering makes of them
(`Database.gather_tolerant`), how runs of one table fall out of blocks in table
order (`Database.groupBlocks_some`, `Database.find?_groupBlocks`), and which of
them the fetch reads (`Database.fetchedBlocks_eq_blocksOf`).
-/

namespace TopSpeed

open Yield

/-! ### Definition keys -/

/-- What a definition key that decodes holds: the table in its first four bytes,
and a block number after the tag. -/
theorem Header.definitionDecoder_ok {k : List UInt8} {h : DefinitionHeader}
    (hd : Reader.decode Header.definitionDecoder k = .ok h) :
    7 ≤ k.length ∧ h.table.toNat = Endian.big.value (k.take 4) := by
  obtain ⟨r₁, hrun⟩ := Reader.exists_run_of_decode hd
  obtain ⟨table, r₂, htp, h₁⟩ := Reader.run_bind_eq_ok hrun
  obtain ⟨-, htable, rfl⟩ := Header.run_tablePart_eq_ok htp
  obtain ⟨block, r₃, hb, hp⟩ := Reader.run_bind_eq_ok h₁
  obtain ⟨hle, -, -⟩ := Reader.run_u16_eq_ok hb
  cases hp
  exact ⟨by simpa [Reader.ofBytes] using hle, by simpa [Reader.ofBytes] using htable⟩

/-- The first byte of a table's key prefix is the top byte of the table number. -/
theorem head?_tablePrefix (t : UInt32) (tag : UInt8) :
    (tablePrefix t tag).head? = some (t >>> 24).toUInt8 := by
  simp only [tablePrefix, Endian.bytes, Endian.digitsLE, Nat.toUInt8_eq, List.reverse_cons,
    List.reverse_nil, List.nil_append, List.cons_append, List.head?_cons, Option.some.injEq]
  apply UInt8.toNat_inj.mp
  simp only [UInt8.toNat_ofNat', Nat.reducePow, dvd_refl, Nat.mod_mod_of_dvd, UInt32.toNat_toUInt8,
    UInt32.toNat_shiftRight, UInt32.reduceToNat, Nat.reduceMod]
  omega

/-- The top byte of a table number is the table-name tag exactly when it is `0xFE`. -/
theorem topByte_eq_tableName_iff (t : UInt32) : (t >>> 24).toUInt8 = Tag.tableName ↔ t >>> 24 = 0xFE := by
  constructor
  · intro he
    have hx := t.toNat_lt
    have hv := congrArg UInt8.toNat he
    apply UInt32.toNat_inj.mp
    simp only [UInt32.toNat_toUInt8, UInt32.toNat_shiftRight, UInt32.reduceToNat, Nat.reduceMod,
      Nat.reducePow, Tag.tableName, UInt8.reduceToNat] at hv ⊢
    omega
  · intro he
    rw [he]
    rfl

/-- A table number is determined by its key prefix. -/
theorem tablePrefix_inj {t t' : UInt32} {tag : UInt8} (h : tablePrefix t tag = tablePrefix t' tag) :
    t = t' := by
  have hbytes : Endian.big.bytes 4 t.toNat = Endian.big.bytes 4 t'.toNat :=
    List.append_inj_left h (by simp)
  have hv := congrArg Endian.big.value hbytes
  rw [Endian.value_bytes (lt_of_lt_of_eq t.toNat_lt (by norm_num)),
    Endian.value_bytes (lt_of_lt_of_eq t'.toNat_lt (by norm_num))] at hv
  exact UInt32.toNat_inj.mp hv

/-- A key that begins with `p` and holds `b` right after it begins with `p ++ [b]`. -/
theorem prefix_append_singleton {p k : List UInt8} {b : UInt8} (hp : p <+: k)
    (hb : k[p.length]? = some b) : p ++ [b] <+: k := by
  obtain ⟨rest, rfl⟩ := hp
  rw [List.getElem?_append_right (Nat.le_refl _), Nat.sub_self] at hb
  cases rest with
  | nil => cases hb
  | cons c rest =>
    cases hb
    exact ⟨rest, by simp⟩

/-! ### Parsed definitions -/

namespace TableDefinition

/-- A definition read for a table is of that table. -/
theorem returns_decoder (table : UInt32) : Returns (decoder table) fun d => d.table = table := by
  unfold decoder
  -- five counts and three lists are read; the table is the one asked for
  exact returns_bind (returns_any _) fun _ _ => returns_bind (returns_any _) fun _ _ =>
    returns_bind (returns_any _) fun _ _ => returns_bind (returns_any _) fun _ _ =>
    returns_bind (returns_any _) fun _ _ => returns_bind (returns_any _) fun _ _ =>
    returns_bind (returns_any _) fun _ _ => returns_bind (returns_any _) fun _ _ => returns_pure rfl

/-- **A parsed definition is of the table it was parsed for.** -/
theorem returns_ofBlocks (table : UInt32) (blocks : List (UInt16 × List UInt8)) :
    Returns (ofBlocks table blocks) fun d => d.table = table := by
  unfold ofBlocks parse
  dsimp only
  rcases hd : Reader.decode (decoder table)
      ((blocks.mergeSort fun a b => a.1 ≤ b.1).flatMap Prod.snd) with e | flat
  · exact returns_throw_bind e _ _
  · have hflat : flat.table = table := returns_decoder table _ flat _ (Prod.ext hd rfl)
    refine returns_bind ?_ fun d (h : d.table = table) =>
      returns_bind (returns_any _) fun _ _ => returns_pure h
    exact returns_pure hflat

/-- What parsing blocks returns does not depend on the lines written before. -/
theorem oblivious_ofBlocks (table : UInt32) (blocks : List (UInt16 × List UInt8)) :
    Oblivious (ofBlocks table blocks) := by
  unfold ofBlocks parse
  refine oblivious_bind ?_ fun _ => oblivious_bind (oblivious_modify _) fun _ => oblivious_pure _
  cases Reader.decode (decoder table) ((blocks.mergeSort fun a b => a.1 ≤ b.1).flatMap Prod.snd) with
  | error e => exact oblivious_throw e
  | ok flat => exact oblivious_pure flat

end TableDefinition

namespace Database

theorem isDefinition_iff (raw : RawRecord) :
    isDefinition raw = true ↔
      4 < raw.header.length ∧ raw.header.head? ≠ some Tag.tableName ∧
        raw.header[4]? = some Tag.definition := by
  simp [isDefinition, and_assoc]

theorem definitionBlock_eq_ok {raw : RawRecord} {h : DefinitionHeader} {bytes : List UInt8}
    (hd : definitionBlock raw = .ok (h, bytes)) :
    Reader.decode Header.definitionDecoder raw.header = .ok h ∧ bytes = raw.payload := by
  unfold definitionBlock at hd
  rcases hdec : Reader.decode Header.definitionDecoder raw.header with e | h' <;> rw [hdec] at hd
  · cases hd
  · cases hd
    exact ⟨rfl, rfl⟩

/-- **A block the scan decodes lies under its own table's prefix**: its key begins
with the table number it decodes to and the definition tag. -/
theorem tablePrefix_prefix_of_definitionBlock {raw : RawRecord} {h : DefinitionHeader}
    {bytes : List UInt8} (hdef : isDefinition raw = true) (hd : definitionBlock raw = .ok (h, bytes)) :
    tablePrefix h.table Tag.definition <+: raw.header := by
  obtain ⟨hlen, htable⟩ := Header.definitionDecoder_ok (definitionBlock_eq_ok hd).1
  obtain ⟨-, -, htag⟩ := (isDefinition_iff raw).mp hdef
  -- the first four bytes are the table number, big-endian
  have htake : raw.header.take 4 = Endian.big.bytes 4 h.table.toNat := by
    refine Endian.ofDigitsBE_inj (by simp only [List.length_take, Endian.length_bytes]; omega) ?_
    exact htable.symm.trans (Endian.value_bytes (lt_of_lt_of_eq h.table.toNat_lt (by norm_num))).symm
  have hbytes : Endian.big.bytes 4 h.table.toNat <+: raw.header := htake ▸ List.take_prefix 4 _
  exact prefix_append_singleton hbytes (by rw [Endian.length_bytes]; exact htag)

/-- The key test accepts every key under the prefix of a table whose top byte is
not the table-name tag. -/
theorem isDefinition_of_tablePrefix {raw : RawRecord} {t : UInt32} (ht : t >>> 24 ≠ 0xFE)
    (hp : tablePrefix t Tag.definition <+: raw.header) : isDefinition raw = true := by
  obtain ⟨rest, hrest⟩ := hp
  rw [isDefinition_iff, ← hrest]
  refine ⟨by simp only [List.length_append, length_tablePrefix]; omega, ?_, ?_⟩
  · rw [List.head?_append_of_ne_nil _ (by simp [tablePrefix]), head?_tablePrefix]
    intro he
    exact ht ((topByte_eq_tableName_iff t).mp (Option.some.inj he))
  · rw [List.getElem?_append_left (by simp)]
    simp [tablePrefix]

/-- The table of a block the scan accepts does not have the table-name tag as its
top byte. -/
theorem topByte_ne_of_definitionBlock {raw : RawRecord} {h : DefinitionHeader} {bytes : List UInt8}
    (hdef : isDefinition raw = true) (hd : definitionBlock raw = .ok (h, bytes)) :
    h.table >>> 24 ≠ 0xFE := by
  obtain ⟨rest, hrest⟩ := tablePrefix_prefix_of_definitionBlock hdef hd
  obtain ⟨-, hhead, -⟩ := (isDefinition_iff raw).mp hdef
  intro htop
  apply hhead
  rw [← hrest, List.head?_append_of_ne_nil _ (by simp [tablePrefix]), head?_tablePrefix,
    (topByte_eq_tableName_iff _).mpr htop]

/-! ### What the scan makes of the records -/

/-- The definition blocks a scan decodes from records, in their order: those the
key test accepts and whose key decodes. -/
def scannedBlocks (rs : List RawRecord) : List (DefinitionHeader × List UInt8) :=
  rs.filterMap fun raw => if isDefinition raw then (definitionBlock raw).toOption else none

/-- The blocks of one table among decoded blocks, in order, as the parser takes them. -/
def blocksOf (t : UInt32) (bs : List (DefinitionHeader × List UInt8)) : Blocks :=
  (bs.filter fun b => b.1.table == t).map fun b => (b.1.block, b.2)

/-- Decoded blocks cut into runs of one table, as the scan cuts them, given the run
being gathered: a run ends where a block of another table begins, or at the end. -/
def groupBlocks :
    Option (UInt32 × Blocks) → List (DefinitionHeader × List UInt8) → List (UInt32 × Blocks)
  | none, [] => []
  | some g, [] => [g]
  | none, (h, bytes) :: bs => groupBlocks (some (h.table, [(h.block, bytes)])) bs
  | some (t, blocks), (h, bytes) :: bs =>
    if t == h.table then groupBlocks (some (t, blocks ++ [(h.block, bytes)])) bs
    else (t, blocks) :: groupBlocks (some (h.table, [(h.block, bytes)])) bs

/-- The definition parsed from the blocks of a table, if they parse. -/
def parsedDefinition (g : UInt32 × Blocks) : Option TableDefinition :=
  (Logging.run (TableDefinition.ofBlocks g.1 g.2)).1.toOption

/-- What a unit processed on its own yields: its value, if it has one. -/
theorem items_attempt {β : Type} (policy : Policy) (unit : String) (r : Except Error β × List LogLine) :
    items (attempt policy unit r) = r.1.toOption.toList := by
  obtain ⟨res, lines⟩ := r
  cases res <;> simp [attempt, Except.toOption]

/-- A tolerant unit that does not halt yields no failure. -/
theorem failures_attempt_tolerant {β : Type} (unit : String) {r : Except Error β × List LogLine}
    (h : NoHalt r.1) : failures (attempt .tolerant unit r) = [] := by
  obtain ⟨res, lines⟩ := r
  cases res with
  | ok b => simp [attempt]
  | error e => simp [attempt, absorb_tolerant (show e.halts = false from h)]

/-- **What tolerant gathering makes of a run of records without failures**: the
definitions of the runs of one table's blocks that parse, in order, and no
failure. -/
theorem gather_tolerant :
    ∀ (cur : Option (UInt32 × Blocks)) (ys : List (Yield RawRecord)), failures ys = [] →
      items (gather .tolerant cur ys) =
          (groupBlocks cur (scannedBlocks (items ys))).filterMap parsedDefinition ∧
        failures (gather .tolerant cur ys) = []
  | none, [], _ => ⟨rfl, rfl⟩
  | some (t, bs), [], _ => by
    rw [gather, finishTable, items_attempt]
    exact ⟨rfl, failures_attempt_tolerant _ (Logging.noHalt_run (TableDefinition.neverHalts_ofBlocks t bs))⟩
  | cur, .log l :: ys, h => by
    rw [gather, items_cons_log, failures_cons_log, items_cons_log]
    exact gather_tolerant cur ys (by simpa using h)
  | cur, .failure e :: ys, h => by simp at h
  | cur, .item raw :: ys, h => by
    rw [failures_cons_item] at h
    have ih := fun cur => gather_tolerant cur ys h
    rw [items_cons_item, scannedBlocks, List.filterMap_cons, ← scannedBlocks, gather]
    by_cases hdef : isDefinition raw = true
    · rw [if_pos hdef, if_pos hdef]
      rcases hb : definitionBlock raw with e | ⟨hd, bytes⟩
      · -- a key that does not decode is a warning and gives no block
        have he := (noHalt_definitionBlock raw).halts_eq_false hb
        simp only [absorb_tolerant he, items_cons_log, failures_cons_log, Except.toOption]
        exact ih cur
      · simp only [Except.toOption]
        cases cur with
        | none => exact ih _
        | some c =>
          obtain ⟨t, bs⟩ := c
          rw [groupBlocks]
          by_cases ht : t = hd.table
          · simp only [ht, beq_self_eq_true, if_true]
            exact ih _
          · -- a block of another table finishes the table being gathered
            have hne : (t == hd.table) = false := beq_false_of_ne ht
            simp only [hne, Bool.false_eq_true, if_false, List.filterMap_cons, finishTable, items_append,
              failures_append, items_attempt]
            obtain ⟨hitems, hfail⟩ := ih (some (hd.table, [(hd.block, bytes)]))
            refine ⟨?_, ?_⟩
            · rw [hitems]
              change (parsedDefinition (t, bs)).toList ++ _ = _
              cases parsedDefinition (t, bs) <;> rfl
            · rw [hfail, failures_attempt_tolerant _
                (Logging.noHalt_run (TableDefinition.neverHalts_ofBlocks t bs))]
              rfl
    · rw [if_neg hdef, if_neg hdef]
      exact ih cur

/-! ### Runs of one table -/

/-- Decoded blocks whose tables never decrease, as a file with increasing keys
gives them. -/
def InTableOrder (bs : List (DefinitionHeader × List UInt8)) : Prop :=
  bs.Pairwise fun x y => x.1.table.toNat ≤ y.1.table.toNat

/-- **The run being gathered takes every later block of its table**: from blocks in
table order, none of them of a lower table, the run of `t` is finished with all the
blocks of `t`, and the runs of the other blocks follow. -/
theorem groupBlocks_some (t : UInt32) :
    ∀ (acc : Blocks) (bs : List (DefinitionHeader × List UInt8)), InTableOrder bs →
      (∀ x ∈ bs, t.toNat ≤ x.1.table.toNat) →
      groupBlocks (some (t, acc)) bs =
        (t, acc ++ blocksOf t bs) :: groupBlocks none (bs.filter fun x => x.1.table != t)
  | acc, [], _, _ => by simp [groupBlocks, blocksOf]
  | acc, (h, bytes) :: bs, hs, hle => by
    obtain ⟨hfirst, hrest⟩ := List.pairwise_cons.mp hs
    rw [groupBlocks]
    by_cases ht : t = h.table
    · subst ht
      rw [if_pos (beq_self_eq_true _), groupBlocks_some h.table _ bs hrest hfirst]
      simp [blocksOf]
    · -- a block of a higher table: the run of `t` has all its blocks already
      have hlt : t.toNat < h.table.toNat :=
        Nat.lt_of_le_of_ne (hle _ List.mem_cons_self) fun he => ht (UInt32.toNat_inj.mp he)
      have hother : ∀ x ∈ (h, bytes) :: bs, x.1.table ≠ t := by
        intro x hx he
        have hx' : h.table.toNat ≤ x.1.table.toNat := by
          rcases List.mem_cons.mp hx with rfl | hx
          · exact Nat.le_refl _
          · exact hfirst x hx
        rw [he] at hx'
        omega
      have hnone : blocksOf t ((h, bytes) :: bs) = [] := by
        rw [blocksOf, List.filter_eq_nil_iff.mpr fun x hx => by simpa using hother x hx, List.map_nil]
      have hall : ((h, bytes) :: bs).filter (fun x => x.1.table != t) = (h, bytes) :: bs :=
        List.filter_eq_self.mpr fun x hx => by simpa using hother x hx
      rw [if_neg (by simpa using ht), hnone, hall, List.append_nil]
      rfl

/-- The first block starts a run that takes every block of its table. -/
theorem groupBlocks_none_cons {h : DefinitionHeader} {bytes : List UInt8}
    {bs : List (DefinitionHeader × List UInt8)} (hs : InTableOrder ((h, bytes) :: bs)) :
    groupBlocks none ((h, bytes) :: bs) =
      (h.table, (h.block, bytes) :: blocksOf h.table bs) ::
        groupBlocks none (bs.filter fun x => x.1.table != h.table) := by
  obtain ⟨hfirst, hrest⟩ := List.pairwise_cons.mp hs
  rw [groupBlocks, groupBlocks_some h.table _ bs hrest hfirst, List.singleton_append]

/-- The blocks of another table than the first block's are those after it. -/
theorem blocksOf_filter_ne {t t' : UInt32} (hne : t' ≠ t) (bs : List (DefinitionHeader × List UInt8)) :
    blocksOf t (bs.filter fun x => x.1.table != t') = blocksOf t bs := by
  rw [blocksOf, blocksOf, List.filter_filter]
  congr 1
  refine List.filter_congr fun x _ => ?_
  by_cases hx : x.1.table = t
  · simp [hx, Ne.symm hne]
  · simp [hx]

/-- **Looking a table up among the runs**: from blocks in table order, a table has
a run exactly when it has a block, and its run holds all its blocks. -/
theorem find?_groupBlocks (t : UInt32) :
    ∀ bs : List (DefinitionHeader × List UInt8), InTableOrder bs →
      (groupBlocks none bs).find? (fun g => g.1 == t) =
        if blocksOf t bs = [] then none else some (t, blocksOf t bs)
  | [], _ => rfl
  | (h, bytes) :: bs, hs => by
    rw [groupBlocks_none_cons hs, List.find?_cons]
    by_cases ht : h.table = t
    · subst ht
      simp [blocksOf]
    · -- the first run is of another table; the table's run, if any, comes later
      have hfilter := find?_groupBlocks t (bs.filter fun x => x.1.table != h.table)
        ((List.pairwise_cons.mp hs).2.filter _)
      have hcons : blocksOf t ((h, bytes) :: bs) = blocksOf t bs := by
        simp [blocksOf, ht]
      rw [blocksOf_filter_ne ht] at hfilter
      simp only [beq_false_of_ne ht, hfilter, hcons]
termination_by bs _ => bs.length
decreasing_by exact Nat.lt_succ_of_le (List.length_filter_le _ _)

/-- **The runs come one per table, in increasing table order**, each of a table
that has a block. -/
theorem groupBlocks_ordered :
    ∀ bs : List (DefinitionHeader × List UInt8), InTableOrder bs →
      (groupBlocks none bs).Pairwise (fun g g' => g.1.toNat < g'.1.toNat) ∧
        ∀ g ∈ groupBlocks none bs, ∃ x ∈ bs, x.1.table = g.1
  | [], _ => ⟨List.Pairwise.nil, fun _ hg => by cases hg⟩
  | (h, bytes) :: bs, hs => by
    obtain ⟨hfirst, hrest⟩ := List.pairwise_cons.mp hs
    obtain ⟨hpair, hmem⟩ := groupBlocks_ordered (bs.filter fun x => x.1.table != h.table) (hrest.filter _)
    rw [groupBlocks_none_cons hs]
    -- every later run is of a block after the first, and of another table
    have hlater : ∀ g ∈ groupBlocks none (bs.filter fun x => x.1.table != h.table),
        ∃ x ∈ bs, x.1.table = g.1 ∧ h.table ≠ g.1 := by
      intro g hg
      obtain ⟨x, hx, hxg⟩ := hmem g hg
      obtain ⟨hxs, hne⟩ := List.mem_filter.mp hx
      exact ⟨x, hxs, hxg, fun he => by simp [he, ← hxg] at hne⟩
    refine ⟨List.pairwise_cons.mpr ⟨fun g hg => ?_, hpair⟩, fun g hg => ?_⟩
    · obtain ⟨x, hx, hxg, hne⟩ := hlater g hg
      rw [← hxg] at hne ⊢
      have hle := hfirst x hx
      have hne' : h.table.toNat ≠ x.1.table.toNat := fun he => hne (UInt32.toNat_inj.mp he)
      dsimp only at hle ⊢
      omega
    · rcases List.mem_cons.mp hg with rfl | hg
      · exact ⟨(h, bytes), List.mem_cons_self, rfl⟩
      · obtain ⟨x, hx, he, -⟩ := hlater g hg
        exact ⟨x, List.mem_cons_of_mem _ hx, he⟩
termination_by bs _ => bs.length
decreasing_by exact Nat.lt_succ_of_le (List.length_filter_le _ _)

/-! ### Parsed runs -/

/-- The definition parsed from a run is of the run's table. -/
theorem table_of_parsedDefinition {g : UInt32 × Blocks} {d : TableDefinition}
    (h : parsedDefinition g = some d) : d.table = g.1 := by
  rw [parsedDefinition, Logging.run_fst] at h
  exact TableDefinition.returns_ofBlocks g.1 g.2 #[] d _ (Prod.ext (eq_ok_of_toOption h) rfl)

/-- Looking a table up among the parsed runs of distinct tables is looking it up
among the runs and parsing the run found. -/
theorem find?_filterMap_parsedDefinition (t : UInt32) :
    ∀ gs : List (UInt32 × Blocks), gs.Pairwise (fun g g' => g.1 ≠ g'.1) →
      (gs.filterMap parsedDefinition).find? (fun d => d.table == t) =
        (gs.find? fun g => g.1 == t).bind parsedDefinition
  | [], _ => rfl
  | g :: gs, hs => by
    obtain ⟨hfirst, hrest⟩ := List.pairwise_cons.mp hs
    have ih := find?_filterMap_parsedDefinition t gs hrest
    rw [List.filterMap_cons, List.find?_cons]
    by_cases hg : g.1 = t
    · -- the first run is the table's, and no later run is
      have hnone : (gs.find? fun g => g.1 == t) = none :=
        List.find?_eq_none.mpr fun g' hg' => by simpa [← hg] using (hfirst g' hg').symm
      cases hp : parsedDefinition g with
      | none => simp [hg, ih, hnone, hp]
      | some d => simp [table_of_parsedDefinition hp, hg, hp]
    · have hb : (g.1 == t) = false := beq_false_of_ne hg
      cases hp : parsedDefinition g with
      | none => simp [hb, ih]
      | some d => simp [table_of_parsedDefinition hp, hb, ih]

/-! ### The blocks of a file -/

/-- A record the scan takes a block from passes the key test, and its key decodes
to that block. -/
theorem scanned_of_mem {raw : RawRecord} {x : DefinitionHeader × List UInt8}
    (hx : x ∈ (if isDefinition raw then (definitionBlock raw).toOption else none)) :
    isDefinition raw = true ∧ definitionBlock raw = .ok x := by
  by_cases hdef : isDefinition raw = true
  · rw [if_pos hdef] at hx
    exact ⟨hdef, eq_ok_of_toOption hx⟩
  · rw [if_neg hdef] at hx
    cases hx

/-- **A file with increasing keys gives its blocks in table order**: of two block
keys, the smaller begins with the smaller or equal table number. -/
theorem scannedBlocks_inTableOrder {img : Image} (hk : img.KeysIncreasing) :
    InTableOrder (scannedBlocks img.pageTree.records) := by
  rw [Image.KeysIncreasing, items_rawRecords_all, List.pairwise_map] at hk
  refine hk.filterMap _ fun raw₁ raw₂ hlt x₁ hx₁ x₂ hx₂ => ?_
  obtain ⟨-, hb₁⟩ := scanned_of_mem hx₁
  obtain ⟨-, hb₂⟩ := scanned_of_mem hx₂
  obtain ⟨hl₁, ht₁⟩ := Header.definitionDecoder_ok (definitionBlock_eq_ok hb₁).1
  obtain ⟨hl₂, ht₂⟩ := Header.definitionDecoder_ok (definitionBlock_eq_ok hb₂).1
  have hword := @word_le_of_lt [] raw₁.header raw₂.header 0 4 rfl List.nil_prefix List.nil_prefix hlt
    (by omega) (by omega)
  rw [List.drop_zero, List.drop_zero] at hword
  rw [ht₁, ht₂]
  exact hword

/-- The tables the scan of a file finds do not have the table-name tag as top byte. -/
theorem topByte_ne_of_mem_scannedBlocks {rs : List RawRecord} {x : DefinitionHeader × List UInt8}
    (hx : x ∈ scannedBlocks rs) : x.1.table >>> 24 ≠ 0xFE := by
  obtain ⟨raw, -, hraw⟩ := List.mem_filterMap.mp hx
  obtain ⟨hdef, hb⟩ := scanned_of_mem hraw
  exact topByte_ne_of_definitionBlock hdef hb

/-- How the fetch of a table decodes a record: the block number and the bytes of a
block key. -/
def fetchBlock (raw : RawRecord) : Except Error (UInt16 × List UInt8) :=
  (definitionBlock raw).map fun (h, bytes) => (h.block, bytes)

theorem scannedBlocks_cons (raw : RawRecord) (rs : List RawRecord) :
    scannedBlocks (raw :: rs) =
      (if isDefinition raw then (definitionBlock raw).toOption else none).toList ++ scannedBlocks rs := by
  rw [scannedBlocks, List.filterMap_cons]
  cases (if isDefinition raw then (definitionBlock raw).toOption else none) <;> rfl

theorem blocksOf_append (t : UInt32) (xs ys : List (DefinitionHeader × List UInt8)) :
    blocksOf t (xs ++ ys) = blocksOf t xs ++ blocksOf t ys := by
  simp [blocksOf]

/-- **The fetch reads the scan's blocks of its table**: of the records under the
prefix of a table whose top byte is not the table-name tag, the blocks that decode
are the scan's blocks of that table, in order. -/
theorem fetchedBlocks_eq_blocksOf {t : UInt32} (ht : t >>> 24 ≠ 0xFE) :
    ∀ rs : List RawRecord,
      (rs.filter fun raw => (tablePrefix t Tag.definition).isPrefixOf raw.header).filterMap
          (fun raw => (fetchBlock raw).toOption) =
        blocksOf t (scannedBlocks rs)
  | [] => rfl
  | raw :: rs => by
    have ih := fetchedBlocks_eq_blocksOf ht rs
    rw [scannedBlocks_cons, blocksOf_append, ← ih]
    by_cases hp : tablePrefix t Tag.definition <+: raw.header
    · -- a key under the prefix passes the key test, and decodes to the table if at all
      have hdef := isDefinition_of_tablePrefix ht hp
      simp only [List.filter_cons, List.isPrefixOf_iff_prefix.mpr hp, if_true, List.filterMap_cons,
        if_pos hdef]
      rcases hb : definitionBlock raw with e | ⟨h, bytes⟩
      · simp [fetchBlock, hb, Except.map, Except.toOption, blocksOf]
      · have htable : h.table = t := by
          have hown := tablePrefix_prefix_of_definitionBlock hdef hb
          exact tablePrefix_inj (List.IsPrefix.eq_of_length
            (List.prefix_of_prefix_length_le hown hp (by simp)) (by simp))
        simp [fetchBlock, hb, Except.map, Except.toOption, blocksOf, htable]
    · -- a key outside the prefix gives the fetch nothing, and the scan no block of the table
      have hf : (tablePrefix t Tag.definition).isPrefixOf raw.header = false := by
        rwa [Bool.eq_false_iff, ne_eq, List.isPrefixOf_iff_prefix]
      simp only [List.filter_cons, hf, Bool.false_eq_true, if_false]
      cases hx : (if isDefinition raw then (definitionBlock raw).toOption else none) with
      | none => rfl
      | some x =>
        obtain ⟨hdef, hb⟩ := scanned_of_mem hx
        have hne : x.1.table ≠ t := fun he =>
          hp (he ▸ tablePrefix_prefix_of_definitionBlock hdef hb)
        simp [blocksOf, hne]

/-! ### A strict scan that fails nowhere -/

/-- A strict unit processed on its own yields no failure only when it succeeds. -/
theorem ok_of_failures_attempt_strict {β : Type} {unit : String} {r : Except Error β × List LogLine}
    (h : failures (attempt .strict unit r) = []) : ∃ b, r.1 = .ok b := by
  obtain ⟨res, lines⟩ := r
  cases res with
  | ok b => exact ⟨b, rfl⟩
  | error e => simp [attempt] at h

/-- **A strict scan that fails nowhere** read records without failure, decoded every
key that passed the key test, and parsed every run. -/
theorem gather_strict_clean :
    ∀ (cur : Option (UInt32 × Blocks)) (ys : List (Yield RawRecord)),
      failures (gather .strict cur ys) = [] →
        failures ys = [] ∧
          (∀ raw ∈ items ys, isDefinition raw = true → ∃ v, definitionBlock raw = .ok v) ∧
          ∀ g ∈ groupBlocks cur (scannedBlocks (items ys)), (parsedDefinition g).isSome
  | none, [], _ => ⟨rfl, fun _ h => (by cases h), fun _ h => (by cases h)⟩
  | some (t, bs), [], h => by
    rw [gather, finishTable] at h
    obtain ⟨d, hd⟩ := ok_of_failures_attempt_strict h
    refine ⟨rfl, fun _ h => (by cases h), fun g hg => ?_⟩
    change g ∈ [(t, bs)] at hg
    rw [List.mem_singleton.mp hg, parsedDefinition, hd]
    rfl
  | cur, .log l :: ys, h => by
    rw [gather, failures_cons_log] at h
    simpa using gather_strict_clean cur ys h
  | cur, .failure e :: ys, h => by
    rw [gather] at h
    simp at h
  | cur, .item raw :: ys, h => by
    rw [gather] at h
    rw [items_cons_item, failures_cons_item, scannedBlocks_cons]
    by_cases hdef : isDefinition raw = true
    · rw [if_pos hdef] at h ⊢
      rcases hb : definitionBlock raw with e | ⟨hd, bytes⟩
      · -- a key that does not decode fails the strict scan
        rw [hb] at h
        simp at h
      · rw [hb] at h
        simp only [Except.toOption, Option.toList_some, List.singleton_append]
        -- the record is a block: decoded, and gathered into a run
        have hhere (hdec : ∀ r ∈ items ys, isDefinition r = true → ∃ v, definitionBlock r = .ok v) :
            ∀ r ∈ raw :: items ys, isDefinition r = true → ∃ v, definitionBlock r = .ok v := by
          intro r hr hr'
          rcases List.mem_cons.mp hr with rfl | hr
          · exact ⟨_, hb⟩
          · exact hdec r hr hr'
        cases cur with
        | none =>
          obtain ⟨hys, hdec, hparse⟩ := gather_strict_clean _ ys h
          exact ⟨hys, hhere hdec, by rw [groupBlocks]; exact hparse⟩
        | some c =>
          obtain ⟨t, bs⟩ := c
          rw [groupBlocks]
          by_cases ht : t = hd.table
          · simp only [ht, beq_self_eq_true, if_true] at h ⊢
            obtain ⟨hys, hdec, hparse⟩ := gather_strict_clean _ ys h
            exact ⟨hys, hhere hdec, hparse⟩
          · -- a block of another table finished the run of `t`, which parsed
            have hne : (t == hd.table) = false := beq_false_of_ne ht
            simp only [hne, Bool.false_eq_true, if_false, failures_append, List.append_eq_nil_iff] at h ⊢
            obtain ⟨d, hd'⟩ := ok_of_failures_attempt_strict h.1
            obtain ⟨hys, hdec, hparse⟩ := gather_strict_clean _ ys h.2
            refine ⟨hys, hhere hdec, fun g hg => ?_⟩
            rcases List.mem_cons.mp hg with rfl | hg
            · rw [parsedDefinition, hd']
              rfl
            · exact hparse g hg
    · rw [if_neg hdef] at h ⊢
      obtain ⟨hys, hdec, hparse⟩ := gather_strict_clean cur ys h
      refine ⟨hys, fun r hr hr' => ?_, hparse⟩
      rcases List.mem_cons.mp hr with rfl | hr
      · exact absurd hr' hdef
      · exact hdec r hr hr'

/-! ### The scan against the fetch -/

section Agreement

variable {img : Image} {policy : Policy}

/-- Under the tolerant policy, and under the strict one when it fails nowhere, the
scan is the tolerant scan. -/
theorem definitions_eq_tolerant (hclean : policy = .tolerant ∨ failures (definitions img policy) = []) :
    definitions img policy = definitions img .tolerant := by
  cases policy with
  | tolerant => rfl
  | strict =>
    have h := hclean.resolve_left (by decide)
    exact (definitions_policyCoherent img).eq_of_halts fun e he => by
      rw [h] at he
      cases he

/-- **The definitions the scan of a file yields**: those of the runs of one table's
blocks that parse, in order. -/
theorem items_definitions (hclean : policy = .tolerant ∨ failures (definitions img policy) = []) :
    items (definitions img policy) =
      (groupBlocks none (scannedBlocks img.pageTree.records)).filterMap parsedDefinition := by
  obtain ⟨hitems, hfail⟩ := gather_tolerant none _ (failures_rawRecords_tolerant img KeyRange.all)
  rw [definitions_eq_tolerant hclean, definitions, untilFailure_of_failures_eq_nil hfail, hitems,
    items_rawRecords_all]

/-- A strict scan that fails nowhere walked every key without failure, decoded every
block key of the file and parsed every run. -/
theorem strict_scan_clean (h : failures (definitions img .strict) = []) :
    failures (Walk.run img KeyRange.all .strict) = [] ∧
      (∀ raw ∈ img.pageTree.records, isDefinition raw = true → ∃ v, definitionBlock raw = .ok v) ∧
      ∀ g ∈ groupBlocks none (scannedBlocks img.pageTree.records), (parsedDefinition g).isSome := by
  rw [definitions, failures_untilFailure, List.take_eq_nil_iff] at h
  obtain ⟨hraws, hdec, hparse⟩ := gather_strict_clean none _ (h.resolve_left (by decide))
  have hwalk := (failures_of_bind_eq_nil hraws).1
  -- a walk without failures finds what the tolerant walk finds
  have hsame : items (rawRecords img KeyRange.all .strict) = img.pageTree.records := by
    rw [(items_rawRecords (run_tolerant_of_clean (Or.inr hwalk) KeyRange.all)).1, ← items_rawRecords_all,
      (items_rawRecords rfl).1]
  rw [hsame] at hdec hparse
  exact ⟨hwalk, hdec, hparse⟩

/-- Parsing a table's blocks, a failure absorbed: the parsed definition, under the
tolerant policy or when the blocks parse. -/
theorem run_absorb_ofBlocks {t : UInt32} {blocks : Blocks} (unit : String)
    (hparse : policy = .tolerant ∨ (parsedDefinition (t, blocks)).isSome) :
    (Logging.run (Logging.absorb policy unit (some <$> TableDefinition.ofBlocks t blocks) none)).1 =
      .ok (parsedDefinition (t, blocks)) := by
  have hmap : ((ExceptT.run (some <$> TableDefinition.ofBlocks t blocks)).run #[]).1 =
      (Logging.run (TableDefinition.ofBlocks t blocks)).1.map some := by
    rw [run_map_run, Logging.run_fst]
  rw [Logging.run_fst, parsedDefinition]
  rcases hp : (Logging.run (TableDefinition.ofBlocks t blocks)).1 with e | d
  · rw [hp] at hmap
    rcases hparse with rfl | hsome
    · -- under the tolerant policy a failing parse gives no definition
      exact run_absorb_tolerant unit none hmap
        ((Logging.noHalt_run (TableDefinition.neverHalts_ofBlocks t blocks)).halts_eq_false hp)
    · rw [parsedDefinition, hp] at hsome
      cases hsome
  · rw [hp] at hmap
    exact run_absorb_ok policy unit none hmap

/-- **What the fetch of a table returns**, in a separator-ordered file, for a table
whose top byte is not the table-name tag, when its blocks are read without failure:
nothing if the scan has no block of the table, otherwise what the blocks parse to,
a failing parse being absorbed as the policy says. -/
theorem run_tableDefinition (hsep : img.SeparatorOrdered) {t : UInt32} (ht : t >>> 24 ≠ 0xFE)
    (hwalk : policy = .tolerant ∨ failures (Walk.run img KeyRange.all .strict) = [])
    (hrecords : failures (records img ⟨tablePrefix t Tag.definition⟩ policy fetchBlock) = [])
    (hparse : policy = .tolerant ∨ (blocksOf t (scannedBlocks img.pageTree.records) ≠ [] →
      (parsedDefinition (t, blocksOf t (scannedBlocks img.pageTree.records))).isSome)) :
    (Logging.run (tableDefinition img t policy)).1 =
      .ok (if blocksOf t (scannedBlocks img.pageTree.records) = [] then none
        else parsedDefinition (t, blocksOf t (scannedBlocks img.pageTree.records))) := by
  -- the blocks the fetch collects are the scan's blocks of the table
  have hblocks : items (records img ⟨tablePrefix t Tag.definition⟩ policy fetchBlock) =
      blocksOf t (scannedBlocks img.pageTree.records) := by
    rw [records, (items_decodeEach_of_clean policy fetchBlock hrecords).1,
      items_rawRecords_startsWith hsep (run_tolerant_of_clean hwalk _), fetchedBlocks_eq_blocksOf ht]
  rw [Logging.run_fst, tableDefinition]
  show ((ExceptT.run (collect (records img ⟨tablePrefix t Tag.definition⟩ policy fetchBlock) >>= _)).run
    #[]).1 = _
  rw [run_bind_run]
  rcases hc : (ExceptT.run (collect (records img ⟨tablePrefix t Tag.definition⟩ policy fetchBlock))).run
    #[] with ⟨r, s'⟩
  have hr := run_collect hrecords #[]
  rw [hc, hblocks] at hr
  subst hr
  dsimp only
  by_cases hnil : blocksOf t (scannedBlocks img.pageTree.records) = []
  · rw [hnil]
    rfl
  · rw [if_neg hnil, if_neg (by simpa using hnil)]
    -- the parse runs after the lines of the walk, with the same outcome
    rw [Logging.oblivious_absorb _ _ _ (oblivious_map _ (TableDefinition.oblivious_ofBlocks _ _)) s' #[],
      ← Logging.run_fst]
    exact run_absorb_ofBlocks _ (hparse.imp id fun h => h hnil)

section Scan

variable (hk : img.KeysIncreasing) (hclean : policy = .tolerant ∨ failures (definitions img policy) = [])
include hk hclean

/-- The scan yields its definitions in strictly increasing table order. -/
theorem definitions_tables_increasing :
    (items (definitions img policy)).Pairwise (fun d d' => d.table < d'.table) := by
  rw [items_definitions hclean]
  refine (groupBlocks_ordered _ (scannedBlocks_inTableOrder hk)).1.filterMap _
    fun g g' hlt d hd d' hd' => ?_
  rw [UInt32.lt_iff_toNat_lt, table_of_parsedDefinition hd, table_of_parsedDefinition hd']
  exact hlt

/-- The scan yields no definition of a table whose top byte is the table-name tag. -/
theorem topByte_ne_of_mem_definitions {d : TableDefinition} (hd : d ∈ items (definitions img policy)) :
    d.table >>> 24 ≠ 0xFE := by
  rw [items_definitions hclean] at hd
  obtain ⟨g, hg, hpd⟩ := List.mem_filterMap.mp hd
  obtain ⟨x, hx, hxg⟩ := (groupBlocks_ordered _ (scannedBlocks_inTableOrder hk)).2 g hg
  rw [table_of_parsedDefinition hpd, ← hxg]
  exact topByte_ne_of_mem_scannedBlocks hx

/-- **The scan's definition of a table** is what the table's blocks parse to, and
there is none if the table has no block. -/
theorem find?_definitions (t : UInt32) :
    (items (definitions img policy)).find? (fun d => d.table == t) =
      if blocksOf t (scannedBlocks img.pageTree.records) = [] then none
      else parsedDefinition (t, blocksOf t (scannedBlocks img.pageTree.records)) := by
  have hgroups := groupBlocks_ordered _ (scannedBlocks_inTableOrder hk)
  have hdistinct := hgroups.1.imp fun {g g'} hlt (he : g.1 = g'.1) => by
    rw [he] at hlt
    exact Nat.lt_irrefl _ hlt
  rw [items_definitions hclean, find?_filterMap_parsedDefinition t _ hdistinct,
    find?_groupBlocks t _ (scannedBlocks_inTableOrder hk)]
  split <;> rfl

/-- **The fetch of a table finds the scan's definition of it**, for a table whose
top byte is not the table-name tag. -/
theorem run_tableDefinition_eq_find? (hsep : img.SeparatorOrdered) {t : UInt32} (ht : t >>> 24 ≠ 0xFE) :
    (Logging.run (tableDefinition img t policy)).1 =
      .ok ((items (definitions img policy)).find? fun d => d.table == t) := by
  rw [find?_definitions hk hclean t]
  cases policy with
  | tolerant =>
    refine run_tableDefinition hsep ht (Or.inl rfl) ?_ (Or.inl rfl)
    exact failures_decodeEach_tolerant (failures_rawRecords_tolerant img _)
      fun raw => noHalt_map _ (noHalt_definitionBlock raw)
  | strict =>
    obtain ⟨hwalk, hdec, hparse⟩ := strict_scan_clean (hclean.resolve_left (by decide))
    refine run_tableDefinition hsep ht (Or.inr hwalk) ?_ (Or.inr fun hne => ?_)
    · -- every key under the table's prefix passes the key test, so it decodes
      refine failures_decodeEach_of_decode _
        (items_rawRecords (run_tolerant_of_clean (Or.inr hwalk) _)).2 fun raw hraw => ?_
      rw [items_rawRecords_startsWith hsep (run_tolerant_of_clean (Or.inr hwalk) _)] at hraw
      obtain ⟨hmem, hp⟩ := List.mem_filter.mp hraw
      obtain ⟨v, hv⟩ := hdec raw hmem (isDefinition_of_tablePrefix ht (List.isPrefixOf_iff_prefix.mp hp))
      exact ⟨_, by rw [fetchBlock, hv]; rfl⟩
    · -- the table has a run, and the strict scan parsed every run
      have hfind := find?_groupBlocks t _ (scannedBlocks_inTableOrder hk)
      rw [if_neg hne] at hfind
      exact hparse _ (List.mem_of_find?_eq_some hfind)

end Scan

/-- Under the strict policy, a scan that fails nowhere yields the definition of the
table of every record its key test accepts. -/
theorem exists_definition_of_isDefinition (hk : img.KeysIncreasing)
    (hclean : failures (definitions img .strict) = []) {raw : RawRecord} (hraw : raw ∈ img.pageTree.records)
    (hdef : isDefinition raw = true) :
    ∃ d ∈ items (definitions img .strict), tablePrefix d.table Tag.definition <+: raw.header := by
  obtain ⟨-, hdec, hparse⟩ := strict_scan_clean hclean
  obtain ⟨⟨h, bytes⟩, hb⟩ := hdec raw hraw hdef
  -- the record's block is a block of its table, which therefore has a run
  have hx : (h, bytes) ∈ scannedBlocks img.pageTree.records :=
    List.mem_filterMap.mpr ⟨raw, hraw, by rw [if_pos hdef, hb]; rfl⟩
  have hne : blocksOf h.table (scannedBlocks img.pageTree.records) ≠ [] := by
    rw [blocksOf, ne_eq, List.map_eq_nil_iff, List.filter_eq_nil_iff, not_forall]
    exact ⟨(h, bytes), by simp [hx]⟩
  have hfind := find?_groupBlocks h.table _ (scannedBlocks_inTableOrder hk)
  rw [if_neg hne] at hfind
  obtain ⟨d, hd⟩ := Option.isSome_iff_exists.mp (hparse _ (List.mem_of_find?_eq_some hfind))
  have hfd := find?_definitions hk (Or.inr hclean) h.table
  rw [if_neg hne, hd] at hfd
  refine ⟨d, List.mem_of_find?_eq_some hfd, ?_⟩
  rw [table_of_parsedDefinition hd]
  exact tablePrefix_prefix_of_definitionBlock hdef hb

/-- **The scan of every record agrees with the fetch of each table.** In a file whose
keys increase and whose tree is separator-ordered, under the tolerant policy and
under the strict one when the scan fails nowhere: the scan yields at most one
definition per table, in increasing table order, and none of a table whose top
byte is the table-name tag `0xFE`; for every other table the fetch returns, without
failure, the scan's definition of the table, or none where the scan has none; and
under the strict policy every record that the key test accepts has its table's
definition among those the scan yields. -/
theorem definitions_agree_with_fetch (img : Image) (policy : Policy) (hsep : img.SeparatorOrdered)
    (hk : img.KeysIncreasing) (hclean : policy = .tolerant ∨ failures (definitions img policy) = []) :
    (items (definitions img policy)).Pairwise (fun d d' => d.table < d'.table) ∧
      (∀ d ∈ items (definitions img policy), d.table >>> 24 ≠ 0xFE) ∧
      (∀ t : UInt32, t >>> 24 ≠ 0xFE →
        (Logging.run (tableDefinition img t policy)).1 =
          .ok ((items (definitions img policy)).find? fun d => d.table == t)) ∧
      (policy = .strict → ∀ raw ∈ img.pageTree.records, isDefinition raw = true →
        ∃ d ∈ items (definitions img policy), tablePrefix d.table Tag.definition <+: raw.header) := by
  refine ⟨definitions_tables_increasing hk hclean, fun d hd => topByte_ne_of_mem_definitions hk hclean hd,
    fun t ht => run_tableDefinition_eq_find? hk hclean hsep ht, ?_⟩
  rintro rfl raw hraw hdef
  exact exists_definition_of_isDefinition hk (hclean.resolve_left (by decide)) hraw hdef

end Agreement

/-! ### A table the scan passes over -/

/-- A file of one leaf page holding two definition blocks, of tables `1` and
`0xFE000001`, each a definition of driver version 1 and record length 4 with no
field, memo or index. The key of the second begins with the table-name tag. -/
def nameTagImage : Image where
  bytes := ⟨⟨[0x00, 0x00, 0x00, 0x00, 0x00, 0x02, 0x39, 0x02, 0x00, 0x00, 0x39, 0x02, 0x00, 0x00,
      0x74, 0x4F, 0x70, 0x53, 0x00, 0x00, 0x00, 0x00, 0x00, 0x00, 0x00, 0x00, 0x00, 0x00, 0x00, 0x00,
      0x00, 0x00, 0x39, 0x00] ++ List.replicate (0x200 - 0x22) 0 ++
    [0x00, 0x02, 0x00, 0x00, 0x39, 0x00, 0x39, 0x00, 0x2C, 0x00, 0x02, 0x00, 0x00,
      0xC0, 0x11, 0x00, 0x07, 0x00, 0x00, 0x00, 0x00, 0x01, 0xFA, 0x00, 0x00, 0x01, 0x00, 0x04, 0x00,
      0x00, 0x00, 0x00, 0x00, 0x00, 0x00, 0xC0, 0x11, 0x00, 0x07, 0x00, 0xFE, 0x00, 0x00, 0x01, 0xFA,
      0x00, 0x00, 0x01, 0x00, 0x04, 0x00, 0x00, 0x00, 0x00, 0x00, 0x00, 0x00]⟩⟩
  header := ⟨0x239, 0, 0, 0, 0, 0x39⟩
  key := none

theorem nameTagImage_pageTree :
    nameTagImage.pageTree =
      .leaf ((Logging.run (nameTagImage.readPage 0 0x39)).2 ++
          (Leaf.parse [0xC0, 0x11, 0x00, 0x07, 0x00, 0x00, 0x00, 0x00, 0x01, 0xFA, 0x00, 0x00, 0x01, 0x00, 0x04, 0x00,
      0x00, 0x00, 0x00, 0x00, 0x00, 0x00, 0xC0, 0x11, 0x00, 0x07, 0x00, 0xFE, 0x00, 0x00, 0x01, 0xFA,
      0x00, 0x00, 0x01, 0x00, 0x04, 0x00, 0x00, 0x00, 0x00, 0x00, 0x00, 0x00] 2).2)
        ⟨0x200, [⟨[0, 0, 0, 1, 0xFA, 0, 0, 1, 0, 4, 0, 0, 0, 0, 0, 0, 0], 7⟩,
          ⟨[0xFE, 0, 0, 1, 0xFA, 0, 0, 1, 0, 4, 0, 0, 0, 0, 0, 0, 0], 7⟩]⟩ :=
  Walk.tree_of_leaf ⟨0x200, ⟨0x200, 0x39, 0x39, 0x2C, 2, 0⟩, [0xC0, 0x11, 0x00, 0x07, 0x00, 0x00, 0x00, 0x00, 0x01, 0xFA, 0x00, 0x00, 0x01, 0x00, 0x04, 0x00,
      0x00, 0x00, 0x00, 0x00, 0x00, 0x00, 0xC0, 0x11, 0x00, 0x07, 0x00, 0xFE, 0x00, 0x00, 0x01, 0xFA,
      0x00, 0x00, 0x01, 0x00, 0x04, 0x00, 0x00, 0x00, 0x00, 0x00, 0x00, 0x00]⟩ _
    (by decide +kernel) (by decide) rfl (by decide +kernel)

theorem nameTagImage_separatorOrdered : nameTagImage.SeparatorOrdered := by
  rw [Image.SeparatorOrdered, nameTagImage_pageTree]
  trivial

theorem nameTagImage_keysIncreasing : nameTagImage.KeysIncreasing := by
  rw [Image.KeysIncreasing, items_rawRecords_all, nameTagImage_pageTree]
  decide

/-- The strict scan of `nameTagImage` fails nowhere and yields the definition of
table 1 alone. -/
theorem definitions_nameTagImage :
    failures (definitions nameTagImage .strict) = [] ∧
      (items (definitions nameTagImage .strict)).map TableDefinition.table = [1] := by
  simp only [definitions, rawRecords, Walk.run_eq_pageTree, nameTagImage_pageTree]
  decide +kernel

/-- The fetch of table `0xFE000001` in `nameTagImage` finds a definition of it. -/
theorem tableDefinition_nameTagImage :
    ((Logging.run (tableDefinition nameTagImage 0xFE000001 .strict)).1.toOption.map
      (Option.map TableDefinition.table)) = some (some 0xFE000001) := by
  simp only [tableDefinition, records, rawRecords, Walk.run_eq_pageTree, nameTagImage_pageTree]
  decide +kernel

/-- **The scan passes over a table whose top byte is the table-name tag.** In
`nameTagImage`, whose keys increase and whose tree is separator-ordered, the strict
scan fails nowhere and yields the definition of table 1 alone, while table
`0xFE000001` has a definition block, and the fetch of it finds its definition. -/
theorem nameTagImage_definition_unscanned :
    nameTagImage.SeparatorOrdered ∧ nameTagImage.KeysIncreasing ∧
      failures (definitions nameTagImage .strict) = [] ∧
      (items (definitions nameTagImage .strict)).map TableDefinition.table = [1] ∧
      (∃ raw ∈ nameTagImage.pageTree.records, tablePrefix 0xFE000001 Tag.definition <+: raw.header) ∧
      ∃ d, (Logging.run (tableDefinition nameTagImage 0xFE000001 .strict)).1 = .ok (some d) ∧
        d.table = 0xFE000001 := by
  refine ⟨nameTagImage_separatorOrdered, nameTagImage_keysIncreasing, definitions_nameTagImage.1,
    definitions_nameTagImage.2, ?_, ?_⟩
  · rw [nameTagImage_pageTree]
    exact ⟨_, List.mem_cons_of_mem _ List.mem_cons_self, by decide⟩
  · have h := tableDefinition_nameTagImage
    rcases hr : (Logging.run (tableDefinition nameTagImage 0xFE000001 .strict)).1 with e | _ | d
    all_goals rw [hr] at h
    · cases h
    · cases h
    · exact ⟨d, rfl, by simpa [Except.toOption] using h⟩

/-- On `nameTagImage` the scan and the fetch agree under the strict policy, table 1
included, for every table whose top byte is not the table-name tag. -/
theorem nameTagImage_definitions_agree :
    nameTagImage.SeparatorOrdered ∧ nameTagImage.KeysIncreasing ∧
      failures (definitions nameTagImage .strict) = [] ∧
      (items (definitions nameTagImage .strict)).Pairwise (fun d d' => d.table < d'.table) ∧
      (∀ d ∈ items (definitions nameTagImage .strict), d.table >>> 24 ≠ 0xFE) ∧
      (∀ t : UInt32, t >>> 24 ≠ 0xFE →
        (Logging.run (tableDefinition nameTagImage t .strict)).1 =
          .ok ((items (definitions nameTagImage .strict)).find? fun d => d.table == t)) ∧
      (Policy.strict = .strict → ∀ raw ∈ nameTagImage.pageTree.records, isDefinition raw = true →
        ∃ d ∈ items (definitions nameTagImage .strict), tablePrefix d.table Tag.definition <+: raw.header) :=
  ⟨nameTagImage_separatorOrdered, nameTagImage_keysIncreasing, definitions_nameTagImage.1,
    definitions_agree_with_fetch nameTagImage .strict nameTagImage_separatorOrdered
      nameTagImage_keysIncreasing (Or.inr definitions_nameTagImage.1)⟩

/-! ### A table the tolerant scan drops -/

/-- A file of one leaf page holding one definition block, of table `1`, cut short
after the driver version: the block is a definition block by its key, and does not
parse. -/
def truncatedBlockImage : Image where
  bytes := ⟨⟨[0x00, 0x00, 0x00, 0x00, 0x00, 0x02, 0x1B, 0x02, 0x00, 0x00, 0x1B, 0x02, 0x00, 0x00,
      0x74, 0x4F, 0x70, 0x53, 0x00, 0x00, 0x00, 0x00, 0x00, 0x00, 0x00, 0x00, 0x00, 0x00, 0x00, 0x00,
      0x00, 0x00, 0x1B, 0x00] ++ List.replicate (0x200 - 0x22) 0 ++
    [0x00, 0x02, 0x00, 0x00, 0x1B, 0x00, 0x1B, 0x00, 0x0E, 0x00, 0x01, 0x00, 0x00,
      0xC0, 0x09, 0x00, 0x07, 0x00, 0x00, 0x00, 0x00, 0x01, 0xFA, 0x00, 0x00, 0x01, 0x00]⟩⟩
  header := ⟨0x21B, 0, 0, 0, 0, 0x1B⟩
  key := none

theorem truncatedBlockImage_pageTree :
    truncatedBlockImage.pageTree =
      .leaf ((Logging.run (truncatedBlockImage.readPage 0 0x1B)).2 ++
          (Leaf.parse [0xC0, 0x09, 0x00, 0x07, 0x00, 0x00, 0x00, 0x00, 0x01, 0xFA, 0x00, 0x00, 0x01, 0x00] 1).2)
        ⟨0x200, [⟨[0, 0, 0, 1, 0xFA, 0, 0, 1, 0], 7⟩]⟩ :=
  Walk.tree_of_leaf ⟨0x200, ⟨0x200, 0x1B, 0x1B, 0x0E, 1, 0⟩,
    [0xC0, 0x09, 0x00, 0x07, 0x00, 0x00, 0x00, 0x00, 0x01, 0xFA, 0x00, 0x00, 0x01, 0x00]⟩ _
    (by decide +kernel) (by decide) rfl (by decide +kernel)

theorem truncatedBlockImage_separatorOrdered : truncatedBlockImage.SeparatorOrdered := by
  rw [Image.SeparatorOrdered, truncatedBlockImage_pageTree]
  trivial

theorem truncatedBlockImage_keysIncreasing : truncatedBlockImage.KeysIncreasing := by
  rw [Image.KeysIncreasing, items_rawRecords_all, truncatedBlockImage_pageTree]
  decide

/-- **Under the tolerant policy a table whose blocks do not parse has no
definition.** `truncatedBlockImage`, whose keys increase and whose tree is
separator-ordered, holds a record that the key test accepts as a definition block
of table 1; the tolerant scan yields no definition at all, and the tolerant fetch of
table 1 returns none without failure. -/
theorem truncatedBlockImage_definition_dropped :
    truncatedBlockImage.SeparatorOrdered ∧ truncatedBlockImage.KeysIncreasing ∧
      (∃ raw ∈ truncatedBlockImage.pageTree.records,
        isDefinition raw = true ∧ tablePrefix 1 Tag.definition <+: raw.header) ∧
      items (definitions truncatedBlockImage .tolerant) = [] ∧
      (Logging.run (tableDefinition truncatedBlockImage 1 .tolerant)).1 = .ok none := by
  refine ⟨truncatedBlockImage_separatorOrdered, truncatedBlockImage_keysIncreasing, ?_, ?_, ?_⟩
  · rw [truncatedBlockImage_pageTree]
    exact ⟨_, List.mem_cons_self, by decide, by decide⟩
  · simp only [definitions, rawRecords, Walk.run_eq_pageTree, truncatedBlockImage_pageTree]
    decide +kernel
  · -- the fetch finds the block, and the tolerant policy absorbs its parse failure
    have h : ((Logging.run (tableDefinition truncatedBlockImage 1 .tolerant)).1.toOption.map
        Option.isSome) = some false := by
      simp only [tableDefinition, records, rawRecords, Walk.run_eq_pageTree, truncatedBlockImage_pageTree]
      decide +kernel
    rcases hr : (Logging.run (tableDefinition truncatedBlockImage 1 .tolerant)).1 with e | _ | d
    · rw [hr] at h
      cases h
    · rfl
    · rw [hr] at h
      cases h

end Database

end TopSpeed
