import TopSpeed.Proofs.StrictRuns
import TopSpeed.Proofs.MemoFetch
import TopSpeed.Database.Definitions
/-!
# Strict runs begin tolerant runs

Every enumeration of a file takes a policy, and the two runs it makes of one
file are tied together: `PolicyCoherent s t` says what the strict run `s` and
the tolerant run `t` have in common.

* The tolerant run hands no error on: it fails only where the program halts,
  which is not an error a caller receives but the end of the program.
* The strict run hands on its items, then at most one failure, and nothing
  after it.
* The items of the strict run begin the items of the tolerant run, and they are
  all of them when the strict run fails only where the program halts.

`enumerations_policyCoherent` proves this of every enumeration: table names,
table definitions, data records, memos, metadata, index entries and rows; and it
proves that looking up one table's definition, or joining the tables with their
names, never fails under the tolerant policy.

## The argument

Each enumeration is built from the walk by a few steps, and each step keeps
`Yield.StrictOf` (module `TopSpeed.Proofs.StrictRuns`): decoding record by record,
gathering definition blocks table by table (`Database.gather_strictOf`), cutting
memo fragments into memos (`Database.memoGroups_strictOf`), and the merge of rows
with memos, where a memo that fails while a row is being assembled fails that
row (`Database.joinMemos_joinedAlike`, `Database.joinRows_strictOf`). Every
enumeration is cut at its first failure, so `PolicyCoherent.of_strictOf` turns
the relation into the four facts above.
-/

namespace TopSpeed

open Yield

/-- What the strict run `s` and the tolerant run `t` of one enumeration have in
common. A failure that halts stands for the program stopping, not for an error
handed to the caller. -/
structure PolicyCoherent {α : Type} (s t : List (Yield α)) : Prop where
  /-- The tolerant run fails only where the program halts. -/
  tolerant_halts : ∀ e ∈ failures t, e.halts = true
  /-- The strict run hands on its items, then its failure if it has one. -/
  strict_outcomes : outcomes s = (items s).map .ok ++ (failures s).map .error
  /-- The strict run fails at most once. -/
  strict_failures : (failures s).length ≤ 1
  /-- The items of the strict run begin those of the tolerant run. -/
  prefix_items : items s <+: items t
  /-- A strict run that fails only where the program halts is the tolerant run. -/
  eq_of_halts : (∀ e ∈ failures s, e.halts = true) → s = t

namespace PolicyCoherent

variable {α : Type}

/-- Two related runs, each cut at its first failure, are coherent when the tolerant
one fails only where the program halts. -/
theorem of_strictOf {s t : List (Yield α)} (h : StrictOf s t) (hs : untilFailure s = s)
    (ht : untilFailure t = t) (htol : ∀ e ∈ failures t, e.halts = true) :
    PolicyCoherent s t where
  tolerant_halts := htol
  strict_outcomes := outcomes_of_untilFailure hs
  strict_failures := length_failures_le_one hs
  prefix_items := by
    rw [← hs]
    exact h.prefix_items
  eq_of_halts hh := by
    rw [← hs, ← ht]
    exact h.eq_of_halts (by rwa [hs])

/-- The results of a call that returns an enumeration, one for each policy: the
same refusal, or two coherent runs. -/
def result : Except Error (List (Yield α)) → Except Error (List (Yield α)) → Prop
  | .ok s, .ok t => PolicyCoherent s t
  | .error e, .error e' => e = e'
  | _, _ => False

end PolicyCoherent

/-! ### Computations that always succeed -/

section Succeeds

variable {σ α β : Type}

/-- From every state, the computation returns a value. -/
def Succeeds (m : ExceptT Error (StateM σ) α) : Prop :=
  ∀ s, ∃ a s', (m.run).run s = (.ok a, s')

theorem succeeds_pure (a : α) : Succeeds (pure a : ExceptT Error (StateM σ) α) :=
  fun s => ⟨a, s, rfl⟩

theorem succeeds_modify (f : σ → σ) : Succeeds (modify f : ExceptT Error (StateM σ) PUnit) :=
  fun s => ⟨PUnit.unit, f s, rfl⟩

theorem succeeds_bind {m : ExceptT Error (StateM σ) α} {f : α → ExceptT Error (StateM σ) β}
    (hm : Succeeds m) (hf : ∀ a, Succeeds (f a)) : Succeeds (m >>= f) := by
  intro s
  obtain ⟨a, s', h⟩ := hm s
  rw [run_bind_run, h]
  exact hf a s'

/-- A logging computation that always succeeds returns a value when run. -/
theorem Succeeds.run_ok {m : Logging α} (hm : Succeeds m) : ∃ a, (Logging.run m).1 = .ok a := by
  obtain ⟨a, s', h⟩ := hm #[]
  exact ⟨a, by rw [Database.Logging.run_fst, h]⟩

end Succeeds

/-- Under the tolerant policy, absorbing the failures of a computation that never
halts always succeeds. -/
theorem Logging.succeeds_absorb_tolerant {α : Type} {m : Logging α} (hm : NeverHalts m)
    (unit : String) (fallback : α) : Succeeds (Logging.absorb .tolerant unit m fallback) := by
  intro s
  rw [Logging.absorb, run_tryCatch_run]
  rcases hr : (ExceptT.run m).run s with ⟨_ | a, s'⟩
  · simp only [(hm s).halts_eq_false (congrArg Prod.fst hr)]
    exact ⟨fallback, _, rfl⟩
  · exact ⟨a, s', rfl⟩

/-- Collecting a run without failures succeeds. -/
theorem Yield.succeeds_collect {α : Type} {ys : List (Yield α)} (h : failures ys = []) :
    Succeeds (collect ys) := by
  intro s
  have hc := Database.run_collect h s
  rcases hr : (ExceptT.run (collect ys)).run s with ⟨r, s'⟩
  rw [hr] at hc
  cases hc
  exact ⟨_, s', rfl⟩

/-! ### Table names and definitions never halt -/

section NeverHalts

theorem Decoder.neverHalts_rest : NeverHalts Decoder.rest :=
  neverHalts_bind neverHalts_get fun _ => neverHalts_bind (neverHalts_set _) fun _ => neverHalts_pure _

theorem Decoder.neverHalts_zstring : NeverHalts Decoder.zstring := by
  refine neverHalts_bind neverHalts_get fun _ => ?_
  exact neverHalts_ite (neverHalts_bind (neverHalts_set _) fun _ => neverHalts_pure _)
    (neverHalts_throw rfl)

theorem Header.neverHalts_tableNameDecoder : NeverHalts Header.tableNameDecoder := by
  refine neverHalts_bind Decoder.neverHalts_u8 fun _ => ?_
  dsimp only
  exact neverHalts_ite (neverHalts_throw_bind (halts_formatMismatch _) _)
    (neverHalts_bind Decoder.neverHalts_rest fun _ => neverHalts_pure _)

theorem Header.neverHalts_definitionDecoder : NeverHalts Header.definitionDecoder :=
  neverHalts_bind (neverHalts_tablePart _ _) fun _ =>
    neverHalts_bind (Decoder.neverHalts_u16 _) fun _ => neverHalts_pure _

theorem TableNameRecord.noHalt_decode (raw : RawRecord) : NoHalt (TableNameRecord.decode raw) :=
  noHalt_bind (Reader.noHalt_decode Header.neverHalts_tableNameDecoder _) fun _ =>
    noHalt_bind (Reader.noHalt_decode (Decoder.neverHalts_u32 _) _) fun _ => trivial

theorem Field.neverHalts_decode : NeverHalts Field.decode := by
  refine neverHalts_bind Decoder.neverHalts_u8 fun code => ?_
  refine neverHalts_bind (Decoder.neverHalts_u16 _) fun _ => ?_
  refine neverHalts_bind Decoder.neverHalts_zstring fun _ => ?_
  -- an unknown type code fails with a format error; every other path only reads
  split
  · refine neverHalts_bind (Decoder.neverHalts_u16 _) fun _ => ?_
    refine neverHalts_bind (Decoder.neverHalts_u16 _) fun _ => ?_
    refine neverHalts_bind (Decoder.neverHalts_u16 _) fun _ => ?_
    refine neverHalts_bind (Decoder.neverHalts_u16 _) fun _ => ?_
    dsimp only
    refine neverHalts_ite ?_ (neverHalts_ite ?_ (neverHalts_pure _))
    · exact neverHalts_bind Decoder.neverHalts_u8 fun _ =>
        neverHalts_bind Decoder.neverHalts_u8 fun _ => neverHalts_pure _
    · refine neverHalts_bind (Decoder.neverHalts_u16 _) fun _ => ?_
      refine neverHalts_bind Decoder.neverHalts_zstring fun _ => ?_
      exact neverHalts_ite (neverHalts_bind Decoder.neverHalts_u8 fun _ => neverHalts_pure _)
        (neverHalts_pure _)
  · exact neverHalts_throw (halts_formatMismatch _)

namespace TableDefinition

theorem neverHalts_externalFile (what : String) : NeverHalts (externalFile what) := by
  refine neverHalts_bind Decoder.neverHalts_zstring fun _ => ?_
  refine neverHalts_ite ?_ (neverHalts_pure _)
  refine neverHalts_bind Decoder.neverHalts_u8 fun _ => ?_
  exact neverHalts_ite (neverHalts_throw_bind (halts_formatMismatch _) _) (neverHalts_pure _)

theorem neverHalts_memoDecoder (index : Nat) : NeverHalts (memoDecoder index) :=
  neverHalts_bind (neverHalts_externalFile _) fun _ =>
    neverHalts_bind Decoder.neverHalts_zstring fun _ =>
      neverHalts_bind (Decoder.neverHalts_u16 _) fun _ =>
        neverHalts_bind (Decoder.neverHalts_u16 _) fun _ => neverHalts_pure _

theorem neverHalts_keyFieldDecoder : NeverHalts keyFieldDecoder :=
  neverHalts_bind (Decoder.neverHalts_u16 _) fun _ =>
    neverHalts_bind (Decoder.neverHalts_u16 _) fun _ => neverHalts_pure _

theorem neverHalts_repeated {α : Type} {d : Nat → Decoder α} (hd : ∀ i, NeverHalts (d i)) :
    ∀ n index, NeverHalts (repeated d n index)
  | 0, _ => neverHalts_pure _
  | n + 1, index =>
    neverHalts_bind (hd index) fun _ =>
      neverHalts_bind (neverHalts_repeated hd n (index + 1)) fun _ => neverHalts_pure _

theorem neverHalts_indexDecoder : NeverHalts indexDecoder :=
  neverHalts_bind (neverHalts_externalFile _) fun _ =>
    neverHalts_bind Decoder.neverHalts_zstring fun _ =>
      neverHalts_bind Decoder.neverHalts_u8 fun _ =>
        neverHalts_bind (Decoder.neverHalts_u16 _) fun _ =>
          neverHalts_bind (neverHalts_repeated (fun _ => neverHalts_keyFieldDecoder) _ _) fun _ =>
            neverHalts_pure _

theorem neverHalts_decoder (table : UInt32) : NeverHalts (decoder table) :=
  neverHalts_bind (Decoder.neverHalts_u16 _) fun _ =>
    neverHalts_bind (Decoder.neverHalts_u16 _) fun _ =>
      neverHalts_bind (Decoder.neverHalts_u16 _) fun _ =>
        neverHalts_bind (Decoder.neverHalts_u16 _) fun _ =>
          neverHalts_bind (Decoder.neverHalts_u16 _) fun _ =>
            neverHalts_bind (neverHalts_repeated (fun _ => Field.neverHalts_decode) _ _) fun _ =>
              neverHalts_bind (neverHalts_repeated neverHalts_memoDecoder _ _) fun _ =>
                neverHalts_bind (neverHalts_repeated (fun _ => neverHalts_indexDecoder) _ _)
                  fun _ => neverHalts_pure _

/-- **Parsing a definition never halts**: its blocks may fail to read, never stop
the program. -/
theorem neverHalts_ofBlocks (table : UInt32) (blocks : List (UInt16 × List UInt8)) :
    NeverHalts (ofBlocks table blocks) :=
  neverHalts_bind (Logging.neverHalts_ofExcept (Reader.noHalt_decode (neverHalts_decoder table) _))
    fun _ => neverHalts_bind (neverHalts_modify _) fun _ => neverHalts_pure _

end TableDefinition

theorem noHalt_map {α β : Type} {x : Except Error α} (f : α → β) (hx : NoHalt x) :
    NoHalt (x.map f) := by
  cases x with
  | error e => exact hx
  | ok a => trivial

theorem Database.noHalt_definitionBlock (raw : RawRecord) : NoHalt (Database.definitionBlock raw) :=
  noHalt_bind (Reader.noHalt_decode Header.neverHalts_definitionDecoder _) fun _ => trivial

end NeverHalts

namespace Database

/-! ### Records decoded one by one -/

theorem rawRecords_strictOf (img : Image) (range : KeyRange) :
    StrictOf (rawRecords img range .strict) (rawRecords img range .tolerant) :=
  (Walk.run_strictOf img range).bind fun _ => StrictOf.refl _

theorem decodeEach_strictOf {α : Type} {unit : RawRecord → String} {dec : RawRecord → Except Error α}
    {s t : List (Yield RawRecord)} (h : StrictOf s t) :
    StrictOf (decodeEach .strict unit dec s) (decodeEach .tolerant unit dec t) :=
  h.bind fun raw => by
    cases dec raw with
    | ok a => exact StrictOf.refl _
    | error e => exact StrictOf.absorb _ e

/-- The records of a key range, decoded one by one, under the two policies. -/
theorem records_policyCoherent {α : Type} (img : Image) (range : KeyRange)
    (dec : RawRecord → Except Error α) :
    PolicyCoherent (records img range .strict dec) (records img range .tolerant dec) :=
  .of_strictOf (decodeEach_strictOf (rawRecords_strictOf img range)) (untilFailure_bind _ _)
    (untilFailure_bind _ _)
    (halts_of_mem_failures_decodeEach (by simp [failures_rawRecords_tolerant]))

/-! ### Definitions gathered table by table -/

/-- Gathering definition blocks from two related runs, from the same table being
gathered, gives related runs. -/
theorem gather_strictOf {s t : List (Yield RawRecord)} (h : StrictOf s t) :
    ∀ cur, StrictOf (gather .strict cur s) (gather .tolerant cur t) := by
  induction h with
  | nil =>
    intro cur
    cases cur with
    | none => exact StrictOf.nil
    | some c => exact StrictOf.attempt _ _
  | cons y h ih =>
    intro cur
    cases y with
    | log l =>
      rw [gather, gather]
      exact StrictOf.cons _ (ih cur)
    | failure e =>
      rw [gather, gather]
      exact StrictOf.cons _ StrictOf.nil
    | item raw =>
      simp only [gather]
      -- the record is a block of the table being gathered, of a new table, or no
      -- block at all; a block whose key does not decode is a failing unit
      split
      · split
        · exact (StrictOf.absorb _ _).append (ih cur)
        · split
          · split
            · exact ih _
            · exact (StrictOf.attempt _ _).append (ih _)
          · exact ih _
      · exact ih cur
  | skip unit s t he =>
    intro cur
    rw [gather, gather]
    exact StrictOf.skip unit _ _ he

/-- A failure of a tolerant unit that is processed on its own halts. -/
theorem halts_of_mem_failures_attempt {β : Type} {unit : String} {r : Except Error β × List LogLine}
    {e : Error} (h : e ∈ failures (attempt .tolerant unit r)) : e.halts = true := by
  unfold attempt at h
  rw [failures_append, failures_map_log, List.nil_append] at h
  split at h
  · simp at h
  · exact halts_of_mem_failures_absorb h

/-- Tolerant gathering fails only where the program halts. -/
theorem halts_of_mem_failures_gather :
    ∀ (cur : Option (UInt32 × Blocks)) (ys : List (Yield RawRecord)),
      (∀ e ∈ failures ys, e.halts = true) →
        ∀ e ∈ failures (gather .tolerant cur ys), e.halts = true
  | none, [], _ => by simp [gather]
  | some (t, bs), [], _ => fun _ he => halts_of_mem_failures_attempt he
  | cur, .log l :: ys, h => by
    simpa [gather] using halts_of_mem_failures_gather cur ys (by simpa using h)
  | cur, .failure e :: ys, h => by
    intro e' he'
    simp only [gather, failures_cons_failure, failures_nil, List.mem_singleton] at he'
    exact h e' (he' ▸ List.mem_cons_self)
  | cur, .item raw :: ys, h => by
    rw [failures_cons_item] at h
    have ih := fun cur => halts_of_mem_failures_gather cur ys h
    intro e he
    simp only [gather] at he
    split at he
    · split at he
      · rw [← List.singleton_append, failures_append, List.mem_append] at he
        rcases he with he | he
        · exact halts_of_mem_failures_absorb he
        · exact ih cur e he
      · split at he
        · split at he
          · exact ih _ e he
          · rw [failures_append, List.mem_append] at he
            rcases he with he | he
            · exact halts_of_mem_failures_attempt he
            · exact ih _ e he
        · exact ih _ e he
    · exact ih cur e he

/-- The definitions of a file, from one scan, under the two policies. -/
theorem definitions_policyCoherent (img : Image) :
    PolicyCoherent (definitions img .strict) (definitions img .tolerant) := by
  refine .of_strictOf (gather_strictOf (rawRecords_strictOf img .all) none).cut
    (untilFailure_untilFailure _) (untilFailure_untilFailure _) fun e he => ?_
  rw [definitions, failures_untilFailure] at he
  exact halts_of_mem_failures_gather none _ (by simp [failures_rawRecords_tolerant]) e
    (List.mem_of_mem_take he)

/-! ### Memos -/

/-- Cutting two related runs of fragment records into memos, from the same group
being gathered, gives related runs. -/
theorem memoGroups_strictOf {s t : List (Yield RawRecord)} (h : StrictOf s t) :
    ∀ group, StrictOf (memoGroups .strict group s) (memoGroups .tolerant group t) := by
  induction h with
  | nil => exact fun _ => StrictOf.refl _
  | cons y h ih =>
    intro group
    cases y with
    | log l => exact StrictOf.cons _ (ih group)
    | failure e => exact StrictOf.cons _ StrictOf.nil
    | item raw =>
      simp only [memoGroups]
      -- the fragment fails to decode, joins the group, or starts the next one
      split
      · exact (StrictOf.absorb _ _).append (ih group)
      · split
        · split
          · exact ih _
          · exact StrictOf.cons _ (ih _)
        · exact ih _
  | skip unit s t he => exact fun _ => StrictOf.skip unit _ _ he

theorem memoRecords_strictOf (img : Image) (d : TableDefinition) :
    StrictOf (memoRecords img d .strict) (memoRecords img d .tolerant) :=
  (memoGroups_strictOf (rawRecords_strictOf img _) []).cut.bind fun _ => StrictOf.attempt _ _

/-- The memos of a table under the two policies. -/
theorem memoRecords_policyCoherent (img : Image) (d : TableDefinition) :
    PolicyCoherent (memoRecords img d .strict) (memoRecords img d .tolerant) :=
  .of_strictOf (memoRecords_strictOf img d) (untilFailure_bind _ _) (untilFailure_bind _ _)
    (halts_of_mem_failures_memoRecords img d)

/-! ### Rows -/

/-- How attaching memos to one row from a strict and from a tolerant memo run
compare: alike, with related memo runs left; or the strict row fails at a memo
the tolerant run warns it skips, after the same lines. -/
def JoinedAlike (x y : List LogLine × Except Error Row × List (Yield MemoRecord)) : Prop :=
  x.1 = y.1 ∧ x.2.1 = y.2.1 ∧ StrictOf x.2.2 y.2.2 ∨
    ∃ e unit more, e.halts = false ∧ x.2.1 = .error e ∧ y.1 = x.1 ++ LogLine.skipping unit e :: more

/-- A memo run, strict or tolerant, attaches alike to one row. -/
theorem joinMemos_joinedAlike {ms ms' : List (Yield MemoRecord)} (h : StrictOf ms ms') :
    ∀ row, JoinedAlike (joinMemos row ms) (joinMemos row ms') := by
  induction h with
  | nil => exact fun _ => .inl ⟨rfl, rfl, StrictOf.nil⟩
  | @cons y s t h ih =>
    intro row
    -- a line written while the row is assembled goes before the rest of its lines
    have hline (l : LogLine) : JoinedAlike (joinMemos row (.log l :: s)) (joinMemos row (.log l :: t)) := by
      have hj := ih row
      rcases hs : joinMemos row s with ⟨ls, r, rest⟩
      rcases ht : joinMemos row t with ⟨ls', r', rest'⟩
      rw [hs, ht] at hj
      simp only [joinMemos, hs, ht]
      rcases hj with ⟨rfl, rfl, hr⟩ | ⟨e, unit, more, he, rfl, rfl⟩
      · exact .inl ⟨rfl, rfl, hr⟩
      · exact .inr ⟨e, unit, more, he, rfl, rfl⟩
    cases y with
    | log l => exact hline l
    | failure e => exact .inl ⟨rfl, rfl, h⟩
    | item m =>
      simp only [joinMemos]
      split
      · exact hline _
      · split
        · exact ih _
        · exact .inl ⟨rfl, rfl, StrictOf.cons _ h⟩
  | @skip e unit s t he =>
    intro row
    rcases ht : joinMemos row t with ⟨ls', r', rest'⟩
    simp only [joinMemos, ht]
    exact .inr ⟨e, unit, ls', he, rfl, rfl⟩

/-- Joining related data runs with related memo runs gives related runs of rows. -/
theorem joinRows_strictOf {ds ds' : List (Yield DataRecord)} (h : StrictOf ds ds') :
    ∀ {ms ms' : List (Yield MemoRecord)}, StrictOf ms ms' →
      StrictOf (joinRows ms ds) (joinRows ms' ds') := by
  induction h with
  | nil => exact fun _ => StrictOf.nil
  | cons y h ih =>
    intro ms ms' hm
    cases y with
    | log l => exact StrictOf.cons _ (ih hm)
    | failure e => exact StrictOf.cons _ StrictOf.nil
    | item d =>
      have hj := joinMemos_joinedAlike hm (Row.ofRecord d)
      rcases hs : joinMemos (Row.ofRecord d) ms with ⟨ls, r, rest⟩
      rcases ht : joinMemos (Row.ofRecord d) ms' with ⟨ls', r', rest'⟩
      rw [hs, ht] at hj
      simp only [joinRows, hs, ht]
      rcases hj with ⟨rfl, rfl, hr⟩ | ⟨e, unit, more, he, rfl, rfl⟩
      · refine StrictOf.append_left _ ?_
        cases r with
        | ok row => exact StrictOf.cons _ (StrictOf.cons _ (ih hr))
        | error e => exact StrictOf.cons _ StrictOf.nil
      · -- the strict row fails at a memo the tolerant run skips
        rw [List.map_append, List.append_assoc]
        exact StrictOf.append_left _ (StrictOf.skip unit _ _ he)
  | skip unit s t he => exact fun _ => StrictOf.skip unit _ _ he

/-- A join ends at its first failure. -/
theorem untilFailure_joinRows :
    ∀ (ds : List (Yield DataRecord)) (ms : List (Yield MemoRecord)),
      untilFailure (joinRows ms ds) = joinRows ms ds
  | [], _ => rfl
  | .log l :: ds, ms => by simp [joinRows, untilFailure, untilFailure_joinRows ds ms]
  | .failure e :: ds, ms => rfl
  | .item d :: ds, ms => by
    rcases hj : joinMemos (Row.ofRecord d) ms with ⟨ls, r, rest⟩
    simp only [joinRows, hj]
    rw [untilFailure_append (by simp)]
    cases r with
    | ok row => simp [untilFailure, untilFailure_joinRows ds rest]
    | error e => rfl

/-- The rows of a table under the two policies. -/
theorem rows_policyCoherent (cal : Calendar) (img : Image) (d : TableDefinition) :
    PolicyCoherent (rows cal img d .strict) (rows cal img d .tolerant) :=
  .of_strictOf (joinRows_strictOf (decodeEach_strictOf (rawRecords_strictOf img _))
      (memoRecords_strictOf img d))
    (untilFailure_joinRows _ _) (untilFailure_joinRows _ _) (halts_of_mem_failures_rows cal img d)

/-! ### Looking up definitions and tables -/

/-- **Looking up one table's definition never fails under the tolerant policy**:
blocks that do not read are skipped, and a definition that does not parse is none. -/
theorem tableDefinition_succeeds_tolerant (img : Image) (table : UInt32) :
    Succeeds (tableDefinition img table .tolerant) := by
  refine succeeds_bind (succeeds_collect ?_) fun blocks => ?_
  · exact failures_decodeEach_tolerant (failures_rawRecords_tolerant img _)
      fun raw => noHalt_map _ (noHalt_definitionBlock raw)
  · split
    · exact succeeds_pure _
    · exact Logging.succeeds_absorb_tolerant
        (neverHalts_map _ (TableDefinition.neverHalts_ofBlocks _ _)) _ _

theorem joinNames_succeeds_tolerant (img : Image) :
    ∀ names : List TableNameRecord, Succeeds (joinNames img .tolerant names)
  | [] => succeeds_pure _
  | n :: ns => by
    have hrest (here : List Table) :
        Succeeds (do let rest ← joinNames img .tolerant ns; pure (here ++ rest)) :=
      succeeds_bind (joinNames_succeeds_tolerant img ns) fun _ => succeeds_pure _
    rw [joinNames]
    refine succeeds_bind (tableDefinition_succeeds_tolerant img n.table) fun d => ?_
    dsimp only
    -- a name without a definition writes a debug line and adds no table
    cases d with
    | some d => exact succeeds_bind (succeeds_pure _) hrest
    | none => exact succeeds_bind (succeeds_modify _) fun _ => succeeds_bind (succeeds_pure _) hrest

/-- **Joining the tables with their names never fails under the tolerant policy.** -/
theorem tables_succeeds_tolerant (img : Image) : Succeeds (tables img .tolerant) :=
  succeeds_bind (succeeds_collect (failures_decodeEach_tolerant (failures_rawRecords_tolerant img _)
    TableNameRecord.noHalt_decode)) (joinNames_succeeds_tolerant img)

/-- The index entries of a table under the two policies: an index number the
format does not allow is refused alike. -/
theorem indexRecords_policyCoherent (img : Image) (table : UInt32) (index : UInt8) :
    PolicyCoherent.result (indexRecords img table index .strict)
      (indexRecords img table index .tolerant) := by
  by_cases h : Tag.data ≤ index
  · simp only [indexRecords, if_pos h]
    exact rfl
  · simp only [indexRecords, if_neg h]
    exact records_policyCoherent img _ _

/-- **Strict runs begin tolerant runs, for every enumeration of a file.** Table names,
definitions, data records, memos, metadata, index entries and rows are each, under
the two policies, `PolicyCoherent`: the tolerant run hands no error on, the strict
run hands on its items and then at most one failure, and its items begin the
tolerant run's, all of them when it fails only where the program halts. Looking up
a table's definition and joining the tables with their names never fail under the
tolerant policy. -/
theorem enumerations_policyCoherent (cal : Calendar) (img : Image) (d : TableDefinition)
    (table : UInt32) (index : UInt8) :
    PolicyCoherent (tableNames img .strict) (tableNames img .tolerant) ∧
      PolicyCoherent (definitions img .strict) (definitions img .tolerant) ∧
      PolicyCoherent (dataRecords cal img d .strict) (dataRecords cal img d .tolerant) ∧
      PolicyCoherent (memoRecords img d .strict) (memoRecords img d .tolerant) ∧
      PolicyCoherent (metadataRecords img table .strict) (metadataRecords img table .tolerant) ∧
      PolicyCoherent.result (indexRecords img table index .strict)
        (indexRecords img table index .tolerant) ∧
      PolicyCoherent (rows cal img d .strict) (rows cal img d .tolerant) ∧
      (∃ r, (Logging.run (tableDefinition img table .tolerant)).1 = .ok r) ∧
      ∃ ts, (Logging.run (tables img .tolerant)).1 = .ok ts :=
  ⟨records_policyCoherent img _ _, definitions_policyCoherent img, records_policyCoherent img _ _,
    memoRecords_policyCoherent img d, records_policyCoherent img _ _,
    indexRecords_policyCoherent img table index, rows_policyCoherent cal img d,
    (tableDefinition_succeeds_tolerant img table).run_ok, (tables_succeeds_tolerant img).run_ok⟩

end Database

end TopSpeed
