import TopSpeed.Proofs.PageTree
import TopSpeed.Proofs.Computation
import TopSpeed.Record.Memo
/-!
# Reading pages never halts

An `Error.halt` stands for the one case where the decoder stops the program
instead of failing a unit: a field split into elements of width zero. Such an
error passes through every policy, so a tolerant enumeration yields a failure
only if something it runs can halt.

Nothing that reads pages can: every failure of the byte reader, the page
decoder, the run-length expansion, the cipher, the leaf and directory parsers
and the memo assembler is a format, range, expansion, argument or value error.
This file proves it once for each of them, bottom up, with a predicate on the
outcomes of computations (`NoHalt`, `NeverHalts`) and its rules for `pure`,
`bind`, `throw` and the state operations. The result used later is
`Walk.tree_haltFree`: the tree below any entry is `PageTree.HaltFree`, so a
tolerant walk yields no failure at all.
-/

namespace TopSpeed

/-- An outcome that is not a halting failure. -/
def NoHalt {α : Type} : Except Error α → Prop
  | .error e => e.halts = false
  | .ok _ => True

/-- A computation over a state that, from any state, never fails with an error
that halts. -/
def NeverHalts {σ α : Type} (m : ExceptT Error (StateM σ) α) : Prop :=
  ∀ s, NoHalt ((m.run).run s).1

section Rules

variable {σ α β : Type}

@[simp] theorem noHalt_ok (a : α) : NoHalt (.ok a : Except Error α) := trivial

theorem noHalt_error {e : Error} (h : e.halts = false) : NoHalt (.error e : Except Error α) := h

/-- The failure an outcome that never halts ends in does not halt. -/
theorem NoHalt.halts_eq_false {x : Except Error α} {e : Error} (h : NoHalt x) (he : x = .error e) :
    e.halts = false := by
  subst he
  exact h

theorem noHalt_bind {x : Except Error α} {f : α → Except Error β} (hx : NoHalt x)
    (hf : ∀ a, NoHalt (f a)) : NoHalt (x >>= f) := by
  cases x with
  | error e => exact hx
  | ok a => exact hf a

theorem noHalt_ite {c : Prop} [Decidable c] {x y : Except Error α} (hx : NoHalt x)
    (hy : NoHalt y) : NoHalt (if c then x else y) := by
  split
  · exact hx
  · exact hy

theorem neverHalts_bind {m : ExceptT Error (StateM σ) α} {f : α → ExceptT Error (StateM σ) β}
    (hm : NeverHalts m) (hf : ∀ a, NeverHalts (f a)) : NeverHalts (m >>= f) := by
  intro s
  have hs := hm s
  rw [run_bind_run]
  rcases h : (m.run).run s with ⟨_ | a, s'⟩
  · rw [h] at hs
    exact hs
  · exact hf a s'

theorem neverHalts_map {m : ExceptT Error (StateM σ) α} (f : α → β) (hm : NeverHalts m) :
    NeverHalts (f <$> m) := by
  rw [map_eq_pure_bind]
  exact neverHalts_bind hm fun _ _ => trivial

theorem neverHalts_pure (a : α) : NeverHalts (pure a : ExceptT Error (StateM σ) α) :=
  fun _ => trivial

theorem neverHalts_throw {e : Error} (h : e.halts = false) :
    NeverHalts (throw e : ExceptT Error (StateM σ) α) := fun _ => h

/-- Nothing after a failure runs. -/
theorem neverHalts_throw_bind {e : Error} (h : e.halts = false) (f : α → ExceptT Error (StateM σ) β) :
    NeverHalts (throw e >>= f) := fun _ => h

theorem neverHalts_get : NeverHalts (get : ExceptT Error (StateM σ) σ) := fun _ => trivial

theorem neverHalts_set (s : σ) : NeverHalts (set s : ExceptT Error (StateM σ) PUnit) :=
  fun _ => trivial

theorem neverHalts_modify (f : σ → σ) : NeverHalts (modify f : ExceptT Error (StateM σ) PUnit) :=
  fun _ => trivial

theorem neverHalts_ite {c : Prop} [Decidable c] {x y : ExceptT Error (StateM σ) α}
    (hx : NeverHalts x) (hy : NeverHalts y) : NeverHalts (if c then x else y) := by
  split
  · exact hx
  · exact hy

/-- A checked outcome lifted into a computation fails only as it did. -/
theorem neverHalts_ofExcept {x : Except Error α} (hx : NoHalt x) :
    NeverHalts (match x with
      | .ok a => (pure a : ExceptT Error (StateM σ) α)
      | .error e => throw e) := by
  cases x with
  | ok a => exact neverHalts_pure a
  | error e => exact neverHalts_throw hx

@[simp] theorem halts_formatMismatch (t : String) : (Error.formatMismatch t).halts = false := rfl

@[simp] theorem halts_outOfRange (p w l : Nat) : (Error.outOfRange p w l).halts = false := rfl

@[simp] theorem halts_runLength (t : String) : (Error.runLength t).halts = false := rfl

@[simp] theorem halts_decoding (t f r : String) : (Error.decoding t f r).halts = false := rfl

@[simp] theorem halts_invalidArgument (t : String) : (Error.invalidArgument t).halts = false := rfl

end Rules

/-! ### The byte reader -/

namespace Decoder

theorem neverHalts_take (n : Nat) : NeverHalts (take n) := by
  refine neverHalts_bind neverHalts_get fun r => ?_
  exact neverHalts_ite (neverHalts_bind (neverHalts_set _) fun _ => neverHalts_pure _)
    (neverHalts_throw rfl)

theorem neverHalts_u8 : NeverHalts u8 :=
  neverHalts_bind (neverHalts_take 1) fun _ => neverHalts_pure _

theorem neverHalts_u16 (e : Endian) : NeverHalts (u16 e) :=
  neverHalts_bind (neverHalts_take 2) fun _ => neverHalts_pure _

theorem neverHalts_u32 (e : Endian) : NeverHalts (u32 e) :=
  neverHalts_bind (neverHalts_take 4) fun _ => neverHalts_pure _

theorem neverHalts_ofExcept {α : Type} {x : Except Error α} (hx : NoHalt x) :
    NeverHalts (ofExcept x) := by
  cases x with
  | ok a => exact TopSpeed.neverHalts_pure a
  | error e => exact neverHalts_throw hx

end Decoder

theorem Reader.noHalt_decode {α : Type} {d : Decoder α} (hd : NeverHalts d) (bs : List UInt8) :
    NoHalt (Reader.decode d bs) :=
  hd (Reader.ofBytes bs)

/-! ### Directories and leaves -/

theorem Directory.neverHalts_entry : NeverHalts Directory.entry :=
  neverHalts_bind (Decoder.neverHalts_u32 _) fun _ =>
    neverHalts_bind (Decoder.neverHalts_u16 _) fun _ =>
      neverHalts_bind Decoder.neverHalts_u8 fun _ =>
        neverHalts_bind (Decoder.neverHalts_take _) fun _ => neverHalts_pure _

theorem Directory.neverHalts_entries (offset : Nat) :
    ∀ (n : Nat) (previous : Option DirectoryEntry), NeverHalts (entries offset n previous)
  | 0, _ => neverHalts_pure _
  | n + 1, previous => by
    refine neverHalts_bind neverHalts_entry fun e => ?_
    -- an entry whose key goes back fails the page with a format error
    have hrest : NeverHalts (do
        let rest ← entries offset n (some e)
        pure (e :: rest)) :=
      neverHalts_bind (neverHalts_entries offset n (some e)) fun _ => neverHalts_pure _
    cases previous with
    | none => exact hrest
    | some p =>
      dsimp only
      exact neverHalts_ite (neverHalts_throw_bind (halts_formatMismatch _) _) hrest

theorem Directory.noHalt_ofPage (p : Page) : NoHalt (Directory.ofPage p) :=
  Reader.noHalt_decode (neverHalts_entries _ _ _) _

theorem Leaf.neverHalts_record (index : Nat) (previous : Option RawRecord) :
    NeverHalts (Leaf.record index previous) := by
  refine neverHalts_bind Decoder.neverHalts_u8 fun flags => ?_
  dsimp only
  -- the checks fail with format errors; the two lengths are read or inherited,
  -- which splits the rest of the record in four
  refine neverHalts_ite (neverHalts_throw_bind (halts_formatMismatch _) _) ?_
  refine neverHalts_ite (neverHalts_bind (neverHalts_map _ (Decoder.neverHalts_u16 _)) fun _ => ?_)
    (neverHalts_bind (neverHalts_pure _) fun _ => ?_)
  all_goals
    refine neverHalts_ite (neverHalts_bind (neverHalts_map _ (Decoder.neverHalts_u16 _))
      fun _ => ?_) (neverHalts_bind (neverHalts_pure _) fun _ => ?_)
  all_goals
    refine neverHalts_ite (neverHalts_throw_bind (halts_formatMismatch _) _) ?_
    refine neverHalts_bind (Decoder.neverHalts_take _) fun _ => Decoder.neverHalts_ofExcept ?_
    unfold RawRecord.make
    split
    · exact noHalt_error (halts_formatMismatch _)
    · trivial

/-- Parsing a leaf fails, if at all, with a record that does not read. -/
theorem Leaf.noHalt_parse (payload : List UInt8) (count : Nat) :
    NoHalt (Leaf.parse payload count).1 := by
  unfold Leaf.parse
  generalize 0 = index, (none : Option RawRecord) = previous, ([] : List LogLine) = lines,
    Reader.ofBytes payload = r
  fun_induction Leaf.parse.go count index previous lines r with
  | case1 index previous lines r _ e r' hrec =>
    have h := neverHalts_record index previous r
    rw [Reader.run] at hrec
    rw [hrec] at h
    exact h
  | case2 => trivial
  | case3 index previous lines r _ rec r' _ e ls hgo ih =>
    rw [hgo] at ih
    exact ih
  | case4 => trivial

/-! ### Memo fragments and memos -/

theorem Header.neverHalts_tablePart (what : String) (tag : UInt8) :
    NeverHalts (Header.tablePart what tag) := by
  refine neverHalts_bind (Decoder.neverHalts_u32 _) fun _ =>
    neverHalts_bind Decoder.neverHalts_u8 fun _ => ?_
  dsimp only
  exact neverHalts_ite (neverHalts_throw_bind (halts_formatMismatch _) _) (neverHalts_pure _)

theorem Header.neverHalts_memoDecoder : NeverHalts Header.memoDecoder :=
  neverHalts_bind (neverHalts_tablePart _ _) fun _ =>
    neverHalts_bind (Decoder.neverHalts_u32 _) fun _ =>
      neverHalts_bind (Decoder.neverHalts_u32 _) fun _ =>
        neverHalts_bind (Decoder.neverHalts_u16 _) fun _ => neverHalts_pure _

theorem MemoFragment.noHalt_decode (raw : RawRecord) : NoHalt (MemoFragment.decode raw) :=
  noHalt_bind (Reader.noHalt_decode Header.neverHalts_memoDecoder _) fun _ => trivial

/-- Assembling a memo fails, if at all, with an argument or a decoding error. -/
theorem MemoRecord.neverHalts_assemble (d : TableDefinition) (fs : List MemoFragment) :
    NeverHalts (MemoRecord.assemble d fs) := by
  unfold MemoRecord.assemble
  -- what follows the checks writes one line and returns
  have hdone (v : Value) (first : MemoHeader) (n m : Nat) (name : String) :
      NeverHalts (do
        Logging.emit (MemoRecord.assembledLine first n m)
        pure (⟨first.table, first.owner, first.memoIndex, name, v⟩ : MemoRecord)) :=
    neverHalts_bind (neverHalts_modify _) fun _ => neverHalts_pure _
  split
  · dsimp only
    split
    · exact neverHalts_throw_bind (halts_invalidArgument _) _
    · refine neverHalts_ite (neverHalts_throw_bind (halts_invalidArgument _) _) ?_
      split
      · refine neverHalts_ite ?_ (neverHalts_bind (neverHalts_pure _) fun _ => hdone _ _ _ _ _)
        split
        · exact neverHalts_bind (neverHalts_pure _) fun _ => hdone _ _ _ _ _
        · exact neverHalts_throw_bind (halts_decoding _ _ _) _
      · exact neverHalts_throw (halts_invalidArgument _)
  · exact neverHalts_throw (halts_invalidArgument _)

/-! ### Pages -/

theorem noHalt_throw_bind {α β : Type} {e : Error} (h : e.halts = false)
    (f : α → Except Error β) : NoHalt (throw e >>= f) := h

theorem RunLength.noHalt_count (what : String) (offset : Nat) (input : List UInt8) :
    NoHalt (RunLength.count what offset input) := by
  unfold RunLength.count
  split
  · exact noHalt_error (halts_runLength _)
  · split
    · trivial
    · split
      · exact noHalt_error (halts_runLength _)
      · trivial

theorem RunLength.noHalt_finish (expected : Nat) (out : Array UInt8) :
    NoHalt (RunLength.finish expected out) := by
  unfold RunLength.finish
  split
  · trivial
  · exact noHalt_error (halts_runLength _)

theorem RunLength.noHalt_expandFrom (expected : Nat) (input : List UInt8) (offset : Nat)
    (out : Array UInt8) : NoHalt (RunLength.expandFrom expected input offset out) := by
  induction input, offset, out using RunLength.expandFrom.induct with
  | case1 offset out =>
    rw [expandFrom]
    exact noHalt_finish _ _
  | case2 offset out c rest' ih =>
    rw [expandFrom]
    -- every check fails with an expansion error; the only call left is the recursive one
    refine noHalt_bind (noHalt_count _ _ _) fun lit => ?_
    dsimp only
    refine noHalt_ite (noHalt_throw_bind (halts_runLength _) _) ?_
    refine noHalt_ite (noHalt_throw_bind (halts_runLength _) _) ?_
    split
    · exact noHalt_finish _ _
    · next c' cs hdrop =>
      refine noHalt_bind (noHalt_count _ _ _) fun rep => ?_
      split
      · exact noHalt_error (halts_runLength _)
      · next last _ =>
        exact noHalt_ite (noHalt_error (halts_runLength _)) (ih lit c' cs hdrop rep last)

theorem RunLength.noHalt_expand (input : List UInt8) (expected : Nat) :
    NoHalt (RunLength.expand input expected) := by
  unfold RunLength.expand
  have h := noHalt_expandFrom expected input 0 #[]
  revert h
  cases expandFrom expected input 0 #[] with
  | error e => exact id
  | ok a => exact fun _ => trivial

theorem PageHeader.neverHalts_decode : NeverHalts PageHeader.decode :=
  neverHalts_bind (Decoder.neverHalts_u32 _) fun _ =>
    neverHalts_bind (Decoder.neverHalts_u16 _) fun _ =>
      neverHalts_bind (Decoder.neverHalts_u16 _) fun _ =>
        neverHalts_bind (Decoder.neverHalts_u16 _) fun _ =>
          neverHalts_bind (Decoder.neverHalts_u16 _) fun _ =>
            neverHalts_bind Decoder.neverHalts_u8 fun _ => neverHalts_pure _

theorem Page.noHalt_ofBytes (offset : Nat) (data : List UInt8) :
    NoHalt (Page.ofBytes offset data) := by
  refine noHalt_bind (Reader.noHalt_decode PageHeader.neverHalts_decode _) fun header => ?_
  dsimp only
  refine noHalt_ite (noHalt_throw_bind (halts_formatMismatch _) _) ?_
  refine noHalt_ite (noHalt_throw_bind (halts_formatMismatch _) _) ?_
  refine noHalt_ite (noHalt_throw_bind (halts_formatMismatch _) _) ?_
  exact noHalt_ite (noHalt_bind (RunLength.noHalt_expand _ _) fun _ => noHalt_ok _) (noHalt_ok _)

theorem Key.noHalt_decrypt (key : Key) (bs : List UInt8) : NoHalt (key.decrypt bs) := by
  refine noHalt_bind ?_ fun _ => noHalt_ok _
  unfold Key.checkBlocks
  split
  · trivial
  · exact noHalt_error (halts_invalidArgument _)

theorem Logging.neverHalts_ofExcept {α : Type} {x : Except Error α} (hx : NoHalt x) :
    NeverHalts (Logging.ofExcept x) := by
  cases x with
  | ok a => exact neverHalts_pure a
  | error e => exact neverHalts_throw hx

theorem Logging.noHalt_run {α : Type} {m : Logging α} (hm : NeverHalts m) :
    NoHalt (Logging.run m).1 :=
  hm #[]

theorem Image.neverHalts_readPage (img : Image) (reference : UInt32) (length : UInt16) :
    NeverHalts (img.readPage reference length) := by
  unfold Image.readPage
  dsimp only
  refine neverHalts_ite (neverHalts_throw_bind (halts_formatMismatch _) _) ?_
  refine neverHalts_ite (neverHalts_throw_bind (halts_outOfRange _ _ _) _) ?_
  -- an encrypted page is decrypted first; decoding the page and its log line follow
  have hdecode (plain : List UInt8) : NeverHalts (do
      let page ← Logging.ofExcept (Page.ofBytes (pageOffset reference) (plain.take length.toNat))
      Logging.emit (readLine page)
      pure page) :=
    neverHalts_bind (Logging.neverHalts_ofExcept (Page.noHalt_ofBytes _ _)) fun _ =>
      neverHalts_bind (neverHalts_modify _) fun _ => neverHalts_pure _
  split
  · exact neverHalts_bind (Logging.neverHalts_ofExcept (Key.noHalt_decrypt _ _)) hdecode
  · exact neverHalts_bind (neverHalts_pure _) hdecode

/-- **The tree below any entry is halt-free**: a tolerant walk never yields a
failure. -/
theorem Walk.tree_haltFree (img : Image) (bound : Nat) (e : DirectoryEntry) :
    (Walk.tree img bound e).HaltFree := by
  refine Walk.tree.induct img (fun bound e => (Walk.tree img bound e).HaltFree)
    (fun level es => PageTree.HaltFreeAll (Walk.forest img level es)) ?_ ?_ ?_ ?_ ?_ ?_ ?_ ?_ bound e
  · intro bound e err lines h
    rw [tree, h]
    exact (Logging.noHalt_run (img.neverHalts_readPage e.reference e.length)).halts_eq_false (by rw [h])
  · intro bound e page lines h _ hlt hleaf records traces hp
    replace hlt : page.header.level.toNat < bound := hlt
    rw [tree, h]
    simp only [dif_pos hlt, hleaf, if_true, hp]
    trivial
  · intro bound e page lines h _ hlt hleaf err traces hp
    replace hlt : page.header.level.toNat < bound := hlt
    rw [tree, h]
    simp only [dif_pos hlt, hleaf, if_true, hp]
    exact (Leaf.noHalt_parse page.payload page.header.recordCount.toNat).halts_eq_false (by rw [hp])
  · intro bound e page lines h _ hlt hleaf err hd
    replace hlt : page.header.level.toNat < bound := hlt
    rw [Bool.not_eq_true] at hleaf
    rw [tree, h]
    simp only [dif_pos hlt, hleaf, hd]
    exact (Directory.noHalt_ofPage page).halts_eq_false hd
  · intro bound e page lines h _ hlt hleaf entries hd ih
    replace hlt : page.header.level.toNat < bound := hlt
    rw [Bool.not_eq_true] at hleaf
    rw [tree, h]
    simp only [dif_pos hlt, hleaf, hd]
    exact ih
  · intro bound e page lines h _ hlt
    replace hlt : ¬page.header.level.toNat < bound := hlt
    rw [tree, h]
    simp only [dif_neg hlt]
    rfl
  · intro level
    rw [forest]
    trivial
  · intro level e es ih ih'
    rw [forest]
    exact ⟨ih, ih'⟩

end TopSpeed
