import TopSpeed.Proofs.Keys
/-!
# The cursor of a reader stays in its span

A `Reader` is a span with a cursor, and every read either uses the bytes after
the cursor and moves past them, or fails. This file settles what each read does
to the cursor, for every reader and every sequence of reads.

`Reader.readWindow r w f` is the behaviour of a read of `w` bytes: `f` of
exactly the next `w` bytes with the cursor moved past them, or, when fewer
remain, `outOfRange` with the reader as it was. Every fixed-width read, `take`
and `sub` behave so (`Reader.run_u16`, `Reader.run_sub` and their kin), each
word decoded in its byte order by `Endian.value`.

A caller holds readers made fresh over a span, left by an operation on another
(`Reader.Op`), or split off one by `sub`: `Reader.Reachable`. Each operation
keeps the span and either leaves the reader as it was or moves the cursor
forward within the span (`Reader.Op.run_keeps_cursor`), so every reader a caller
can hold has its cursor in its span (`Reader.Reachable.pos_le`).

One operation is not atomic. A string read takes its `n` bytes before its rule
looks at them, so when the rule fails (a length byte longer than the span) the
bytes stay consumed (`Reader.lengthPrefixed_failure_consumes`). Every other
operation that fails leaves the reader unchanged (`Reader.Op.run_error`). The
main statement is `Reader.cursor_laws`.
-/

namespace TopSpeed

namespace Reader

variable {α β : Type}

/-! ### Reads of a window of bytes -/

/-- The outcome of a read of `w` bytes decoded by `f`: `f` of exactly the next
`w` bytes with the cursor moved past them, or, when fewer than `w` remain,
`outOfRange` with the reader unchanged. -/
def readWindow (r : Reader) (w : Nat) (f : List UInt8 → α) : Except Error α × Reader :=
  if r.pos + w ≤ r.data.length then (.ok (f ((r.data.drop r.pos).take w)), { r with pos := r.pos + w })
  else (.error (.outOfRange r.pos w r.data.length), r)

/-- Decoding the value of a window read decodes its bytes. -/
theorem run_bind_pure_of_readWindow {m : Decoder α} {r : Reader} {w : Nat} {f : List UInt8 → α}
    (h : run m r = r.readWindow w f) (g : α → β) :
    run (m >>= fun a => pure (g a)) r = r.readWindow w (fun bs => g (f bs)) := by
  rw [run_bind, h]
  by_cases hle : r.pos + w ≤ r.data.length
  · simp only [readWindow, if_pos hle, run_pure]
  · simp only [readWindow, if_neg hle]

theorem run_take_readWindow (n : Nat) (r : Reader) : run (Decoder.take n) r = r.readWindow n id :=
  run_take n r

theorem run_u8 (r : Reader) : run Decoder.u8 r = r.readWindow 1 (fun bs => bs.headD 0) :=
  run_bind_pure_of_readWindow (run_take_readWindow 1 r) _

theorem run_i8 (r : Reader) : run Decoder.i8 r = r.readWindow 1 (fun bs => (bs.headD 0).toInt8) :=
  run_bind_pure_of_readWindow (run_u8 r) _

theorem run_u16 (e : Endian) (r : Reader) :
    run (Decoder.u16 e) r = r.readWindow 2 (fun bs => (e.value bs).toUInt16) :=
  run_bind_pure_of_readWindow (run_take_readWindow 2 r) _

theorem run_i16 (e : Endian) (r : Reader) :
    run (Decoder.i16 e) r = r.readWindow 2 (fun bs => (e.value bs).toUInt16.toInt16) :=
  run_bind_pure_of_readWindow (run_u16 e r) _

theorem run_u32 (e : Endian) (r : Reader) :
    run (Decoder.u32 e) r = r.readWindow 4 (fun bs => (e.value bs).toUInt32) :=
  run_bind_pure_of_readWindow (run_take_readWindow 4 r) _

theorem run_i32 (e : Endian) (r : Reader) :
    run (Decoder.i32 e) r = r.readWindow 4 (fun bs => (e.value bs).toUInt32.toInt32) :=
  run_bind_pure_of_readWindow (run_u32 e r) _

theorem run_f64Bits (e : Endian) (r : Reader) :
    run (Decoder.f64Bits e) r = r.readWindow 8 (fun bs => (e.value bs).toUInt64) :=
  run_bind_pure_of_readWindow (run_take_readWindow 8 r) _

/-- A sub-reader is a fresh reader over exactly the next `n` bytes. -/
theorem run_sub (n : Nat) (r : Reader) : run (Decoder.sub n) r = r.readWindow n ofBytes :=
  run_bind_pure_of_readWindow (run_take_readWindow n r) _

/-! ### The other reads -/

theorem run_rest (r : Reader) :
    run Decoder.rest r = (.ok (r.data.drop r.pos), { r with pos := r.data.length }) := by
  simp only [Decoder.rest, run_bind, run_get, run_set, run_pure]

/-- Peeking never moves the cursor. -/
theorem run_peek (at_ : Nat) (r : Reader) : (run (Decoder.peek at_) r).2 = r := by
  simp only [Decoder.peek, run_bind, run_get]
  split <;> rfl

/-- A string read takes its window, then applies its rule to it, from where the take left. -/
theorem run_string (n : Nat) (rule : StringRule) (r : Reader) :
    run (Decoder.string n rule) r =
      match r.readWindow n id with
      | (.ok span, r') => (rule.apply span, r')
      | (.error e, r') => (.error e, r') := by
  rw [Decoder.string, run_bind, run_take_readWindow]
  by_cases hle : r.pos + n ≤ r.data.length
  · simp only [readWindow, if_pos hle, id]
    cases rule.apply ((r.data.drop r.pos).take n) <;> rfl
  · simp only [readWindow, if_neg hle]

/-- The text of a NUL-terminated read is the bytes after the cursor up to the first NUL. -/
theorem run_zstring (r : Reader) :
    run Decoder.zstring r =
      if (r.data.drop r.pos).contains 0 then
        (.ok (Latin1.decode ((r.data.drop r.pos).takeWhile (· != 0))),
          { r with pos := r.pos + ((r.data.drop r.pos).takeWhile (· != 0)).length + 1 })
      else (.error (.outOfRange r.pos ((r.data.drop r.pos).length + 1) r.data.length), r) := by
  simp only [Decoder.zstring, run_bind, run_get]
  split
  · simp only [run_bind, run_set, run_pure]
  · simp only [run_throw]

/-- Bytes up to a NUL that is among them are fewer than all of them. -/
theorem length_takeWhile_lt {bs : List UInt8} (h : bs.contains 0 = true) :
    (bs.takeWhile (· != 0)).length < bs.length := by
  induction bs with
  | nil => simp at h
  | cons b bs ih =>
    by_cases hb : b = 0
    · simp [hb]
    · have hbs : bs.contains 0 = true := by simpa [eq_comm, hb] using h
      simpa [List.takeWhile_cons, hb] using ih hbs

/-- Latin-1 text has one character per byte. -/
theorem length_decode (bs : List UInt8) : (Latin1.decode bs).length = bs.length := by
  simp [Latin1.decode]

/-! ### Operations -/

/-- An operation a caller makes on a reader. -/
inductive Op where
  | u8
  | i8
  | u16 (e : Endian)
  | i16 (e : Endian)
  | u32 (e : Endian)
  | i32 (e : Endian)
  | f32 (e : Endian)
  | f64 (e : Endian)
  | bytes (n : Nat)
  | rest
  | peek (at_ : Nat)
  | string (n : Nat) (rule : StringRule)
  | zstring
  | sub (n : Nat)
  deriving DecidableEq, Repr

/-- The decoder an operation runs, its value set aside. -/
def Op.decoder : Op → Decoder Unit
  | .u8 => (fun _ => ()) <$> Decoder.u8
  | .i8 => (fun _ => ()) <$> Decoder.i8
  | .u16 e => (fun _ => ()) <$> Decoder.u16 e
  | .i16 e => (fun _ => ()) <$> Decoder.i16 e
  | .u32 e => (fun _ => ()) <$> Decoder.u32 e
  | .i32 e => (fun _ => ()) <$> Decoder.i32 e
  | .f32 e => (fun _ => ()) <$> Decoder.f32Bits e
  | .f64 e => (fun _ => ()) <$> Decoder.f64Bits e
  | .bytes n => (fun _ => ()) <$> Decoder.take n
  | .rest => (fun _ => ()) <$> Decoder.rest
  | .peek at_ => (fun _ => ()) <$> Decoder.peek at_
  | .string n rule => (fun _ => ()) <$> Decoder.string n rule
  | .zstring => (fun _ => ()) <$> Decoder.zstring
  | .sub n => (fun _ => ()) <$> Decoder.sub n

/-- Whether an operation failed, and the reader after it. -/
def Op.run (op : Op) (r : Reader) : Except Error Unit × Reader := Reader.run op.decoder r

/-- Running an operation is running its decoder, the value forgotten. -/
theorem run_discard (d : Decoder α) (r : Reader) :
    Reader.run ((fun _ => ()) <$> d) r = ((Reader.run d r).1.map fun _ => (), (Reader.run d r).2) :=
  run_map_run _ d r

/-- The readers a caller can hold: a fresh one over any span, the reader an
operation leaves, and a sub-reader split off a reader. -/
inductive Reachable : Reader → Prop
  | ofBytes (bs : List UInt8) : Reachable (ofBytes bs)
  | step {r : Reader} (op : Op) : Reachable r → Reachable (op.run r).2
  | sub {r s : Reader} {n : Nat} : Reachable r → (Reader.run (Decoder.sub n) r).1 = .ok s → Reachable s

/-- The width of the operations that read a window of bytes. -/
def Op.width? : Op → Option Nat
  | .u8 | .i8 => some 1
  | .u16 _ | .i16 _ => some 2
  | .u32 _ | .i32 _ | .f32 _ => some 4
  | .f64 _ => some 8
  | .bytes n | .sub n => some n
  | _ => none

/-- An operation with a width runs as a read of a window of that many bytes. -/
theorem Op.run_of_width {op : Op} {w : Nat} (h : op.width? = some w) (r : Reader) :
    ∃ (α : Type) (f : List UInt8 → α),
      op.run r = ((r.readWindow w f).1.map fun _ => (), (r.readWindow w f).2) := by
  cases op <;> simp only [width?, Option.some.injEq, reduceCtorEq] at h <;> subst h <;>
    simp only [Op.run, Op.decoder, run_discard, run_u8, run_i8, run_u16, run_i16, run_u32, run_i32,
      Decoder.f32Bits, run_f64Bits, run_take_readWindow, run_sub] <;>
    exact ⟨_, _, rfl⟩

/-- What a window read leaves: the reader as it was, or the cursor moved forward
within the span. -/
theorem readWindow_keeps_cursor (r : Reader) (w : Nat) (f : List UInt8 → α) :
    (r.readWindow w f).2 = r ∨
      ((r.readWindow w f).2.data = r.data ∧ r.pos ≤ (r.readWindow w f).2.pos ∧
        (r.readWindow w f).2.pos ≤ r.data.length) := by
  unfold readWindow
  split
  · next hle => exact .inr ⟨rfl, by simp, hle⟩
  · exact .inl rfl

/-- **One step keeps the cursor in the span**: an operation on a reader whose
cursor is in its span leaves the reader as it was or moves the cursor forward,
never past the end, and never changes the span. -/
theorem Op.run_keeps_cursor (op : Op) (r : Reader) (hr : r.pos ≤ r.data.length) :
    (op.run r).2 = r ∨
      ((op.run r).2.data = r.data ∧ r.pos ≤ (op.run r).2.pos ∧ (op.run r).2.pos ≤ r.data.length) := by
  cases hw : op.width? with
  | some w =>
    obtain ⟨α, f, hrun⟩ := op.run_of_width hw r
    rw [hrun]
    exact readWindow_keeps_cursor r w f
  | none =>
    -- the operations that read no window: `rest`, `peek`, a string and a NUL-terminated read
    cases op <;> simp only [width?, reduceCtorEq] at hw
    case rest =>
      right
      simp [Op.run, Op.decoder, run_discard, run_rest, hr]
    case peek at_ => exact .inl (by simp only [Op.run, Op.decoder, run_discard, run_peek])
    case string n rule =>
      -- the rule runs on what the take left, so the reader is the take's
      have h := readWindow_keeps_cursor r n id
      simp only [Op.run, Op.decoder, run_discard, run_string]
      revert h
      cases r.readWindow n id with
      | mk res r' =>
        cases res <;> exact id
    case zstring =>
      simp only [Op.run, Op.decoder, run_discard, run_zstring]
      split
      · next hnul =>
        -- the NUL is within the span, so the cursor stops at most at its end
        have hlt := length_takeWhile_lt hnul
        simp only [List.length_drop] at hlt
        exact .inr ⟨rfl, by simp only; omega, by simp only; omega⟩
      · exact .inl rfl

/-- **Every reader a caller can hold has its cursor in its span.** -/
theorem Reachable.pos_le {r : Reader} (h : Reachable r) : r.pos ≤ r.data.length := by
  induction h with
  | ofBytes bs => simp [Reader.ofBytes]
  | step op _ ih =>
    rcases op.run_keeps_cursor _ ih with heq | ⟨hdata, -, hle⟩
    · rwa [heq]
    · rwa [hdata]
  | sub _ hs _ =>
    rename_i r s n _
    rw [run_sub] at hs
    unfold readWindow at hs
    split at hs
    · cases hs
      simp [Reader.ofBytes]
    · cases hs

/-- An operation other than a string read that fails leaves the reader as it was. -/
theorem Op.run_error (op : Op) (r : Reader) (e : Error) (hop : ∀ n rule, op ≠ .string n rule)
    (h : (op.run r).1 = .error e) : (op.run r).2 = r := by
  cases hw : op.width? with
  | some w =>
    -- a window read fails only when the window does not fit, and then it does not move
    obtain ⟨α, f, hrun⟩ := op.run_of_width hw r
    rw [hrun] at h ⊢
    by_cases hle : r.pos + w ≤ r.data.length
    · simp [readWindow, hle, Except.map] at h
    · simp [readWindow, hle]
  | none =>
    cases op <;> simp only [width?, reduceCtorEq] at hw
    case rest => simp [Op.run, Op.decoder, run_discard, run_rest, Except.map] at h
    case peek at_ => simp only [Op.run, Op.decoder, run_discard, run_peek]
    case string n rule => exact absurd rfl (hop n rule)
    case zstring =>
      simp only [Op.run, Op.decoder, run_discard, run_zstring] at h ⊢
      split at h
      · cases h
      · next hnul => rw [if_neg hnul]

/-- **The cursor laws of a reader.** Every reader a caller can hold, whatever the
operations before it and however many sub-readers deep, has its cursor within
its span, so the count of remaining bytes never runs below zero. A fixed-width
read of `w` bytes decodes exactly the next `w` bytes in its byte order and
moves past them, or fails without moving; so do `take` and `sub`, the
sub-reader being a fresh reader over exactly those bytes. `rest` moves to the
end; a NUL-terminated read moves past its text and the NUL. Every operation that
fails leaves the reader unchanged, except a string read: it takes its bytes
before its rule reads them, and when the rule fails they stay taken. -/
theorem cursor_laws (r : Reader) :
    (Reachable r → r.pos ≤ r.data.length ∧ r.pos + r.remaining = r.len) ∧
    (∀ e : Endian,
      run Decoder.u8 r = r.readWindow 1 (fun bs => bs.headD 0) ∧
      run Decoder.i8 r = r.readWindow 1 (fun bs => (bs.headD 0).toInt8) ∧
      run (Decoder.u16 e) r = r.readWindow 2 (fun bs => (e.value bs).toUInt16) ∧
      run (Decoder.i16 e) r = r.readWindow 2 (fun bs => (e.value bs).toUInt16.toInt16) ∧
      run (Decoder.u32 e) r = r.readWindow 4 (fun bs => (e.value bs).toUInt32) ∧
      run (Decoder.i32 e) r = r.readWindow 4 (fun bs => (e.value bs).toUInt32.toInt32) ∧
      run (Decoder.f32Bits e) r = r.readWindow 4 (fun bs => (e.value bs).toUInt32) ∧
      run (Decoder.f64Bits e) r = r.readWindow 8 (fun bs => (e.value bs).toUInt64)) ∧
    (∀ n : Nat,
      run (Decoder.take n) r = r.readWindow n id ∧ run (Decoder.sub n) r = r.readWindow n ofBytes) ∧
    run Decoder.rest r = (.ok (r.data.drop r.pos), { r with pos := r.data.length }) ∧
    (∀ (r' : Reader) (s : String), run Decoder.zstring r = (.ok s, r') →
      r'.data = r.data ∧ r'.pos = r.pos + s.length + 1) ∧
    (∀ (op : Op) (e : Error), (∀ n rule, op ≠ .string n rule) →
      (op.run r).1 = .error e → (op.run r).2 = r) ∧
    (∀ (n : Nat) (rule : StringRule),
      run (Decoder.string n rule) r =
        match r.readWindow n id with
        | (.ok span, r') => (rule.apply span, r')
        | (.error e, r') => (.error e, r')) := by
  refine ⟨fun hr => ?_, fun e => ⟨run_u8 r, run_i8 r, run_u16 e r, run_i16 e r, run_u32 e r,
    run_i32 e r, run_u32 e r, run_f64Bits e r⟩, fun n => ⟨run_take_readWindow n r, run_sub n r⟩,
    run_rest r, fun r' s h => ?_, fun op e => Op.run_error op r e, fun n rule => run_string n rule r⟩
  · have := hr.pos_le
    simp only [remaining, len]
    omega
  · rw [run_zstring] at h
    split at h
    · cases h
      simp [length_decode]
    · cases h

/-- A length byte of 9 in a span of 4: the string read fails, and its 4 bytes stay taken. -/
theorem lengthPrefixed_failure_consumes :
    run (Decoder.string 4 .lengthPrefixed) (ofBytes [9, 97, 98, 99]) =
      (.error (.outOfRange 1 9 4), { data := [9, 97, 98, 99], pos := 4 }) := by
  rfl

end Reader

end TopSpeed
