import Neobolt.Wire.Outbox

/-!
# The states of an Outbox

Every sequence of calls on an `Outbox`, from `Outbox(capacity, max_chunk_size)`: which states it
reaches, where one `write` puts its bytes, and how many passes the loop of `write` makes.

With room for the first two length bytes (`capacity ≥ 2`, as `Connection`'s `Outbox()` has), every
reachable state keeps the layout of `Outbox.Layout`. With less, the first `write` assigns its
payload to a slice past the end of the `bytearray`, which Python appends at the end, and the
length stamp then overwrites it.

## Main definitions

* `Outbox.Call`, `Outbox.Call.run`: a call of `write`, `chunk`, `clear` or `view`.
* `Outbox.Reachable`: the states a sequence of calls reaches from a given one, a call that raised
  included.
* `Outbox.writePasses`: the number of passes of the loop of `write`.

## Main results

* `Outbox.outbox_invariant`: the invariant of every state reachable from a new `Outbox` with
  `capacity ≥ 2`.
* `Outbox.write_placement`: a write of at most `max_chunk_size` bytes lands in one chunk; a longer
  one fills the open chunk and continues in full chunks.
* `Outbox.write_passes`: the loop of `write b` makes at most `2 * len(b)` passes.
-/

namespace Neobolt

namespace Outbox

/-- A call on an `Outbox`. -/
inductive Call where
  | write (b : List UInt8)
  | chunk
  | clear
  | view

/-- The call as a step on the state; `view` changes nothing. -/
def Call.run : Call → EStateM ErrorKind Outbox Unit
  | .write b => Outbox.write b
  | .chunk => modify Outbox.chunk
  | .clear => modify Outbox.clear
  | .view => pure ()

/-- The states that a sequence of calls reaches from `o₀`, also after a call that raised. -/
inductive Reachable (o₀ : Outbox) : Outbox → Prop where
  | start : Reachable o₀ o₀
  | step {o : Outbox} (c : Call) : Reachable o₀ o → Reachable o₀ (c.run o).state

variable {o : Outbox} {closed : List (List UInt8)} {cur : List UInt8} {b : List UInt8}
  {pos toWrite : Nat}

theorem writeLoop_zero (b : List UInt8) (pos : Nat) (o : Outbox) :
    o.writeLoop b pos 0 = .ok () o := by
  rw [writeLoop, dif_pos rfl]

/-- The pass of the loop of `write` that closes the open chunk. -/
theorem writeBody_of_needsChunk (hc : o.NeedsChunk toWrite) :
    o.writeBody b pos toWrite = .ok (pos, toWrite) o.chunk := by
  simp [Outbox.writeBody, hc]

/-! ## Where `write` puts its bytes -/

/-- Bytes that fit in the room left in the open chunk are copied into it in one pass. -/
theorem Layout.writeLoop_fits (h : o.Layout closed cur) (hm : o.maxChunkSize < 65536)
    (hpos : pos + toWrite = b.length) (ht : 0 < toWrite)
    (hfit : cur.length + toWrite ≤ o.maxChunkSize) :
    ∃ o', o.writeLoop b pos toWrite = .ok () o' ∧ o'.maxChunkSize = o.maxChunkSize ∧
      o'.Layout closed (cur ++ b.drop pos) := by
  have hrem : o.remaining = o.maxChunkSize - cur.length := by simp [remaining, h.end_eq]
  have hc : ¬o.NeedsChunk toWrite := by simp only [NeedsChunk, hrem]; omega
  have hmin : min toWrite o.remaining = toWrite := by omega
  obtain ⟨o', hbody, hmax, hl⟩ := h.writeBody_copy hm hpos hc
  rw [hmin, Nat.sub_self] at hbody
  rw [hmin, List.take_of_length_le (by simp; omega)] at hl
  exact ⟨o', by rw [writeLoop_of_ok ht.ne' hbody, writeLoop_zero], hmax, hl⟩

/-- Bytes that would fit in a chunk of their own but not in the room left close the open chunk
and are copied into a new one. -/
theorem Layout.writeLoop_newChunk (h : o.Layout closed cur) (hm : o.maxChunkSize < 65536)
    (hpos : pos + toWrite = b.length) (hroom : o.maxChunkSize - cur.length < toWrite)
    (ht : toWrite ≤ o.maxChunkSize) :
    ∃ o', o.writeLoop b pos toWrite = .ok () o' ∧ o'.maxChunkSize = o.maxChunkSize ∧
      o'.Layout (closed ++ [cur]) (b.drop pos) := by
  have hrem : o.remaining = o.maxChunkSize - cur.length := by simp [remaining, h.end_eq]
  have hc : o.NeedsChunk toWrite := by simp only [NeedsChunk, hrem]; omega
  obtain ⟨o', hrun, hmax, hl⟩ := h.chunk.writeLoop_fits hm hpos (by omega) (by simpa using ht)
  refine ⟨o', ?_, hmax, by simpa using hl⟩
  rw [writeLoop_of_ok (by omega) (writeBody_of_needsChunk hc), hrun]

/-- From a full open chunk, the loop closes it and then writes the rest in chunks of exactly
`max_chunk_size` bytes but the last, which holds `1` to `max_chunk_size` bytes. -/
theorem Layout.writeLoop_full (h : o.Layout closed cur) (hm : o.maxChunkSize < 65536)
    (hpos : pos + toWrite = b.length) (ht : 0 < toWrite) (hfull : cur.length = o.maxChunkSize) :
    ∃ o' fresh cur', o.writeLoop b pos toWrite = .ok () o' ∧ o'.maxChunkSize = o.maxChunkSize ∧
      o'.Layout (closed ++ fresh) cur' ∧ (∀ c ∈ fresh, c.length = o.maxChunkSize) ∧
      0 < cur'.length ∧ cur'.length ≤ o.maxChunkSize ∧
      (fresh ++ [cur']).flatten = cur ++ b.drop pos := by
  induction toWrite using Nat.strong_induction_on generalizing o closed cur pos with
  | _ toWrite ih =>
    have hpos' := o.maxChunkSize_pos
    have hc : o.NeedsChunk toWrite := .inl (by simp [remaining, h.end_eq, hfull])
    rw [writeLoop_of_ok ht.ne' (writeBody_of_needsChunk hc)]
    by_cases hshort : toWrite ≤ o.maxChunkSize
    · obtain ⟨o', hrun, hmax, hl⟩ := h.chunk.writeLoop_fits hm hpos ht (by simpa using hshort)
      refine ⟨o', [cur], b.drop pos, hrun, hmax, by simpa using hl, by simpa using hfull,
        by simp; omega, by simp; omega, by simp⟩
    · -- the new chunk takes `max_chunk_size` bytes and is full in its turn
      have hc' : ¬o.chunk.NeedsChunk toWrite := by
        simp only [NeedsChunk, remaining, Outbox.chunk]; omega
      obtain ⟨o1, hbody, hmax1, hl1⟩ := h.chunk.writeBody_copy hm hpos hc'
      have hmin : min toWrite o.chunk.remaining = o.maxChunkSize := by
        simp only [remaining, Outbox.chunk]; omega
      rw [hmin] at hbody hl1
      have hmax1' : o1.maxChunkSize = o.maxChunkSize := hmax1
      obtain ⟨o', fresh, cur', hrun, hmax, hl, hfresh, hcur0, hcur1, hflat⟩ :=
        ih (toWrite - o.maxChunkSize) (by omega) hl1 (hmax1' ▸ hm)
          (show pos + o.maxChunkSize + (toWrite - o.maxChunkSize) = b.length by omega) (by omega)
          (by rw [hmax1']; simp; omega)
      rw [hmax1'] at hmax hfresh hcur1
      refine ⟨o', cur :: fresh, cur', by rw [writeLoop_of_ok (by omega) hbody, hrun], hmax,
        by simpa using hl, ?_, hcur0, hcur1, ?_⟩
      · simp only [List.mem_cons, forall_eq_or_imp]
        exact ⟨hfull, hfresh⟩
      · rw [List.cons_append, List.flatten_cons, hflat, List.nil_append, ← List.drop_drop,
          List.take_append_drop]

/-- More bytes than `max_chunk_size`: the loop fills the open chunk and then writes the rest in
chunks of exactly `max_chunk_size` bytes but the last. -/
theorem Layout.writeLoop_long (h : o.Layout closed cur) (hm : o.maxChunkSize < 65536)
    (hpos : pos + toWrite = b.length) (hlong : o.maxChunkSize < toWrite) :
    ∃ o' fresh cur', o.writeLoop b pos toWrite = .ok () o' ∧ o'.maxChunkSize = o.maxChunkSize ∧
      o'.Layout (closed ++ fresh) cur' ∧ (∀ c ∈ fresh, c.length = o.maxChunkSize) ∧
      0 < cur'.length ∧ cur'.length ≤ o.maxChunkSize ∧
      (fresh ++ [cur']).flatten = cur ++ b.drop pos := by
  have hcur := h.cur_le
  rcases hcur.eq_or_lt with hfull | hroom
  · exact h.writeLoop_full hm hpos (by omega) hfull
  · -- the open chunk takes what it has room for, and is full then
    have hrem : o.remaining = o.maxChunkSize - cur.length := by simp [remaining, h.end_eq]
    have hc : ¬o.NeedsChunk toWrite := by simp only [NeedsChunk, hrem]; omega
    obtain ⟨o1, hbody, hmax1, hl1⟩ := h.writeBody_copy hm hpos hc
    have hmin : min toWrite o.remaining = o.maxChunkSize - cur.length := by omega
    rw [hmin] at hbody hl1
    obtain ⟨o', fresh, cur', hrun, hmax, hl, hfresh, hcur0, hcur1, hflat⟩ :=
      hl1.writeLoop_full (hmax1 ▸ hm)
        (show pos + (o.maxChunkSize - cur.length) + (toWrite - (o.maxChunkSize - cur.length)) =
          b.length by omega) (by omega)
        (by rw [hmax1]; simp only [List.length_append, List.length_take, List.length_drop]; omega)
    rw [hmax1] at hmax hfresh hcur1
    refine ⟨o', fresh, cur', by rw [writeLoop_of_ok (by omega) hbody, hrun], hmax, hl, hfresh,
      hcur0, hcur1, ?_⟩
    rw [hflat, List.append_assoc, ← List.drop_drop, List.take_append_drop]

/-! ## The states a new `Outbox` reaches -/

/-- Every call keeps the layout, and `max_chunk_size`. -/
theorem Layout.run (h : o.Layout closed cur) (hm : o.maxChunkSize < 65536) (c : Call) :
    ∃ closed' cur', (c.run o).state.Layout closed' cur' ∧
      (c.run o).state.maxChunkSize = o.maxChunkSize := by
  cases c with
  | write b =>
    obtain ⟨o', fresh, cur', hrun, hmax, hl, -⟩ := h.writeLoop hm (Nat.zero_add b.length)
    exact ⟨_, _, by simpa [Call.run, write, hrun] using hl, by simpa [Call.run, write, hrun]⟩
  | chunk => exact ⟨_, _, h.chunk, rfl⟩
  | clear => exact ⟨_, _, layout_clear o, rfl⟩
  | view => exact ⟨_, _, h, rfl⟩

/-- From a new `Outbox` with room for two length bytes, every reachable state has the layout. -/
theorem Reachable.layout {capacity m : Nat} (hm : 0 < m) (hm' : m < 65536)
    (hc : 2 ≤ capacity) (ho : Reachable (init capacity m hm) o) :
    (∃ closed cur, o.Layout closed cur) ∧ o.maxChunkSize = m := by
  induction ho with
  | start => exact ⟨⟨_, _, layout_init hm hc⟩, rfl⟩
  | step c _ ih =>
    obtain ⟨⟨closed, cur, h⟩, hmax⟩ := ih
    obtain ⟨closed', cur', h', hmax'⟩ := h.run (hmax ▸ hm') c
    exact ⟨⟨closed', cur', h'⟩, hmax'.trans hmax⟩

/-- The two bytes at `_header` hold the length of the open chunk. -/
theorem Layout.header_bytes (h : o.Layout closed cur) :
    (o.data.drop o.header).take 2 = u16Bytes (o.end_ - o.start) := by
  have hlen : o.end_ - o.start = cur.length := by rw [h.end_eq]; omega
  have hle : 2 ≤ o.end_ - o.header := by rw [h.end_eq, h.start_eq]; omega
  calc (o.data.drop o.header).take 2 = ((o.data.take o.end_).drop o.header).take 2 := by
        rw [List.drop_take, List.take_take, Nat.min_eq_left hle]
    _ = u16Bytes (o.end_ - o.start) := by
        rw [hlen, h.take_end, h.header_eq, List.drop_left, encodeChunk,
          List.take_left' (length_u16Bytes _)]

/-- The view is a sequence of chunks no longer than `_max_chunk_size`. -/
theorem Layout.view_chunks (h : o.Layout closed cur) :
    ∃ chunks : List (List UInt8), (∀ c ∈ chunks, c.length ≤ o.maxChunkSize) ∧
      o.view = (chunks.map encodeChunk).flatten := by
  by_cases hc : cur = []
  · subst hc
    exact ⟨closed, h.closed_le, h.view_of_nil⟩
  · refine ⟨closed ++ [cur], fun c hc' => ?_, h.view_of_ne_nil hc⟩
    rcases List.mem_append.mp hc' with hc' | hc'
    · exact h.closed_le c hc'
    · exact (List.mem_singleton.mp hc') ▸ h.cur_le

/-- Every state that `write`, `chunk`, `clear` and `view` reach from `Outbox(capacity, m)` with
`capacity ≥ 2` and `1 ≤ m ≤ 65535`: `_header + 2 = _start ≤ _end ≤ len(_data)`, the open chunk
holds at most `m` bytes and its length stands big-endian at `_header`, the bytes before `_header`
are chunks of at most `m` bytes each behind its length, and so is `view()`. -/
theorem outbox_invariant {capacity m : Nat} (hm : 0 < m) (hm' : m ≤ 65535) (hc : 2 ≤ capacity)
    {o : Outbox} (ho : Reachable (init capacity m hm) o) :
    o.header + 2 = o.start ∧ o.start ≤ o.end_ ∧ o.end_ ≤ o.data.length ∧
      o.end_ - o.start ≤ m ∧ (o.data.drop o.header).take 2 = u16Bytes (o.end_ - o.start) ∧
      (∃ closed : List (List UInt8), (∀ c ∈ closed, c.length ≤ m) ∧
        o.data.take o.header = (closed.map encodeChunk).flatten) ∧
      ∃ chunks : List (List UInt8), (∀ c ∈ chunks, c.length ≤ m) ∧
        o.view = (chunks.map encodeChunk).flatten := by
  obtain ⟨⟨closed, cur, h⟩, hmax⟩ := ho.layout hm (by omega) hc
  subst hmax
  have hhead : o.data.take o.header = (closed.map encodeChunk).flatten := by
    have := congrArg (List.take o.header) h.take_end
    rwa [List.take_take, Nat.min_eq_left (by rw [h.end_eq, h.start_eq]; omega), h.header_eq,
      List.take_left, ← h.header_eq] at this
  refine ⟨h.start_eq.symm, by rw [h.end_eq]; omega, h.end_le, by rw [h.end_eq]; simpa using h.cur_le,
    h.header_bytes, ⟨closed, h.closed_le, hhead⟩, h.view_chunks⟩

theorem outbox_invariant_afterWrite :
    ∃ o, Reachable (init 8192 16384 (by decide)) o ∧
      o.header + 2 = o.start ∧ o.start ≤ o.end_ ∧ o.end_ ≤ o.data.length ∧
      o.end_ - o.start ≤ 16384 ∧ (o.data.drop o.header).take 2 = u16Bytes (o.end_ - o.start) ∧
      (∃ closed : List (List UInt8), (∀ c ∈ closed, c.length ≤ 16384) ∧
        o.data.take o.header = (closed.map encodeChunk).flatten) ∧
      ∃ chunks : List (List UInt8), (∀ c ∈ chunks, c.length ≤ 16384) ∧
        o.view = (chunks.map encodeChunk).flatten :=
  ⟨_, .step (.write [1, 2, 3]) .start,
    outbox_invariant (by decide) (by decide) (by decide) (.step (.write [1, 2, 3]) .start)⟩

/-- A write of `1 ≤ len(b)` bytes on a state reachable from `Outbox(capacity, m)` with
`capacity ≥ 2` and `1 ≤ m ≤ 65535`, whose closed chunks are `closed` and open chunk `cur`. If `b`
fits in the room left in `cur`, it continues `cur`. If it does not but fits in a chunk, `cur` is
closed and `b` is the whole of a new open chunk. A longer `b` fills `cur` and continues in chunks
of exactly `m` bytes, all full but the last. -/
theorem write_placement {capacity m : Nat} (hm : 0 < m) (hm' : m ≤ 65535) (hc : 2 ≤ capacity)
    {o : Outbox} (ho : Reachable (init capacity m hm) o) (b : List UInt8) (hb : 0 < b.length) :
    ∃ closed cur, o.Layout closed cur ∧
      (b.length ≤ m - cur.length → ∃ o', o.write b = .ok () o' ∧ o'.Layout closed (cur ++ b)) ∧
      (m - cur.length < b.length → b.length ≤ m →
        ∃ o', o.write b = .ok () o' ∧ o'.Layout (closed ++ [cur]) b) ∧
      (m < b.length → ∃ o' fresh cur', o.write b = .ok () o' ∧ o'.Layout (closed ++ fresh) cur' ∧
        (∀ c ∈ fresh, c.length = m) ∧ 0 < cur'.length ∧ cur'.length ≤ m ∧
        (fresh ++ [cur']).flatten = cur ++ b) := by
  obtain ⟨⟨closed, cur, h⟩, rfl⟩ := ho.layout hm (by omega) hc
  have hcur := h.cur_le
  refine ⟨closed, cur, h, fun hfit => ?_, fun hroom hle => ?_, fun hlong => ?_⟩
  · obtain ⟨o', hrun, -, hl⟩ := h.writeLoop_fits (by omega) (Nat.zero_add _) hb (by omega)
    exact ⟨o', hrun, hl⟩
  · obtain ⟨o', hrun, -, hl⟩ := h.writeLoop_newChunk (by omega) (Nat.zero_add _) hroom hle
    exact ⟨o', hrun, hl⟩
  · obtain ⟨o', fresh, cur', hrun, hmax, hl, hrest⟩ :=
      h.writeLoop_long (by omega) (Nat.zero_add _) hlong
    exact ⟨o', fresh, cur', hrun, hl, by simpa using hrest⟩

theorem write_placement_fresh :
    ∃ closed cur, (init 8192 16384 (by decide)).Layout closed cur ∧
      ([1, 2, 3].length ≤ 16384 - cur.length → ∃ o', (init 8192 16384 (by decide)).write [1, 2, 3] =
        .ok () o' ∧ o'.Layout closed (cur ++ [1, 2, 3])) ∧
      (16384 - cur.length < [1, 2, 3].length → [1, 2, 3].length ≤ 16384 →
        ∃ o', (init 8192 16384 (by decide)).write [1, 2, 3] = .ok () o' ∧
          o'.Layout (closed ++ [cur]) [1, 2, 3]) ∧
      (16384 < [1, 2, 3].length → ∃ o' fresh cur',
        (init 8192 16384 (by decide)).write [1, 2, 3] = .ok () o' ∧
        o'.Layout (closed ++ fresh) cur' ∧ (∀ c ∈ fresh, c.length = 16384) ∧ 0 < cur'.length ∧
        cur'.length ≤ 16384 ∧ (fresh ++ [cur']).flatten = cur ++ [1, 2, 3]) :=
  write_placement (by decide) (by decide) (by decide) .start [1, 2, 3] (by decide)

/-- With no room for the two length bytes, `write` on a new `Outbox` appends its byte where the
length belongs, and the length stamp overwrites it. -/
theorem write_init_zeroCapacity :
    (init 0 16384 (by decide)).write [7] =
      .ok () { init 0 16384 (by decide) with end_ := 3, data := [0, 1] } := by
  rw [write, writeLoop_of_ok (by decide) (writeBody_of_not_needsChunk (by decide) (by decide)),
    writeLoop, dif_pos (by decide)]
  rfl

/-- On `Outbox(0, 16384)`, writing one byte loses it: the state holds the length of a one-byte
chunk and no payload. -/
theorem write_zeroCapacity_loses :
    ∃ o', (init 0 16384 (by decide)).write [7] = .ok () o' ∧ o'.data = [0, 1] ∧
      o'.view = [0, 1] :=
  ⟨_, write_init_zeroCapacity, rfl, rfl⟩

/-- `Outbox(0, 16384)` itself has `_end` past the end of `_data`. -/
theorem outbox_zeroCapacity_end :
    ∃ o, Reachable (init 0 16384 (by decide)) o ∧ o.data.length < o.end_ ∧
      ∃ o', Reachable (init 0 16384 (by decide)) o' ∧ o'.view = [0, 1] :=
  ⟨_, .start, by decide, _, .step (.write [7]) .start,
    by rw [Call.run, write_init_zeroCapacity]; rfl⟩

/-! ## The passes of the loop of `write` -/

/-- The number of passes the loop of `write` makes from `pos` with `toWrite` bytes left, the pass
that raises `struct.error` included. -/
def writePasses (b : List UInt8) (pos toWrite : Nat) (o : Outbox) : Nat :=
  if hw : toWrite = 0 then 0
  else
    match h : o.writeBody b pos toWrite with
    | .ok (pos', toWrite') o' =>
      have := writeBody_measure_lt h hw
      writePasses b pos' toWrite' o' + 1
    | .error _ _ => 1
termination_by 2 * toWrite + if o.NeedsChunk toWrite then 1 else 0

/-- A chunk just opened never needs closing: it is empty and has room for `max_chunk_size`. -/
theorem not_needsChunk_chunk (o : Outbox) (toWrite : Nat) : ¬o.chunk.NeedsChunk toWrite := by
  have := o.maxChunkSize_pos
  simp only [NeedsChunk, remaining, Outbox.chunk]
  omega

/-- `chunk()` is called only on a non-empty open chunk. -/
theorem needsChunk_nonempty {toWrite : Nat} (hc : o.NeedsChunk toWrite) :
    o.end_ - o.start ≠ 0 := by
  have := o.maxChunkSize_pos
  simp only [NeedsChunk, remaining] at hc
  omega

/-- A pass that does not close the open chunk copies at least one byte. -/
theorem writeBody_lt {pos' toWrite' : Nat} {o' : Outbox} (ht : 0 < toWrite)
    (hc : ¬o.NeedsChunk toWrite) (hb : o.writeBody b pos toWrite = .ok (pos', toWrite') o') :
    toWrite' < toWrite := by
  have hc' := hc
  simp only [NeedsChunk, not_or] at hc'
  unfold writeBody at hb
  rw [if_neg hc] at hb
  dsimp only at hb
  split at hb
  · cases hb
    omega
  · cases hb

/-- A pass count bound that also holds between the passes: from a state whose next pass copies,
one pass fewer. -/
theorem writePasses_add_le (b : List UInt8) (pos toWrite : Nat) (o : Outbox) :
    writePasses b pos toWrite o + (if ¬o.NeedsChunk toWrite ∧ 0 < toWrite then 1 else 0) ≤
      2 * toWrite := by
  induction pos, toWrite, o using writePasses.induct b with
  | case1 pos o => simp [writePasses]
  | case2 pos toWrite o hw pos' toWrite' o' hbody _ ih =>
    rw [writePasses, dif_neg hw]
    split
    · rename_i hbody'
      rw [hbody] at hbody'
      cases hbody'
      by_cases hc : o.NeedsChunk toWrite
      · -- a closing pass, then a copying one from the same `toWrite`
        rw [writeBody_of_needsChunk hc] at hbody
        cases hbody
        simp only [not_needsChunk_chunk, not_false_eq_true, true_and,
          Nat.pos_of_ne_zero hw, if_true] at ih
        simp only [hc, not_true_eq_false, false_and, if_false]
        omega
      · have hlt := writeBody_lt (Nat.pos_of_ne_zero hw) hc hbody
        simp only [hc, not_false_eq_true, true_and] at ih ⊢
        split at ih <;> split <;> omega
    · rename_i hbody'
      rw [hbody] at hbody'
      cases hbody'
  | case3 pos toWrite o hw e o' hbody =>
    rw [writePasses, dif_neg hw]
    split
    · rename_i hbody'
      rw [hbody] at hbody'
      cases hbody'
    · split <;> omega

/-- The loop of `write b` makes at most `2 * len(b)` passes from any state: a pass that calls
`chunk()` finds the open chunk non-empty and is followed by one that does not, and a pass that does
not call `chunk()` copies at least one byte, so `to_write` falls at least every second pass. -/
theorem write_passes :
    (∀ (o : Outbox) (b : List UInt8), writePasses b 0 b.length o ≤ 2 * b.length) ∧
    (∀ (o : Outbox) (toWrite : Nat), o.NeedsChunk toWrite →
      o.end_ - o.start ≠ 0 ∧ ¬o.chunk.NeedsChunk toWrite) ∧
    (∀ (o : Outbox) (b : List UInt8) (pos toWrite pos' toWrite' : Nat) (o' : Outbox),
      0 < toWrite → ¬o.NeedsChunk toWrite → o.writeBody b pos toWrite = .ok (pos', toWrite') o' →
      toWrite' < toWrite) :=
  ⟨fun o b => le_trans (Nat.le_add_right _ _) (writePasses_add_le b 0 b.length o),
    fun o _ hc => ⟨needsChunk_nonempty hc, not_needsChunk_chunk o _⟩,
    fun _ _ _ _ _ _ _ ht hc hb => writeBody_lt ht hc hb⟩

end Outbox

end Neobolt
