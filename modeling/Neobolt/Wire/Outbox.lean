import Neobolt.Basic
import Neobolt.Wire.Framing

/-!
# Outbox: the write-side framing buffer

`Outbox` (`neobolt/direct.py`) collects the bytes the packer writes and cuts them into chunks as
they arrive. `_data` is a `bytearray`; the two length bytes of the open chunk sit at `_header`, and
its payload runs from `_start` to `_end`. `write` stamps the length again after every copy, so the
open chunk is always well framed, and `chunk` closes it and opens an empty one at `_end`.

Indices are natural numbers. On every state the operations reach from `init` or `clear`,
`_start ≤ _end ≤ _start + _max_chunk_size` (`Outbox.Layout`), so the truncated subtractions of the
model agree with Python's.

## Main definitions

* `Outbox`, with the methods `init`, `clear`, `chunk`, `view` and `write`; `writeBody` is one pass
  of the loop of `write` and `writeLoop` the loop itself.
* `Outbox.Layout o closed cur`: the bytes of `o` up to `_end` are the closed chunks `closed` and
  then the open chunk `cur`, each behind its length, and the indices point at `cur`.

## Main results

* `layout_init`, `layout_clear`, `Layout.chunk`: the layout after the operations other than
  `write`.
* `Layout.writeLoop`: `write` returns, and splits what it writes into chunks of `1` to
  `max_chunk_size` bytes that continue the open chunk.
-/

namespace Neobolt

/-- The state of an `Outbox`. -/
structure Outbox where
  /-- `_max_chunk_size`. `write` never returns when it is `0`, so the model asks for it
  positive. -/
  maxChunkSize : Nat
  maxChunkSize_pos : 0 < maxChunkSize
  /-- `_header`: the position of the two length bytes of the open chunk. -/
  header : Nat
  /-- `_start`: the position of the first payload byte of the open chunk. -/
  start : Nat
  /-- `_end`: the position just after the last payload byte of the open chunk. -/
  end_ : Nat
  /-- `_data`. -/
  data : List UInt8

namespace Outbox

/-- `Outbox(capacity, max_chunk_size)`: an empty open chunk at the front of `capacity` zero
bytes. -/
def init (capacity maxChunkSize : Nat) (h : 0 < maxChunkSize) : Outbox where
  maxChunkSize := maxChunkSize
  maxChunkSize_pos := h
  header := 0
  start := 2
  end_ := 2
  data := List.replicate capacity 0

/-- `Outbox.clear`. -/
def clear (o : Outbox) : Outbox :=
  { o with header := 0, start := 2, end_ := 2, data := setSlice o.data 0 2 [0, 0] }

/-- `Outbox.chunk`: the open chunk is closed where it is, and an empty one opens after it. -/
def chunk (o : Outbox) : Outbox :=
  { o with header := o.end_, start := o.end_ + 2, end_ := o.end_ + 2,
           data := setSlice o.data o.end_ (o.end_ + 2) [0, 0] }

/-- `Outbox.view`: everything up to the open chunk, and the open chunk too unless it is empty. -/
def view (o : Outbox) : List UInt8 :=
  if o.end_ - o.start = 0 then o.data.take o.header else o.data.take o.end_

/-- The local `remaining` of `write`: the room left in the open chunk. -/
def remaining (o : Outbox) : Nat :=
  o.maxChunkSize - (o.end_ - o.start)

/-- The test at the head of the loop body of `write`: the open chunk is full, or the `toWrite`
bytes left would fit in a chunk of their own but not in the room left in this one. -/
def NeedsChunk (o : Outbox) (toWrite : Nat) : Prop :=
  o.remaining = 0 ∨ o.remaining < toWrite ∧ toWrite ≤ o.maxChunkSize

instance (o : Outbox) (toWrite : Nat) : Decidable (o.NeedsChunk toWrite) :=
  inferInstanceAs (Decidable (_ ∨ _))

/-- One pass of the loop body of `write b`, with `pos` bytes of `b` written and `toWrite` left.
It either closes the open chunk, or copies what fits and stamps the new length; the stamp raises
`struct.error` when the length does not fit in 16 bits. -/
def writeBody (b : List UInt8) (pos toWrite : Nat) (o : Outbox) :
    EStateM.Result ErrorKind Outbox (Nat × Nat) :=
  if o.NeedsChunk toWrite then .ok (pos, toWrite) o.chunk
  else
    let wrote := min toWrite o.remaining
    let newEnd := o.end_ + wrote
    let o' := { o with end_ := newEnd,
                       data := setSlice o.data o.end_ newEnd ((b.drop pos).take wrote) }
    match structPackH (o'.end_ - o'.start) with
    | some header =>
      .ok (pos + wrote, toWrite - wrote)
        { o' with data := setSlice o'.data o'.header (o'.header + 2) header }
    | none => .error .structError o'

/-- The loop of `write` decreases `2 * to_write`, plus one while the next pass will close a
chunk: a pass that closes a chunk is followed by one that copies at least one byte. -/
theorem writeBody_measure_lt {b : List UInt8} {pos toWrite pos' toWrite' : Nat}
    {o o' : Outbox} (h : o.writeBody b pos toWrite = .ok (pos', toWrite') o')
    (hw : ¬toWrite = 0) :
    2 * toWrite' + (if o'.NeedsChunk toWrite' then 1 else 0) <
      2 * toWrite + (if o.NeedsChunk toWrite then 1 else 0) := by
  have hm := o.maxChunkSize_pos
  unfold writeBody at h
  split_ifs at h with hc
  · cases h
    have : ¬o.chunk.NeedsChunk toWrite := by
      simp only [NeedsChunk, remaining, chunk]
      omega
    rw [if_neg this, if_pos hc]
    omega
  · dsimp only at h
    split at h <;> cases h
    simp only [NeedsChunk, not_or, not_and, not_le] at hc
    split <;> omega

/-- The `while to_write > 0` loop of `write`, from `pos` with `toWrite` bytes left. -/
def writeLoop (b : List UInt8) (pos toWrite : Nat) (o : Outbox) :
    EStateM.Result ErrorKind Outbox Unit :=
  if hw : toWrite = 0 then .ok () o
  else
    match h : o.writeBody b pos toWrite with
    | .ok (pos', toWrite') o' =>
      have := writeBody_measure_lt h hw
      writeLoop b pos' toWrite' o'
    | .error e o' => .error e o'
termination_by 2 * toWrite + if o.NeedsChunk toWrite then 1 else 0

/-- `Outbox.write b`. -/
def write (b : List UInt8) : EStateM ErrorKind Outbox Unit :=
  writeLoop b 0 b.length

/-! ## The layout of the buffer -/

/-- The bytes of `o` up to `_end` are the closed chunks `closed` and then the open chunk `cur`,
each behind its two length bytes; `_header`, `_start` and `_end` point at `cur`; and no chunk is
longer than `_max_chunk_size`. -/
structure Layout (o : Outbox) (closed : List (List UInt8)) (cur : List UInt8) : Prop where
  header_eq : o.header = ((closed.map encodeChunk).flatten).length
  start_eq : o.start = o.header + 2
  end_eq : o.end_ = o.start + cur.length
  end_le : o.end_ ≤ o.data.length
  take_end : o.data.take o.end_ = (closed.map encodeChunk).flatten ++ encodeChunk cur
  closed_le : ∀ c ∈ closed, c.length ≤ o.maxChunkSize
  cur_le : cur.length ≤ o.maxChunkSize

variable {o : Outbox} {closed : List (List UInt8)} {cur : List UInt8}

/-- A new `Outbox` with room for the first two length bytes holds one empty open chunk. -/
theorem layout_init {capacity m : Nat} (hm : 0 < m) (hc : 2 ≤ capacity) :
    (init capacity m hm).Layout [] [] where
  header_eq := rfl
  start_eq := rfl
  end_eq := rfl
  end_le := by simpa [init] using hc
  take_end := by simp [init, List.take_replicate, Nat.min_eq_left hc]
  closed_le := by simp
  cur_le := by simp

/-- Whatever came before, `clear` leaves one empty open chunk. -/
theorem layout_clear (o : Outbox) : o.clear.Layout [] [] where
  header_eq := rfl
  start_eq := rfl
  end_eq := rfl
  end_le := le_length_setSlice (Nat.zero_le _) rfl
  take_end := by
    simpa [clear] using @take_setSlice_append o.data [0, 0] 0 2 (Nat.zero_le _) rfl
  closed_le := by simp
  cur_le := by simp [clear]

theorem Layout.chunk (h : o.Layout closed cur) : o.chunk.Layout (closed ++ [cur]) [] where
  header_eq := by simp [Outbox.chunk, h.end_eq, h.start_eq, h.header_eq, encodeChunk]; omega
  start_eq := rfl
  end_eq := rfl
  end_le := le_length_setSlice h.end_le rfl
  take_end := by
    simp [Outbox.chunk, @take_setSlice_append o.data [0, 0] o.end_ (o.end_ + 2) h.end_le rfl,
      h.take_end]
  closed_le c hc := by
    rcases List.mem_append.mp hc with hc | hc
    · exact h.closed_le c hc
    · exact (List.mem_singleton.mp hc) ▸ h.cur_le
  cur_le := by simp

/-- With the open chunk empty, `view` is the closed chunks. -/
theorem Layout.view_of_nil (h : o.Layout closed []) :
    o.view = (closed.map encodeChunk).flatten := by
  have hv : o.view = o.data.take o.header := by simp [view, h.end_eq]
  rw [hv, show o.header = min o.header o.end_ by simp [h.end_eq, h.start_eq], ← List.take_take,
    h.take_end, h.header_eq, List.take_left]

/-- With bytes in the open chunk, `view` is the closed chunks and the open one. -/
theorem Layout.view_of_ne_nil (h : o.Layout closed cur) (hc : cur ≠ []) :
    o.view = ((closed ++ [cur]).map encodeChunk).flatten := by
  have hv : o.end_ - o.start ≠ 0 := by
    rw [h.end_eq]
    simpa using hc
  simp [view, hv, h.take_end]

/-- The pass of the loop of `write` that copies: `w` bytes of `b` from `pos` go into the open
chunk, and its new length is stamped. -/
theorem writeBody_of_not_needsChunk {b : List UInt8} {pos toWrite : Nat}
    (hc : ¬o.NeedsChunk toWrite)
    (hfit : o.end_ + min toWrite o.remaining - o.start < 65536) :
    o.writeBody b pos toWrite =
      .ok (pos + min toWrite o.remaining, toWrite - min toWrite o.remaining)
        { o with end_ := o.end_ + min toWrite o.remaining,
                 data := setSlice
                   (setSlice o.data o.end_ (o.end_ + min toWrite o.remaining)
                     ((b.drop pos).take (min toWrite o.remaining)))
                   o.header (o.header + 2)
                   (u16Bytes (o.end_ + min toWrite o.remaining - o.start)) } := by
  simp only [writeBody, if_neg hc, structPackH_of_lt hfit]

/-- Copying `x` into the open chunk and stamping its new length keeps the layout, with `x`
appended to the open chunk. -/
theorem Layout.copy (h : o.Layout closed cur) (x : List UInt8)
    (hx : cur.length + x.length ≤ o.maxChunkSize) :
    ({ o with end_ := o.end_ + x.length,
              data := setSlice (setSlice o.data o.end_ (o.end_ + x.length) x) o.header
                (o.header + 2) (u16Bytes (o.end_ + x.length - o.start)) } : Outbox).Layout
      closed (cur ++ x) := by
  have hn : o.end_ + x.length - o.start = (cur ++ x).length := by simp [h.end_eq]; omega
  have hd : (setSlice o.data o.end_ (o.end_ + x.length) x).take (o.end_ + x.length) =
      (closed.map encodeChunk).flatten ++ u16Bytes cur.length ++ (cur ++ x) := by
    rw [take_setSlice_append h.end_le rfl, h.take_end]
    simp [encodeChunk]
  have hd1 : o.end_ + x.length ≤ (setSlice o.data o.end_ (o.end_ + x.length) x).length :=
    le_length_setSlice h.end_le rfl
  have hhead : o.header + 2 ≤ o.end_ + x.length := by rw [h.end_eq, h.start_eq]; omega
  rw [hn]
  have hlen : (setSlice (setSlice o.data o.end_ (o.end_ + x.length) x) o.header (o.header + 2)
      (u16Bytes (cur ++ x).length)).length =
      (setSlice o.data o.end_ (o.end_ + x.length) x).length :=
    length_setSlice_of_le rfl (hhead.trans hd1)
  have htake : (setSlice (setSlice o.data o.end_ (o.end_ + x.length) x) o.header (o.header + 2)
      (u16Bytes (cur ++ x).length)).take (o.end_ + x.length) =
      (closed.map encodeChunk).flatten ++ u16Bytes (cur ++ x).length ++ (cur ++ x) :=
    take_setSlice_of_eq hd1 hd rfl h.header_eq rfl
  refine ⟨h.header_eq, h.start_eq, ?_, ?_, ?_, h.closed_le, by simpa using hx⟩ <;> dsimp only
  · simp [h.end_eq]
    omega
  · exact hlen ▸ hd1
  · rw [htake]
    simp [encodeChunk]

/-- Under the layout, a pass of the loop of `write` that does not close the open chunk copies
`min toWrite remaining` bytes of `b` from `pos` into it. -/
theorem Layout.writeBody_copy {b : List UInt8} {pos toWrite : Nat} (h : o.Layout closed cur)
    (hm : o.maxChunkSize < 65536) (hpos : pos + toWrite = b.length) (hc : ¬o.NeedsChunk toWrite) :
    ∃ o', o.writeBody b pos toWrite =
        .ok (pos + min toWrite o.remaining, toWrite - min toWrite o.remaining) o' ∧
      o'.maxChunkSize = o.maxChunkSize ∧
      o'.Layout closed (cur ++ (b.drop pos).take (min toWrite o.remaining)) := by
  have hrem : o.remaining = o.maxChunkSize - cur.length := by simp [remaining, h.end_eq]
  have hcur := h.cur_le
  have hc' := hc
  simp only [NeedsChunk, not_or, not_and, not_le] at hc'
  have hxlen : ((b.drop pos).take (min toWrite o.remaining)).length = min toWrite o.remaining := by
    simp; omega
  have hcopy := h.copy ((b.drop pos).take (min toWrite o.remaining)) (by omega)
  rw [hxlen] at hcopy
  exact ⟨_, writeBody_of_not_needsChunk hc (by rw [h.end_eq]; omega), rfl, hcopy⟩

/-- Under the layout, a pass of the loop of `write` either closes the open chunk, which is not
empty then, or copies `1 ≤ w ≤ toWrite` bytes of `b` from `pos` into it. -/
theorem Layout.writeBody {b : List UInt8} {pos toWrite : Nat} (h : o.Layout closed cur)
    (hm : o.maxChunkSize < 65536) (hpos : pos + toWrite = b.length) (hw : toWrite ≠ 0) :
    (cur ≠ [] ∧ o.writeBody b pos toWrite = .ok (pos, toWrite) o.chunk) ∨
    ∃ w o', 0 < w ∧ w ≤ toWrite ∧ o.writeBody b pos toWrite = .ok (pos + w, toWrite - w) o' ∧
      o'.maxChunkSize = o.maxChunkSize ∧ o'.Layout closed (cur ++ (b.drop pos).take w) := by
  have hrem : o.remaining = o.maxChunkSize - cur.length := by simp [remaining, h.end_eq]
  have hpos' := o.maxChunkSize_pos
  by_cases hc : o.NeedsChunk toWrite
  · left
    refine ⟨fun hnil => ?_, by simp [Outbox.writeBody, hc]⟩
    simp only [NeedsChunk, hrem, hnil] at hc
    simp at hc
    omega
  · right
    obtain ⟨o', hbody, hmax, hl⟩ := h.writeBody_copy hm hpos hc
    simp only [NeedsChunk, not_or, not_and, not_le] at hc
    exact ⟨_, o', by omega, by omega, hbody, hmax, hl⟩

theorem writeLoop_of_ok {b : List UInt8} {pos toWrite pos' toWrite' : Nat} {o' : Outbox}
    (hw : toWrite ≠ 0) (hb : o.writeBody b pos toWrite = .ok (pos', toWrite') o') :
    o.writeLoop b pos toWrite = o'.writeLoop b pos' toWrite' := by
  rw [writeLoop, dif_neg hw]
  split <;> simp_all

/-- From a state with the layout, the loop of `write b` from `pos` returns. The bytes it writes,
`b.drop pos`, continue the open chunk `cur`: they close the chunks `fresh`, none of them empty,
and leave `cur'` open, which is not empty once anything was written. -/
theorem Layout.writeLoop {b : List UInt8} {pos toWrite : Nat} (h : o.Layout closed cur)
    (hm : o.maxChunkSize < 65536) (hpos : pos + toWrite = b.length) :
    ∃ o' fresh cur', o.writeLoop b pos toWrite = .ok () o' ∧
      o'.maxChunkSize = o.maxChunkSize ∧ o'.Layout (closed ++ fresh) cur' ∧
      (fresh ++ [cur']).flatten = cur ++ b.drop pos ∧ (∀ c ∈ fresh, c ≠ []) ∧
      (cur ≠ [] ∨ toWrite ≠ 0 → cur' ≠ []) := by
  induction pos, toWrite, o using Outbox.writeLoop.induct b generalizing closed cur with
  | case1 pos o =>
    refine ⟨o, [], cur, by simp [Outbox.writeLoop], rfl, by simpa using h, ?_, by simp,
      by simp⟩
    simp [List.drop_of_length_le (by omega : b.length ≤ pos)]
  | case2 pos toWrite o hw pos' toWrite' o' hbody _ ih =>
    rw [writeLoop_of_ok hw hbody]
    rcases h.writeBody hm hpos hw with ⟨hne, hchunk⟩ | ⟨w, o1, hw0, hwle, hcopy, hmax, h1⟩
    · obtain ⟨rfl, rfl, rfl⟩ : pos = pos' ∧ toWrite = toWrite' ∧ o.chunk = o' := by
        simpa [hchunk, and_assoc] using hbody
      obtain ⟨o'', fresh, cur', hrun, hmax', hl, hflat, hfresh, hcur⟩ := ih h.chunk hm hpos
      refine ⟨o'', cur :: fresh, cur', hrun, hmax', by simpa using hl, by simpa using hflat,
        ?_, fun _ => hcur (Or.inr hw)⟩
      simpa [hne] using hfresh
    · obtain ⟨rfl, rfl, rfl⟩ : pos + w = pos' ∧ toWrite - w = toWrite' ∧ o1 = o' := by
        simpa [hcopy, and_assoc] using hbody
      obtain ⟨o'', fresh, cur', hrun, hmax', hl, hflat, hfresh, hcur⟩ := ih h1 (hmax ▸ hm)
        (by omega)
      refine ⟨o'', fresh, cur', hrun, hmax'.trans hmax, hl, ?_, hfresh, fun _ => hcur ?_⟩
      · rw [hflat, List.append_assoc, ← List.drop_drop, List.take_append_drop]
      · left
        simp only [ne_eq, List.append_eq_nil, not_and]
        intro _ hnil
        have := congrArg List.length hnil
        simp at this
        omega
  | case3 pos toWrite o hw e o' hbody =>
    rcases h.writeBody hm hpos hw with ⟨-, hchunk⟩ | ⟨w, o1, -, -, hcopy, -⟩
    · simp [hchunk] at hbody
    · simp [hcopy] at hbody

end Outbox

end Neobolt
