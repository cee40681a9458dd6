import Neobolt.Basic
import Neobolt.Wire.Framing

/-!
# Inbox: the read-side framing buffer

`Inbox` (`neobolt/direct.py`) reassembles messages from the socket. Its chunk loader
`_load_chunks` is a generator over a growable buffer `data` with a fill mark `used`: it reads a
two-byte length, pops it off the buffer, and then reads the chunk's payload together with the
next two-byte length in one `receive`, so that a zero length ends the message without a further
read. `_yield_messages` empties the buffer through `Unpacker.reset()`, pulls chunks until the zero
marker, and hands `data[0:used]` to the unpacker.

The socket delivers its pending bytes in whatever pieces the transport chooses: the `i`-th call
of `recv_into` returns at most `segment i` bytes, or raises.

## Main definitions

* `Socket`, `Socket.recvInto`: the read side of the socket.
* `Buffer`, `receive`, `popU16`: the buffer and the two local functions of `_load_chunks`.
* `Inbox`, `Inbox.loadChunk`: one step of the chunk loader, up to its `yield`.
* `Inbox.nextPayload`: `next(inbox)` up to the point where the unpacker starts decoding.
* `Inbox.InMessage`: where the chunk loader stands inside a message, before `pop_u16()`.

## Main results

* `receive_spec`, `popU16_spec`: the two local functions on a buffer and socket in range.
* `Inbox.popChunk_of_cons`, `Inbox.popChunk_of_nil`: one chunk, and the terminator.
* `Inbox.nextPayload_encodeMessage`: from a message boundary, the loop of `_yield_messages` leaves
  exactly the message's payload in the buffer and takes exactly the message off the socket.
* `Inbox.readPayloads_frames`: over a stream of framed messages, however the transport segments
  it, the `k`-th payload handed to the unpacker is the `k`-th message.
-/

namespace Neobolt

/-- What the `i`-th call of `recv_into` does: `some k` delivers at most `k` of the pending bytes,
`none` raises `OSError`. -/
structure Socket where
  /-- The bytes the server has sent that have not been read yet. -/
  pending : List UInt8
  /-- How the transport segments the stream, call by call. -/
  segment : Nat → Option Nat
  /-- The number of `recv_into` calls made so far. -/
  calls : Nat

/-- Why `_load_chunks` calls `on_error`: the peer closed the connection (`recv_into` returned
`0`), or `recv_into` raised `OSError`. `outOfFuel` is the model's bound on the message loop, not
a behaviour of the code. -/
inductive ReadFailure where
  | peerClosed
  | ioError
  | outOfFuel
  deriving DecidableEq, Repr

/-- `socket.recv_into(view, n)`: the bytes it writes into the view, or the `OSError` it raises.
It returns no bytes exactly when nothing is pending. -/
def Socket.recvInto (s : Socket) (n : Nat) : Except ReadFailure (List UInt8 × Socket) :=
  match s.segment s.calls with
  | some k =>
    let got := min n (min k s.pending.length)
    .ok (s.pending.take got, { s with pending := s.pending.drop got, calls := s.calls + 1 })
  | none => .error .ioError

/-- The `Unpackable` buffer that the chunk loader fills. -/
structure Buffer where
  /-- `data`: a `bytearray` that only grows. -/
  data : List UInt8
  /-- `used`: how many bytes of `data` hold received input. -/
  used : Nat

/-- The `while buffer.used < end` loop of `receive`: `recv_into` writes into `data[used:end]`
until it is full; a call that returns no bytes calls `on_error`, which raises. -/
def receiveLoop (stop : Nat) (b : Buffer) (s : Socket) :
    Except ReadFailure (Buffer × Socket) :=
  if b.used < stop then
    match s.recvInto (stop - b.used) with
    | .ok (got, s') =>
      if got.length = 0 then .error .peerClosed
      else receiveLoop stop
        { data := setSlice b.data b.used (b.used + got.length) got,
          used := b.used + got.length } s'
    | .error e => .error e
  else .ok (b, s)
termination_by stop - b.used

/-- `receive(n_bytes)`: grow `data` to hold `n_bytes` more bytes after `used`, then fill them. -/
def receive (n : Nat) (b : Buffer) (s : Socket) : Except ReadFailure (Buffer × Socket) :=
  let stop := b.used + n
  let data := if stop > b.data.length then b.data ++ List.replicate (stop - b.data.length) 0
    else b.data
  receiveLoop stop { b with data } s

/-- `pop_u16()`: the big-endian value of the last two bytes received, which are then dropped from
the buffer; `-1` when fewer than two bytes are there. -/
def popU16 (b : Buffer) : Int × Buffer :=
  if 2 ≤ b.used then
    (readU16 (b.data.getD (b.used - 2) 0) (b.data.getD (b.used - 1) 0),
      { b with used := b.used - 2 })
  else (-1, b)

/-- The state of the message generator `_yield_messages` between two `next` calls. -/
structure Inbox where
  /-- The buffer shared by the chunk loader and the unpacker. -/
  buffer : Buffer
  /-- The socket the chunk loader reads from. -/
  socket : Socket
  /-- The chunk loader's local `chunk_size`, which is `0` before its first step. -/
  chunkSize : Int

/-! ## Reading within the stream -/

/-- Every `recv_into` call delivers at least one of the pending bytes: the transport cuts the
stream wherever it likes, but does not fail. -/
def Socket.Delivering (s : Socket) : Prop :=
  ∀ j, ∃ k, 0 < k ∧ s.segment j = some k

variable {b : Buffer} {s : Socket}

/-- One pass of `receiveLoop` on a delivering socket: `g ≥ 1` pending bytes arrive. -/
theorem receiveLoop_step {stop : Nat} (hs : s.Delivering) (hlt : b.used < stop)
    (hpend : stop - b.used ≤ s.pending.length) :
    ∃ g, 0 < g ∧ g ≤ stop - b.used ∧ receiveLoop stop b s = receiveLoop stop
      { data := setSlice b.data b.used (b.used + g) (s.pending.take g), used := b.used + g }
      { s with pending := s.pending.drop g, calls := s.calls + 1 } := by
  obtain ⟨k, hk, hseg⟩ := hs s.calls
  have hg : (s.pending.take (min (stop - b.used) (min k s.pending.length))).length =
      min (stop - b.used) (min k s.pending.length) := by simp only [List.length_take]; omega
  refine ⟨min (stop - b.used) (min k s.pending.length), by omega, by omega, ?_⟩
  rw [receiveLoop, if_pos hlt]
  simp only [Socket.recvInto, hseg, hg]
  rw [if_neg (by omega)]

/-- `receiveLoop` fills `data[used:stop]` with the next pending bytes, however the transport
segments them. -/
theorem receiveLoop_spec {stop : Nat} (hs : s.Delivering) (hb : b.used ≤ stop)
    (hlen : stop ≤ b.data.length) (hpend : stop - b.used ≤ s.pending.length) :
    ∃ b' s', receiveLoop stop b s = .ok (b', s') ∧ b'.used = stop ∧
      b'.data.length = b.data.length ∧
      b'.data.take stop = b.data.take b.used ++ s.pending.take (stop - b.used) ∧
      s'.pending = s.pending.drop (stop - b.used) ∧ s'.segment = s.segment := by
  obtain ⟨n, hn⟩ : ∃ n, stop - b.used = n := ⟨_, rfl⟩
  induction n using Nat.strong_induction_on generalizing b s with
  | _ n ih =>
    by_cases hlt : b.used < stop
    · obtain ⟨g, hg0, hgle, hstep⟩ := receiveLoop_step hs hlt hpend
      have hglen : (s.pending.take g).length = g := by simp only [List.length_take]; omega
      have hlen1 : (setSlice b.data b.used (b.used + g) (s.pending.take g)).length =
          b.data.length := length_setSlice_of_le (by rw [hglen]) (by omega)
      obtain ⟨b', s', hrun, hused, hlen', htake, hpend', hseg'⟩ :=
        @ih (stop - (b.used + g)) (by omega)
          { data := setSlice b.data b.used (b.used + g) (s.pending.take g), used := b.used + g }
          { s with pending := s.pending.drop g, calls := s.calls + 1 } (fun j => hs j)
          (by dsimp only; omega) (by dsimp only; omega) (by dsimp only; simp; omega) rfl
      dsimp only at hlen' htake hpend' hseg'
      refine ⟨b', s', hstep ▸ hrun, hused, hlen'.trans hlen1, ?_, ?_, hseg'⟩
      · rw [htake, take_setSlice_append (by omega) (by rw [hglen]), List.append_assoc,
          ← List.take_add]
        congr 2
        omega
      · rw [hpend', List.drop_drop]
        congr 1
        omega
    · have : b.used = stop := by omega
      subst this
      exact ⟨b, s, by rw [receiveLoop, if_neg hlt], rfl, rfl, by simp, by simp, rfl⟩

/-- `receive n` on a delivering socket with `n` bytes pending: the buffer gains exactly the next
`n` pending bytes after `used`, and the socket keeps the rest. -/
theorem receive_spec {n : Nat} (hs : s.Delivering) (hb : b.used ≤ b.data.length)
    (hn : n ≤ s.pending.length) :
    ∃ b' s', receive n b s = .ok (b', s') ∧ b'.used = b.used + n ∧ b'.used ≤ b'.data.length ∧
      b'.data.take b'.used = b.data.take b.used ++ s.pending.take n ∧
      s'.pending = s.pending.drop n ∧ s'.segment = s.segment := by
  let data := if b.used + n > b.data.length then
    b.data ++ List.replicate (b.used + n - b.data.length) 0 else b.data
  have hlen : b.used + n ≤ data.length := by
    simp only [data]
    split_ifs
    · simp; omega
    · omega
  have htake : data.take b.used = b.data.take b.used := by
    simp only [data]; split_ifs <;> simp [List.take_append_of_le_length hb]
  obtain ⟨b', s', hrun, hused, hlen', htake', hpend, hseg⟩ :=
    @receiveLoop_spec { b with data } s (b.used + n) hs (Nat.le_add_right _ _) hlen (by simpa using hn)
  dsimp only at hlen' htake'
  simp only [Nat.add_sub_cancel_left] at htake' hpend
  exact ⟨b', s', hrun, hused, by omega, hused ▸ htake'.trans (by rw [← htake]), hpend, hseg⟩

/-- `pop_u16()` on a buffer whose received bytes end with a 16-bit length. -/
theorem popU16_spec {a : List UInt8} {n : Nat} (hn : n < 65536) (hb : b.used ≤ b.data.length)
    (h : b.data.take b.used = a ++ u16Bytes n) : popU16 b = ((n : Int), { b with used := a.length }) := by
  have hused : b.used = a.length + 2 := by
    simpa [Nat.min_eq_left hb] using congrArg List.length h
  have hget (k : Nat) (hk : k < b.used) : b.data.getD k 0 = (a ++ u16Bytes n).getD k 0 := by
    simp only [List.getD_eq_getElem?_getD, ← h, List.getElem?_take_of_lt hk]
  rw [popU16, if_pos (by omega), hget _ (by omega), hget _ (by omega)]
  simp [hused, u16Bytes, List.getElem_append_right, readU16_u16Bytes hn]

namespace Inbox

/-- The second half of a chunk loader step: `chunk_size = pop_u16()`, and for a positive size
`receive(chunk_size + 2)`, which reads the payload together with the next length. -/
def popChunk (b : Buffer) (s : Socket) : Except ReadFailure Inbox :=
  let (chunkSize, b) := popU16 b
  do
    let (b, s) ← if chunkSize > 0 then receive (chunkSize.toNat + 2) b s else pure (b, s)
    pure { buffer := b, socket := s, chunkSize }

/-- One step of the chunk loader `_load_chunks`, up to its `yield chunk_size`: read a length
unless the last step already read it, then `popChunk`. -/
def loadChunk (i : Inbox) : Except ReadFailure Inbox := do
  let (b, s) ← if i.chunkSize = 0 then receive 2 i.buffer i.socket else pure (i.buffer, i.socket)
  popChunk b s

/-- The loop `while chunk_size != 0: chunk_size = next(chunk_loader)` of `_yield_messages`, which
runs at least once. -/
def assemble : Nat → Inbox → Except ReadFailure Inbox
  | 0, _ => .error .outOfFuel
  | fuel + 1, i => do
    let i ← i.loadChunk
    if i.chunkSize = 0 then pure i else assemble fuel i

/-- Modelled from the spec: `Unpacker.reset()`, which the PackStream codec provides, empties the
buffer it reads from. -/
def resetBuffer (i : Inbox) : Inbox :=
  { i with buffer := { i.buffer with used := 0 } }

/-- `next(inbox)` up to the decoding: reset the unpacker, load chunks up to the zero marker, and
hand `data[0:used]` to the unpacker, which reads it from position `0`. -/
def nextPayload (fuel : Nat) (i : Inbox) : Except ReadFailure (List UInt8 × Inbox) := do
  let i ← assemble fuel i.resetBuffer
  pure (i.buffer.data.take i.buffer.used, i)

/-- The payloads of `n` successive `next(inbox)` calls. -/
def readPayloads (fuel : Nat) : Nat → Inbox → Except ReadFailure (List (List UInt8) × Inbox)
  | 0, i => .ok ([], i)
  | n + 1, i => do
    let (p, i) ← i.nextPayload fuel
    let (ps, i) ← readPayloads fuel n i
    pure (p :: ps, i)

/-! ## Assembling one message -/

/-- The chunk loader stands before `pop_u16()` inside a message: the buffer holds the payload
`acc` of the message's chunks read so far and then the length of its next chunk, and the socket
holds the rest of the message's chunks `cs`, its terminator, and then `more`. -/
structure InMessage (b : Buffer) (s : Socket) (acc : List UInt8) (cs : List (List UInt8))
    (more : List UInt8) : Prop where
  used_le : b.used ≤ b.data.length
  take_used : b.data.take b.used = acc ++ (encodeMessage cs).take 2
  pending_eq : s.pending = (encodeMessage cs).drop 2 ++ more
  delivering : s.Delivering

theorem InMessage.used_eq {acc more : List UInt8} {cs : List (List UInt8)}
    (h : InMessage b s acc cs more) : b.used = acc.length + 2 := by
  have := congrArg List.length h.take_used
  have := length_lt_length_encodeMessage cs
  simp only [List.length_take, List.length_append, Nat.min_eq_left h.used_le] at *
  omega

theorem InMessage.take_acc {acc more : List UInt8} {cs : List (List UInt8)}
    (h : InMessage b s acc cs more) : b.data.take acc.length = acc := by
  simpa [List.take_take, h.used_eq] using congrArg (List.take acc.length) h.take_used

/-- The body of the message loop after one chunk loader step. -/
def continueAssembly (fuel : Nat) (i : Inbox) : Except ReadFailure Inbox :=
  if i.chunkSize = 0 then pure i else assemble fuel i

variable {acc more : List UInt8} {c : List UInt8} {cs : List (List UInt8)}

/-- At the terminator, `pop_u16()` reads `0`: the message is complete and nothing more is read. -/
theorem popChunk_of_nil (h : InMessage b s acc [] more) :
    popChunk b s = .ok { buffer := { b with used := acc.length }, socket := s, chunkSize := 0 } := by
  have htake : b.data.take b.used = acc ++ u16Bytes 0 := by simpa using h.take_used
  simp [popChunk, popU16_spec (by decide) h.used_le htake]
  rfl

/-- Inside a message, `popChunk` reads the next chunk's payload and the length after it: the
payload joins `acc`, and not a byte past that length leaves the socket. -/
theorem popChunk_of_cons (h : InMessage b s acc (c :: cs) more) (hc : 0 < c.length)
    (hc' : c.length < 65536) :
    ∃ i, popChunk b s = .ok i ∧ i.chunkSize = c.length ∧
      InMessage i.buffer i.socket (acc ++ c) cs more := by
  have htake : b.data.take b.used = acc ++ u16Bytes c.length := by
    simpa [encodeMessage_cons] using h.take_used
  have hpend : s.pending = c ++ (encodeMessage cs ++ more) := by
    simpa [encodeMessage_cons] using h.pending_eq
  have hused := h.used_eq
  have hE := length_lt_length_encodeMessage cs
  obtain ⟨b', s', hrun, hused', hle, htake', hpend', hseg⟩ :=
    @receive_spec { b with used := acc.length } s (c.length + 2) h.delivering
      (by dsimp only; have := h.used_le; omega) (by rw [hpend]; simp; omega)
  dsimp only at hused' htake'
  refine ⟨⟨b', s', c.length⟩, ?_, rfl, ⟨hle, ?_, ?_, fun j => hseg ▸ h.delivering j⟩⟩
  · simp [popChunk, popU16_spec hc' h.used_le htake, hc, hrun]
  · rw [htake', h.take_acc, hpend, List.take_append_eq_append_take, List.take_of_length_le (by omega),
      List.take_append_of_le_length (by omega)]
    simp
  · rw [hpend', hpend, List.drop_append_eq_append_drop, List.drop_of_length_le (by omega),
      List.drop_append_of_le_length (by omega)]
    simp

theorem assemble_succ (fuel : Nat) (i : Inbox) :
    assemble (fuel + 1) i = i.loadChunk >>= continueAssembly fuel := rfl

theorem loadChunk_of_ne {i : Inbox} (h : i.chunkSize ≠ 0) :
    i.loadChunk = popChunk i.buffer i.socket := by
  simp [loadChunk, h]

/-- From inside a message, the rest of the message loop reads the remaining chunks and the
terminator, and stops there with the whole payload in the buffer. -/
theorem popChunk_continueAssembly {fuel : Nat}
    (hcs : ∀ c ∈ cs, 0 < c.length ∧ c.length < 65536) (hfuel : cs.length ≤ fuel)
    (h : InMessage b s acc cs more) :
    ∃ i, (popChunk b s >>= continueAssembly fuel) = .ok i ∧ i.chunkSize = 0 ∧
      i.buffer.data.take i.buffer.used = acc ++ cs.flatten ∧ i.socket.pending = more ∧
      i.socket.Delivering := by
  induction cs generalizing acc b s fuel with
  | nil =>
    rw [popChunk_of_nil h]
    exact ⟨_, rfl, rfl, by simpa using h.take_acc, by simpa using h.pending_eq, h.delivering⟩
  | cons c cs ih =>
    obtain ⟨hc, hc'⟩ := hcs c (List.mem_cons_self c cs)
    obtain ⟨i, hpop, hsize, hi⟩ := popChunk_of_cons h hc hc'
    obtain ⟨fuel, rfl⟩ : ∃ f, fuel = f + 1 := ⟨fuel - 1, by simp at hfuel; omega⟩
    have hne : i.chunkSize ≠ 0 := by omega
    obtain ⟨i', hrun, hi'⟩ := ih (fun c hc => hcs c (List.mem_cons_of_mem _ hc))
      (by simpa using hfuel) hi
    refine ⟨i', ?_, by simpa using hi'⟩
    rw [hpop]
    show continueAssembly (fuel + 1) i = _
    rw [continueAssembly, if_neg hne, assemble_succ, loadChunk_of_ne hne, hrun]

/-- From a message boundary, `next(inbox)` hands the unpacker exactly the message's payload and
leaves the socket at the next boundary. -/
theorem nextPayload_encodeMessage {fuel : Nat} {i : Inbox} (h0 : i.chunkSize = 0)
    (hs : i.socket.Delivering) (hp : i.socket.pending = encodeMessage cs ++ more)
    (hcs : ∀ c ∈ cs, 0 < c.length ∧ c.length < 65536) (hfuel : cs.length < fuel) :
    ∃ i', i.nextPayload fuel = .ok (cs.flatten, i') ∧ i'.chunkSize = 0 ∧
      i'.socket.pending = more ∧ i'.socket.Delivering := by
  obtain ⟨fuel, rfl⟩ : ∃ f, fuel = f + 1 := ⟨fuel - 1, by omega⟩
  have hE := length_lt_length_encodeMessage cs
  obtain ⟨b, s, hrecv, hused, hle, htake, hpend, hseg⟩ :=
    @receive_spec { i.buffer with used := 0 } i.socket 2 hs (Nat.zero_le _)
      (by rw [hp]; simp; omega)
  dsimp only at hused htake
  have hin : InMessage b s [] cs more :=
    ⟨hle, by simpa [hp, List.take_append_of_le_length (show 2 ≤ (encodeMessage cs).length by
        omega)] using htake,
      by rw [hpend, hp, List.drop_append_of_le_length (show 2 ≤ (encodeMessage cs).length by
        omega)],
      fun j => hseg ▸ hs j⟩
  obtain ⟨i', hrun, h0', htake', hpend', hs'⟩ :=
    popChunk_continueAssembly hcs (show cs.length ≤ fuel by omega) hin
  have hload : i.resetBuffer.loadChunk = popChunk b s := by
    simp [loadChunk, resetBuffer, h0, hrecv]
  refine ⟨i', ?_, h0', hpend', hs'⟩
  rw [nextPayload, assemble_succ, hload, hrun]
  simp [htake']

/-- Over a stream of framed messages with chunks of `1` to `65535` bytes, however the transport
segments it, the first `k` calls of `next(inbox)` hand the unpacker exactly the first `k`
messages, and what is left in the socket is exactly the framing of the other messages. -/
theorem readPayloads_frames {fuel : Nat} {i : Inbox} {payloads : List (List UInt8)}
    {bytes more : List UInt8} (h0 : i.chunkSize = 0) (hs : i.socket.Delivering)
    (hp : i.socket.pending = bytes ++ more) (hf : Frames 65535 payloads bytes)
    (hfuel : bytes.length < fuel) {k : Nat} (hk : k ≤ payloads.length) :
    ∃ i' rest, readPayloads fuel k i = .ok (payloads.take k, i') ∧
      Frames 65535 (payloads.drop k) rest ∧ i'.socket.pending = rest ++ more := by
  induction k generalizing i payloads bytes with
  | zero => exact ⟨i, bytes, rfl, by simpa using hf, hp⟩
  | succ k ih =>
    obtain ⟨p, ps, rfl⟩ : ∃ p ps, payloads = p :: ps := by
      cases payloads with
      | nil => simp at hk
      | cons p ps => exact ⟨p, ps, rfl⟩
    obtain ⟨cs, rest, hv, rfl, hrest, rfl⟩ := hf.cons
    have hE := length_lt_length_encodeMessage cs
    have hlen : (encodeMessage cs ++ rest).length = (encodeMessage cs).length + rest.length :=
      List.length_append _ _
    obtain ⟨i1, hnext, h01, hp1, hs1⟩ := nextPayload_encodeMessage h0 hs
      (by rw [hp, List.append_assoc]) (fun c hc => ⟨(hv.2 c hc).1, by have := (hv.2 c hc).2; omega⟩)
      (show cs.length < fuel by omega)
    obtain ⟨i', rest', hrun, hf', hp'⟩ := ih h01 hs1 hp1 hrest (by omega) (by simpa using hk)
    refine ⟨i', rest', ?_, by simpa using hf', hp'⟩
    simp [readPayloads, hnext, hrun]

/-- A message sent as the chunks `[1, 2]` and `[3]`, delivered one byte per `recv_into` call and
followed by a byte of the next message, is read as `[1, 2, 3]`. -/
theorem readPayloads_frames_byteAtATime :
    (Socket.Delivering ⟨[0, 2, 1, 2, 0, 1, 3, 0, 0, 9], fun _ => some 1, 0⟩ ∧
      Frames 65535 [[1, 2, 3]] [0, 2, 1, 2, 0, 1, 3, 0, 0]) ∧
    ∃ i' rest, readPayloads 10 1
        ⟨⟨[], 0⟩, ⟨[0, 2, 1, 2, 0, 1, 3, 0, 0, 9], fun _ => some 1, 0⟩, 0⟩ =
          .ok ([[1, 2, 3]], i') ∧ Frames 65535 [] rest ∧ i'.socket.pending = rest ++ [9] :=
  have hs : Socket.Delivering ⟨[0, 2, 1, 2, 0, 1, 3, 0, 0, 9], fun _ => some 1, 0⟩ :=
    fun _ => ⟨1, by decide, rfl⟩
  have hf : Frames 65535 [[1, 2, 3]] [0, 2, 1, 2, 0, 1, 3, 0, 0] :=
    ⟨[[[1, 2], [3]]], .cons ⟨⟨by simp, by decide⟩, rfl⟩ .nil, rfl⟩
  ⟨⟨hs, hf⟩, readPayloads_frames rfl hs rfl hf (by decide) (by decide)⟩

end Inbox

end Neobolt
