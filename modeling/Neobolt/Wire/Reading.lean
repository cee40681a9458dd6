import Neobolt.Wire.Decode
import Neobolt.Wire.OutboxMessages

/-!
# What `next(inbox)` reads, on every byte stream

`Wire.Inbox` follows `_yield_messages` and its chunk loader through a stream of framed messages.
This module follows them through any stream at all, however the transport segments it: a stream
whose lengths run past its end, or that ends inside a message, is read as `Wire.Decode` reads it
plainly, error for error. Over the framing the `Outbox` writes, the two ends then round-trip.

## Main results

* `Inbox.readPayloads_eq_splitMessages`: `k` calls of `next(inbox)` return what the plain reader
  returns for `k` messages, and leave in the socket what it leaves.
* `Inbox.nextPayload_of_truncated`: a peer that closes inside a message makes `next(inbox)` fail;
  no prefix of a message reaches the unpacker.
* `Inbox.readPayloads_appendMessages`: messages written to a fresh or cleared `Outbox` are read
  back whole from its view.
-/

namespace Neobolt

variable {b : Buffer} {s : Socket}

/-! ## The transport is never touched -/

theorem Socket.segment_of_recvInto {n : Nat} {got : List UInt8} {s' : Socket}
    (h : s.recvInto n = .ok (got, s')) : s'.segment = s.segment := by
  unfold Socket.recvInto at h
  split at h
  · cases h; rfl
  · cases h

/-- `receiveLoop` leaves the segmentation of the stream as it was. -/
theorem receiveLoop_segment {stop : Nat} {b' : Buffer} {s' : Socket}
    (h : receiveLoop stop b s = .ok (b', s')) : s'.segment = s.segment := by
  induction b, s using receiveLoop.induct stop with
  | case1 b s hlt got s1 hrecv hgot =>
    rw [receiveLoop, if_pos hlt, hrecv] at h
    simp [hgot] at h
  | case2 b s hlt got s1 hrecv hgot ih =>
    rw [receiveLoop, if_pos hlt, hrecv] at h
    simp only [hgot, if_false] at h
    rw [ih h, Socket.segment_of_recvInto hrecv]
  | case3 b s hlt e hrecv =>
    rw [receiveLoop, if_pos hlt, hrecv] at h
    cases h
  | case4 b s hlt =>
    rw [receiveLoop, if_neg hlt] at h
    cases h
    rfl

theorem receive_segment {n : Nat} {b' : Buffer} {s' : Socket}
    (h : receive n b s = .ok (b', s')) : s'.segment = s.segment :=
  receiveLoop_segment h

/-! ## A stream that ends early -/

/-- With fewer bytes pending than `receiveLoop` still waits for, it takes them all, and then a
`recv_into` call returns no bytes: `on_error` raises. -/
theorem receiveLoop_of_short {stop : Nat} (hs : s.Delivering)
    (hpend : s.pending.length < stop - b.used) : receiveLoop stop b s = .error .peerClosed := by
  obtain ⟨n, hn⟩ : ∃ n, s.pending.length = n := ⟨_, rfl⟩
  induction n using Nat.strong_induction_on generalizing b s with
  | _ n ih =>
    obtain ⟨k, hk, hseg⟩ := hs s.calls
    rw [receiveLoop, if_pos (by omega)]
    simp only [Socket.recvInto, hseg, List.length_take]
    split_ifs with h0
    · rfl
    · refine ih _ ?_ (fun j => hs j) ?_ rfl <;> simp only [List.length_drop] <;> omega

theorem receive_of_short {n : Nat} (hs : s.Delivering) (h : s.pending.length < n) :
    receive n b s = .error .peerClosed :=
  receiveLoop_of_short hs (by simpa using h)

namespace Inbox

/-! ## The reader never touches the transport -/

theorem popChunk_segment {i : Inbox} (h : popChunk b s = .ok i) : i.socket.segment = s.segment := by
  simp only [popChunk] at h
  split at h
  · obtain ⟨⟨b', s'⟩, hr, h⟩ := exceptBind_eq_ok.mp h
    cases h
    exact receive_segment hr
  · cases h
    rfl

theorem loadChunk_segment {i i' : Inbox} (h : i.loadChunk = .ok i') :
    i'.socket.segment = i.socket.segment := by
  simp only [loadChunk] at h
  split at h
  · obtain ⟨⟨b', s'⟩, hr, h⟩ := exceptBind_eq_ok.mp h
    exact (popChunk_segment h).trans (receive_segment hr)
  · exact popChunk_segment h

/-- The message loop stops only at a zero length, and leaves the transport as it was. -/
theorem assemble_ok {fuel : Nat} {i i' : Inbox} (h : assemble fuel i = .ok i') :
    i'.chunkSize = 0 ∧ i'.socket.segment = i.socket.segment := by
  induction fuel generalizing i with
  | zero => cases h
  | succ fuel ih =>
    obtain ⟨i1, h1, h⟩ := exceptBind_eq_ok.mp (assemble_succ fuel i ▸ h)
    rw [← loadChunk_segment h1]
    simp only [continueAssembly] at h
    split at h
    · cases h
      exact ⟨‹_›, rfl⟩
    · exact ih h

/-! ## One message, on any stream -/

/-- The chunk loop from before a `pop_u16()`, with the payload `acc` read so far and then the
length bytes `hi lo` in the buffer, reads what the plain reader reads after those bytes: the same
payload and rest, or the same failure. -/
theorem popChunk_continueAssembly_map {fuel : Nat} {acc : List UInt8} {hi lo : UInt8}
    (hb : b.used ≤ b.data.length) (ht : b.data.take b.used = acc ++ [hi, lo])
    (hs : s.Delivering) (hfuel : s.pending.length ≤ fuel) :
    (popChunk b s >>= continueAssembly fuel).map
        (fun i => (i.buffer.data.take i.buffer.used, i.socket.pending)) =
      (splitMessage (hi :: lo :: s.pending)).map fun r => (acc ++ r.1, r.2) := by
  induction fuel using Nat.strong_induction_on generalizing b s acc hi lo with
  | _ fuel ih =>
    have hpop : popU16 b = ((readU16 hi lo : Int), { b with used := acc.length }) :=
      popU16_spec (readU16_lt hi lo) hb (by rw [u16Bytes_readU16]; exact ht)
    have hused : b.used = acc.length + 2 := by
      simpa [Nat.min_eq_left hb] using congrArg List.length ht
    have hacc : b.data.take acc.length = acc := by
      simpa [List.take_take, hused] using congrArg (List.take acc.length) ht
    rcases Nat.eq_zero_or_pos (readU16 hi lo) with h0 | hpos
    · -- the terminator: the message ends here
      rw [splitMessage_of_zero h0]
      simp [popChunk, hpop, h0, continueAssembly, pure, Except.pure, Except.map, hacc]
    by_cases hle : readU16 hi lo + 2 ≤ s.pending.length
    · -- a whole chunk and the next length are there
      obtain ⟨b', s', hrecv, hused', hle', htake, hpend, hseg⟩ :=
        @receive_spec { b with used := acc.length } s (readU16 hi lo + 2) hs
          (by dsimp only; omega) hle
      dsimp only at hused' htake
      obtain ⟨hi', lo', r, hd⟩ : ∃ hi' lo' r, s.pending.drop (readU16 hi lo) = hi' :: lo' :: r := by
        have hlen : 2 ≤ (s.pending.drop (readU16 hi lo)).length := by simp; omega
        match s.pending.drop (readU16 hi lo), hlen with
        | hi' :: lo' :: r, _ => exact ⟨hi', lo', r, rfl⟩
      have hpop' : popChunk b s = .ok ⟨b', s', readU16 hi lo⟩ := by
        simp [popChunk, hpop, hpos, hrecv]
      have hrlen : r.length + 2 = s.pending.length - readU16 hi lo := by
        simpa using (congrArg List.length hd).symm
      obtain ⟨fuel, rfl⟩ : ∃ f, fuel = f + 1 := ⟨fuel - 1, by omega⟩
      have hs' : s'.pending = r := by
        rw [hpend, ← List.drop_drop, hd]
        rfl
      have ht' : b'.data.take b'.used = (acc ++ s.pending.take (readU16 hi lo)) ++ [hi', lo'] := by
        rw [htake, hacc, List.take_add, hd, List.append_assoc]
        rfl
      rw [hpop', Except.ok_bind, continueAssembly, if_neg (by simp; omega), assemble_succ,
        loadChunk_of_ne (by simp; omega),
        ih fuel (by omega) hle' ht' (fun j => hseg ▸ hs j) (by rw [hs']; omega),
        splitMessage_of_chunk hpos (by omega), hd, hs']
      cases splitMessage (hi' :: lo' :: r) <;> simp [Except.map]
    · -- the stream ends inside the chunk or its next length
      have hpop' : popChunk b s = .error .peerClosed := by
        simp [popChunk, hpop, hpos, receive_of_short hs (show s.pending.length < readU16 hi lo + 2 by omega)]
      rw [hpop']
      by_cases hlt : s.pending.length < readU16 hi lo
      · rw [splitMessage_of_lt hlt]
        rfl
      · rw [splitMessage_of_chunk hpos (by omega), splitMessage_of_length_lt (by simp; omega)]
        rfl

/-- `next(inbox)` from a message boundary returns what the plain reader returns for one message,
and leaves in the socket what it leaves, however the transport segments the stream. -/
theorem nextPayload_map {fuel : Nat} {i : Inbox} (h0 : i.chunkSize = 0) (hs : i.socket.Delivering)
    (hfuel : i.socket.pending.length < fuel) :
    (i.nextPayload fuel).map (fun r => (r.1, r.2.socket.pending)) = splitMessage i.socket.pending := by
  obtain ⟨fuel, rfl⟩ : ∃ f, fuel = f + 1 := ⟨fuel - 1, by omega⟩
  have hload : i.resetBuffer.loadChunk =
      receive 2 { i.buffer with used := 0 } i.socket >>= fun r => popChunk r.1 r.2 := by
    simp [loadChunk, resetBuffer, h0]
  rw [nextPayload, assemble_succ, hload]
  match hp : i.socket.pending with
  | hi :: lo :: rest =>
    obtain ⟨b, s, hrecv, -, hle, htake, hpend, hseg⟩ :=
      @receive_spec { i.buffer with used := 0 } i.socket 2 hs (Nat.zero_le _) (by simp [hp])
    have hloop := popChunk_continueAssembly_map hle
      (show b.data.take b.used = [] ++ [hi, lo] by simpa [hp] using htake) (fun j => hseg ▸ hs j)
      (show s.pending.length ≤ fuel by
        rw [hpend, hp]; simp only [hp, List.length_cons] at hfuel; simp; omega)
    rw [hpend, hp] at hloop
    simp only [List.nil_append, List.drop_succ_cons, List.drop_zero] at hloop
    rw [hrecv, Except.ok_bind]
    revert hloop
    cases popChunk b s >>= continueAssembly fuel <;> cases splitMessage (hi :: lo :: rest) <;>
      simp [Except.map, pure, Except.pure, Except.ok_bind, Except.error_bind]
  | [] | [_] =>
    rw [receive_of_short hs (by simp [hp]), splitMessage_of_length_lt (by simp)]
    rfl

section Boundary

variable {fuel : Nat} {i : Inbox} (h0 : i.chunkSize = 0) (hs : i.socket.Delivering)
  (hfuel : i.socket.pending.length < fuel)
include h0 hs hfuel

/-- Where the plain reader finds a message, `next(inbox)` returns it and stands at the next
message boundary, on the same transport. -/
theorem nextPayload_of_splitMessage {p r : List UInt8}
    (h : splitMessage i.socket.pending = .ok (p, r)) :
    ∃ i', i.nextPayload fuel = .ok (p, i') ∧ i'.chunkSize = 0 ∧ i'.socket.pending = r ∧
      i'.socket.Delivering := by
  obtain ⟨⟨p', i'⟩, hnext, hpr⟩ := exceptMap_eq_ok.mp ((nextPayload_map h0 hs hfuel).trans h)
  cases hpr
  obtain ⟨i1, hrun, hi'⟩ := exceptBind_eq_ok.mp hnext
  cases hi'
  obtain ⟨h0', hseg⟩ := assemble_ok hrun
  exact ⟨_, hnext, h0', rfl, fun j => hseg ▸ hs j⟩

/-- Where the plain reader fails, `next(inbox)` fails the same way. -/
theorem nextPayload_of_splitMessage_error {e : ReadFailure}
    (h : splitMessage i.socket.pending = .error e) : i.nextPayload fuel = .error e :=
  exceptMap_eq_error.mp ((nextPayload_map h0 hs hfuel).trans h)

end Boundary

/-- `k` calls of `next(inbox)` return the messages the plain reader finds, and leave what it
leaves. -/
theorem readPayloads_of_splitMessages {fuel k : Nat} {i : Inbox} (h0 : i.chunkSize = 0)
    (hs : i.socket.Delivering) (hfuel : i.socket.pending.length < fuel)
    {ps : List (List UInt8)} {r : List UInt8} (h : splitMessages k i.socket.pending = .ok (ps, r)) :
    ∃ i', readPayloads fuel k i = .ok (ps, i') ∧ i'.socket.pending = r := by
  induction k generalizing i ps with
  | zero =>
    cases h
    exact ⟨i, rfl, rfl⟩
  | succ k ih =>
    obtain ⟨⟨p, rest⟩, h1, h⟩ := exceptBind_eq_ok.mp h
    obtain ⟨⟨ps', r'⟩, h2, h⟩ := exceptBind_eq_ok.mp h
    cases h
    obtain ⟨i1, hnext, h01, hp1, hs1⟩ := nextPayload_of_splitMessage h0 hs hfuel h1
    have hlt := splitMessage_length_lt h1
    obtain ⟨i', hrun, hp'⟩ := ih h01 hs1 (by rw [hp1]; omega) (hp1 ▸ h2)
    exact ⟨i', by simp [readPayloads, hnext, hrun], hp'⟩

/-- Where the plain reader fails within `k` messages, so do `k` calls of `next(inbox)`. -/
theorem readPayloads_of_splitMessages_error {fuel k : Nat} {i : Inbox} (h0 : i.chunkSize = 0)
    (hs : i.socket.Delivering) (hfuel : i.socket.pending.length < fuel) {e : ReadFailure}
    (h : splitMessages k i.socket.pending = .error e) : readPayloads fuel k i = .error e := by
  induction k generalizing i with
  | zero => cases h
  | succ k ih =>
    simp only [splitMessages] at h
    cases h1 : splitMessage i.socket.pending with
    | error e' =>
      rw [h1] at h
      cases h
      simp [readPayloads, nextPayload_of_splitMessage_error h0 hs hfuel h1]
    | ok x =>
      obtain ⟨p, rest⟩ := x
      obtain ⟨i1, hnext, h01, hp1, hs1⟩ := nextPayload_of_splitMessage h0 hs hfuel h1
      have hlt := splitMessage_length_lt h1
      rw [h1, Except.ok_bind] at h
      cases h2 : splitMessages k rest with
      | error e' =>
        rw [h2] at h
        cases h
        simp [readPayloads, hnext, ih h01 hs1 (by rw [hp1]; omega) (hp1 ▸ h2)]
      | ok y =>
        rw [h2] at h
        cases h

/-- However the transport segments the stream, and whatever the stream holds, `k` calls of
`next(inbox)` from a message boundary return exactly what the plain reader of the chunk framing
returns for `k` messages, and leave in the socket exactly what it leaves: the same messages, or
the same failure. -/
theorem readPayloads_eq_splitMessages {fuel k : Nat} {i : Inbox} (h0 : i.chunkSize = 0)
    (hs : i.socket.Delivering) (hfuel : i.socket.pending.length < fuel) :
    (readPayloads fuel k i).map (fun r => (r.1, r.2.socket.pending)) =
      splitMessages k i.socket.pending := by
  cases h : splitMessages k i.socket.pending with
  | error e => rw [readPayloads_of_splitMessages_error h0 hs hfuel h]; rfl
  | ok x =>
    obtain ⟨ps, r⟩ := x
    obtain ⟨i', hrun, hp⟩ := readPayloads_of_splitMessages h0 hs hfuel h
    rw [hrun, ← hp]
    rfl

/-- A message `[7]` and then three bytes of a message that promises five, delivered one byte per
`recv_into` call: two calls of `next(inbox)` fail as the plain reader does. -/
theorem readPayloads_eq_splitMessages_byteAtATime :
    (Socket.Delivering ⟨[0, 1, 7, 0, 0, 0, 5, 1], fun _ => some 1, 0⟩ ∧ 8 < 9) ∧
    (readPayloads 9 2 ⟨⟨[], 0⟩, ⟨[0, 1, 7, 0, 0, 0, 5, 1], fun _ => some 1, 0⟩, 0⟩).map
        (fun r => (r.1, r.2.socket.pending)) = splitMessages 2 [0, 1, 7, 0, 0, 0, 5, 1] :=
  have hs : Socket.Delivering ⟨[0, 1, 7, 0, 0, 0, 5, 1], fun _ => some 1, 0⟩ :=
    fun _ => ⟨1, by decide, rfl⟩
  ⟨⟨hs, by decide⟩, readPayloads_eq_splitMessages rfl hs (by decide)⟩

/-- A peer that closes the connection inside a message, before the end of its terminator, makes
`next(inbox)` fail with the peer closing, however the transport segments what it did send: no
prefix of a message reaches the unpacker. -/
theorem nextPayload_of_truncated {fuel : Nat} {i : Inbox} (h0 : i.chunkSize = 0)
    (hs : i.socket.Delivering) (hfuel : i.socket.pending.length < fuel)
    {cs : List (List UInt8)} (hcs : ChunksWithin 65535 cs) {u : List UInt8}
    (hp : i.socket.pending ++ u = encodeMessage cs) (hu : u ≠ []) :
    i.nextPayload fuel = .error .peerClosed :=
  nextPayload_of_splitMessage_error h0 hs hfuel (splitMessage_of_cut hcs hp hu)

/-- The message `[1, 2, 3]` sent as the chunks `[1, 2]` and `[3]`, of which the peer sent all but
the last byte of the terminator. -/
theorem nextPayload_of_truncated_lastByte :
    (Socket.Delivering ⟨[0, 2, 1, 2, 0, 1, 3, 0], fun _ => some 3, 0⟩ ∧ 8 < 9 ∧
      ChunksWithin 65535 [[1, 2], [3]] ∧
      [0, 2, 1, 2, 0, 1, 3, 0] ++ [0] = encodeMessage [[1, 2], [3]] ∧ [(0 : UInt8)] ≠ []) ∧
    nextPayload 9 ⟨⟨[], 0⟩, ⟨[0, 2, 1, 2, 0, 1, 3, 0], fun _ => some 3, 0⟩, 0⟩ =
      .error .peerClosed :=
  have hs : Socket.Delivering ⟨[0, 2, 1, 2, 0, 1, 3, 0], fun _ => some 3, 0⟩ :=
    fun _ => ⟨3, by decide, rfl⟩
  have hcs : ChunksWithin 65535 [[1, 2], [3]] := by unfold ChunksWithin; decide
  ⟨⟨hs, by decide, hcs, rfl, by simp⟩,
    nextPayload_of_truncated rfl hs (by decide) hcs (u := [0]) rfl (by simp)⟩

end Inbox

/-! ## The two ends of the connection -/

/-- What the writer sends, the reader reads back: messages appended to a fresh `Outbox` with room
for its first length bytes, or to a cleared one, with chunks of at most `65535` bytes, are read
back whole and in order by as many calls of `next(inbox)` from the view, whatever follows the view
and however the transport segments it. -/
theorem readPayloads_appendMessages {m : Nat} (hm0 : 0 < m) (hm : m ≤ 65535) {o : Outbox}
    (hstart : (∃ capacity, 2 ≤ capacity ∧ o = Outbox.init capacity m hm0) ∨
      ∃ o₀ : Outbox, o₀.maxChunkSize = m ∧ o = o₀.clear)
    (msgs : List (List (List UInt8))) (hne : ∀ ws ∈ msgs, ws.flatten ≠ []) :
    ∃ o', Outbox.appendMessages msgs o = .ok () o' ∧
      ∀ (fuel : Nat) (i : Inbox) (more : List UInt8), i.chunkSize = 0 → i.socket.Delivering →
        i.socket.pending = o'.view ++ more → i.socket.pending.length < fuel →
        ∃ i', i.readPayloads fuel msgs.length = .ok (msgs.map List.flatten, i') ∧
          i'.socket.pending = more := by
  obtain ⟨h, hmo⟩ : o.Layout [] [] ∧ o.maxChunkSize = m := by
    rcases hstart with ⟨capacity, hc, rfl⟩ | ⟨o₀, hmax, rfl⟩
    · exact ⟨Outbox.layout_init hm0 hc, rfl⟩
    · exact ⟨Outbox.layout_clear o₀, hmax⟩
  obtain ⟨o', css, hrun, h', hall⟩ := h.appendMessages (by omega) hne
  have hf : Frames 65535 (msgs.map List.flatten) o'.view := by
    refine ⟨css, List.forall₂_map_right_iff.mpr (hall.imp fun cs ws hv =>
      ⟨⟨hv.1.1, fun c hc => ?_⟩, hv.2⟩), ?_⟩
    · rw [h'.view_of_nil]
      simp [List.map_flatten, List.flatten_flatten, encodeMessage, Function.comp_def]
      rfl
    · have := hv.1.2 c hc
      omega
  refine ⟨o', hrun, fun fuel i more h0 hs hp hfuel => ?_⟩
  have hsplit := splitMessages_frames hf more
  rw [List.length_map, ← hp] at hsplit
  exact Inbox.readPayloads_of_splitMessages h0 hs hfuel hsplit

/-- The connection's own `Outbox()` sends the message `[1, 2, 3]`, and the reader gets it back. -/
theorem readPayloads_appendMessages_default :
    (0 < 16384 ∧ 16384 ≤ 65535) ∧ ∃ o', Outbox.appendMessages [[[1, 2], [3]]]
      (Outbox.init 8192 16384 (by decide)) = .ok () o' ∧
      ∀ (fuel : Nat) (i : Inbox) (more : List UInt8), i.chunkSize = 0 → i.socket.Delivering →
        i.socket.pending = o'.view ++ more → i.socket.pending.length < fuel →
        ∃ i', i.readPayloads fuel 1 = .ok ([[1, 2, 3]], i') ∧ i'.socket.pending = more :=
  ⟨by decide, readPayloads_appendMessages (by decide) (by decide) (Or.inl ⟨8192, by decide, rfl⟩) _
    (by decide)⟩

end Neobolt
