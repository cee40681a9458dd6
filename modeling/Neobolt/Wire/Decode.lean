import Neobolt.Wire.Inbox

/-!
# Reading the chunk framing plainly

What `Inbox` computes, said without its buffer: a message is a two-byte big-endian length, that
many payload bytes, and so on until a zero length. `Inbox` reads each chunk's payload together with
the next length in one `receive` and pops that length off its buffer again; `Wire.Reading` shows
that this is the plain reading below, on every byte stream and however the transport segments it.

## Main definitions

* `splitMessage bytes`: the payload of the first message of `bytes` and the bytes after its
  terminator, or `peerClosed` when `bytes` ends before the terminator.
* `splitMessages n bytes`: `splitMessage` for `n` messages in turn.

## Main results

* `splitMessage_encodeMessage`, `splitMessages_frames`: framed messages read back as themselves.
* `splitMessage_of_cut`: a message cut anywhere before the end of its terminator reads as the
  peer closing.
-/

namespace Neobolt

/-- The plain reading of one message: a length, then that many payload bytes, until a zero
length; `peerClosed` when the bytes end first. -/
def splitMessage : List UInt8 → Except ReadFailure (List UInt8 × List UInt8)
  | hi :: lo :: rest =>
    if readU16 hi lo = 0 then .ok ([], rest)
    else if readU16 hi lo ≤ rest.length then
      (splitMessage (rest.drop (readU16 hi lo))).map fun r =>
        (rest.take (readU16 hi lo) ++ r.1, r.2)
    else .error .peerClosed
  | _ => .error .peerClosed
termination_by bytes => bytes.length
decreasing_by simp only [List.length_drop, List.length_cons]; omega

/-- The plain reading of `n` messages in turn. -/
def splitMessages : Nat → List UInt8 → Except ReadFailure (List (List UInt8) × List UInt8)
  | 0, bytes => .ok ([], bytes)
  | n + 1, bytes => do
    let (p, rest) ← splitMessage bytes
    let (ps, rest) ← splitMessages n rest
    pure (p :: ps, rest)

/-! ## Inverting a result -/

theorem exceptBind_eq_ok {ε α β : Type} {x : Except ε α} {f : α → Except ε β} {y : β} :
    x >>= f = .ok y ↔ ∃ a, x = .ok a ∧ f a = .ok y := by
  cases x <;> simp [Except.ok_bind, Except.error_bind]

theorem exceptMap_eq_ok {ε α β : Type} {x : Except ε α} {f : α → β} {y : β} :
    x.map f = .ok y ↔ ∃ a, x = .ok a ∧ f a = y := by
  cases x <;> simp [Except.map]

theorem exceptMap_eq_error {ε α β : Type} {x : Except ε α} {f : α → β} {e : ε} :
    x.map f = .error e ↔ x = .error e := by
  cases x <;> simp [Except.map]

/-! ## The length bytes -/

theorem readU16_lt (hi lo : UInt8) : readU16 hi lo < 65536 := by
  have : hi.toNat < 256 := hi.toNat_lt_size
  have : lo.toNat < 256 := lo.toNat_lt_size
  simp only [readU16]
  omega

/-- The two bytes of a length are the bytes it was read from. -/
theorem u16Bytes_readU16 (hi lo : UInt8) : u16Bytes (readU16 hi lo) = [hi, lo] := by
  have : hi.toNat < 256 := hi.toNat_lt_size
  have : lo.toNat < 256 := lo.toNat_lt_size
  simp only [u16Bytes, readU16, List.cons.injEq, and_true]
  constructor <;> apply UInt8.toNat.inj <;>
    rw [UInt8.toNat_ofNat_of_lt (show _ < 256 by omega)] <;> omega

/-! ## One lemma per branch -/

variable {hi lo : UInt8} {rest : List UInt8}

theorem splitMessage_of_zero (h : readU16 hi lo = 0) :
    splitMessage (hi :: lo :: rest) = .ok ([], rest) := by
  rw [splitMessage, if_pos h]

theorem splitMessage_of_chunk (h : 0 < readU16 hi lo) (hle : readU16 hi lo ≤ rest.length) :
    splitMessage (hi :: lo :: rest) = (splitMessage (rest.drop (readU16 hi lo))).map fun r =>
      (rest.take (readU16 hi lo) ++ r.1, r.2) := by
  rw [splitMessage, if_neg (by omega), if_pos hle]

theorem splitMessage_of_lt (h : rest.length < readU16 hi lo) :
    splitMessage (hi :: lo :: rest) = .error .peerClosed := by
  rw [splitMessage, if_neg (by omega), if_neg (by omega)]

theorem splitMessage_of_length_lt {bytes : List UInt8} (h : bytes.length < 2) :
    splitMessage bytes = .error .peerClosed := by
  match bytes, h with
  | [], _ => rw [splitMessage.eq_def]
  | [_], _ => rw [splitMessage.eq_def]

/-- A chunk of `1` to `65535` bytes, read off the front of any bytes. -/
theorem splitMessage_encodeChunk {c : List UInt8} (hc : 0 < c.length) (hc' : c.length < 65536)
    (bytes : List UInt8) :
    splitMessage (encodeChunk c ++ bytes) = (splitMessage bytes).map fun r => (c ++ r.1, r.2) := by
  have hlen : readU16 (UInt8.ofNat (c.length / 256)) (UInt8.ofNat (c.length % 256)) = c.length :=
    readU16_u16Bytes hc'
  simp only [encodeChunk, u16Bytes, List.cons_append, List.nil_append]
  rw [splitMessage_of_chunk (by omega) (by simp [hlen]), hlen, List.take_left, List.drop_left]

/-- The plain reader consumes at least the two bytes of a length. -/
theorem splitMessage_length_lt {bytes p r : List UInt8} (h : splitMessage bytes = .ok (p, r)) :
    r.length < bytes.length := by
  induction bytes using splitMessage.induct generalizing p with
  | case1 hi lo rest h0 =>
    rw [splitMessage_of_zero h0] at h
    cases h
    simp only [List.length_cons]
    omega
  | case2 hi lo rest h0 hle ih =>
    rw [splitMessage_of_chunk (Nat.pos_of_ne_zero h0) hle] at h
    obtain ⟨⟨p', r'⟩, h', hr⟩ := exceptMap_eq_ok.mp h
    cases hr
    have := ih h'
    simp only [List.length_drop, List.length_cons] at this ⊢
    omega
  | case3 hi lo rest h0 hlt =>
    rw [splitMessage_of_lt (by omega)] at h
    cases h
  | case4 bytes hshort =>
    match bytes, hshort with
    | [], _ | [_], _ => rw [splitMessage_of_length_lt (by simp)] at h; cases h
    | hi :: lo :: rest, hshort => exact (hshort hi lo rest rfl).elim

/-! ## Framed messages -/

/-- A message framed under chunks of `1` to `65535` bytes reads back as its payload, and the bytes
after its terminator are left. -/
theorem splitMessage_encodeMessage {cs : List (List UInt8)} (hcs : ChunksWithin 65535 cs)
    (more : List UInt8) : splitMessage (encodeMessage cs ++ more) = .ok (cs.flatten, more) := by
  induction cs with
  | nil => exact splitMessage_of_zero rfl
  | cons c cs ih =>
    have hc := hcs c (List.mem_cons_self c cs)
    rw [encodeMessage_cons, List.append_assoc, List.append_assoc,
      ← List.append_assoc (u16Bytes _), show u16Bytes c.length ++ c = encodeChunk c from rfl,
      splitMessage_encodeChunk hc.1 (by omega), ih fun c hc => hcs c (List.mem_cons_of_mem _ hc)]
    rfl

/-- A framed stream, and whatever follows it, reads back as its messages. -/
theorem splitMessages_frames {msgs : List (List UInt8)} {bytes : List UInt8}
    (hf : Frames 65535 msgs bytes) (more : List UInt8) :
    splitMessages msgs.length (bytes ++ more) = .ok (msgs, more) := by
  induction msgs generalizing bytes with
  | nil =>
    obtain ⟨css, hall, rfl⟩ := hf
    cases List.forall₂_nil_right_iff.mp hall
    rfl
  | cons p ps ih =>
    obtain ⟨cs, rest, hv, rfl, hps, rfl⟩ := hf.cons
    simp only [List.length_cons, splitMessages, List.append_assoc,
      splitMessage_encodeMessage hv.2, Except.ok_bind, ih hps]
    rfl

/-- The bytes of a framed message cut before the end of its terminator read as the peer closing:
no prefix of a message is read as a message. -/
theorem splitMessage_of_cut {cs : List (List UInt8)} (hcs : ChunksWithin 65535 cs)
    {t u : List UInt8} (ht : t ++ u = encodeMessage cs) (hu : u ≠ []) :
    splitMessage t = .error .peerClosed := by
  induction cs generalizing t u with
  | nil =>
    -- a prefix of `0x0000` shorter than it
    have : t.length < 2 := by
      have := congrArg List.length ht
      have := List.length_pos.mpr hu
      simp only [List.length_append, encodeMessage_nil, List.length_cons, List.length_nil] at *
      omega
    exact splitMessage_of_length_lt this
  | cons c cs ih =>
    have hc := hcs c (List.mem_cons_self c cs)
    match t, ht with
    | [], _ => exact splitMessage_of_length_lt (by simp)
    | [_], _ => exact splitMessage_of_length_lt (by simp)
    | hi :: lo :: rest, ht =>
      -- the length is the chunk's; the rest holds part of the chunk, or the chunk and a prefix
      -- of the rest of the message
      have ht' : [hi, lo] ++ (rest ++ u) = u16Bytes c.length ++ (c ++ encodeMessage cs) := by
        simpa [encodeMessage_cons] using ht
      obtain ⟨hlen, hrest⟩ := List.append_inj ht' rfl
      have hn : readU16 hi lo = c.length := by
        rw [← readU16_u16Bytes (show c.length < 65536 by omega)]
        simp only [u16Bytes, List.cons.injEq] at hlen
        rw [hlen.1, hlen.2.1]
      by_cases hle : c.length ≤ rest.length
      · obtain ⟨t', rfl⟩ : ∃ t', rest = c ++ t' := by
          have := congrArg (List.take c.length) hrest
          rw [List.take_append_of_le_length hle, List.take_left] at this
          exact ⟨rest.drop c.length, (List.take_append_drop c.length rest).symm.trans
            (by rw [this])⟩
        rw [splitMessage_of_chunk (by omega) (by simp; omega), hn, List.drop_left,
          ih (fun c hc => hcs c (List.mem_cons_of_mem _ hc)) (by simpa using hrest) hu]
        rfl
      · exact splitMessage_of_lt (by omega)

end Neobolt
