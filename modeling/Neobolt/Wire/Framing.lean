import Mathlib.Data.UInt
import Mathlib.Data.List.Basic
import Mathlib.Data.List.Forall2

/-!
# Chunked message framing

The byte-level vocabulary shared by the write side (`Outbox`) and the read side (`Inbox`) of
`neobolt/direct.py`, and the format they agree on.

A Bolt message goes on the wire as one or more chunks, each a two-byte big-endian length `n`
followed by `n` payload bytes, and then the zero-length chunk `0x0000` that ends the message.

## Main definitions

* `structPackH n`: `struct_pack(">H", n)`, which is `none` where Python raises `struct.error`.
* `setSlice data i j x`: the slice assignment `data[i:j] = x` on a `bytearray`.
* `encodeChunk c`, `encodeMessage cs`: one chunk, and one message given as its chunks.
* `ValidChunking m cs`: `cs` is one or more chunks of `1` to `m` bytes.
* `Frames m msgs bytes`: `bytes` is exactly the messages `msgs`, in order, each framed under some
  valid chunking.
* `FramesOpen m msgs pend bytes`: the same, followed by the chunks of an unfinished message.
* `Chunked m msgs pend chunks`: the same on a list of chunks, terminators included.

## Main results

* `readU16_u16Bytes`: reading back the two bytes of a length below `2 ^ 16` gives the length.
* `take_setSlice_of_eq`, `take_setSlice_append`: what a slice assignment does to a prefix.
* `encodeMessage_eq`: a message is its chunks and the terminator, all as length-prefixed chunks.
* `Frames.unique`: a framed stream has one reading.
-/

namespace Neobolt

/-- The two big-endian bytes of `n`, as `struct_pack(">H", n)` writes them for `n < 2 ^ 16`. -/
def u16Bytes (n : Nat) : List UInt8 :=
  [UInt8.ofNat (n / 256), UInt8.ofNat (n % 256)]

/-- `struct_pack(">H", n)`; `none` stands for the `struct.error` Python raises when `n` does not
fit in 16 bits. -/
def structPackH (n : Nat) : Option (List UInt8) :=
  if n < 65536 then some (u16Bytes n) else none

/-- A big-endian 16-bit value read from two bytes, as `Inbox` reads a chunk length. -/
def readU16 (hi lo : UInt8) : Nat :=
  0x100 * hi.toNat + lo.toNat

/-- Python's slice assignment `data[i:j] = x` on a `bytearray`: both bounds are clamped to the
length, and the array grows or shrinks to fit `x`. -/
def setSlice (data : List UInt8) (i j : Nat) (x : List UInt8) : List UInt8 :=
  data.take (min i data.length) ++ x ++ data.drop (max (min i data.length) (min j data.length))

@[simp]
theorem length_u16Bytes (n : Nat) : (u16Bytes n).length = 2 := rfl

@[simp]
theorem u16Bytes_zero : u16Bytes 0 = [0, 0] := rfl

theorem structPackH_of_lt {n : Nat} (h : n < 65536) : structPackH n = some (u16Bytes n) := by
  simp [structPackH, h]

/-- The two bytes of a 16-bit length read back as that length. -/
theorem readU16_u16Bytes {n : Nat} (h : n < 65536) :
    readU16 (UInt8.ofNat (n / 256)) (UInt8.ofNat (n % 256)) = n := by
  simp only [readU16, UInt8.ofNat, UInt8.toNat, BitVec.toNat_ofNat]
  omega

/-- The two bytes of lengths below `2 ^ 16` tell the lengths apart. -/
theorem u16Bytes_injective {n k : Nat} (hn : n < 65536) (hk : k < 65536)
    (h : u16Bytes n = u16Bytes k) : n = k := by
  simp only [u16Bytes, List.cons.injEq, and_true] at h
  rw [← readU16_u16Bytes hn, ← readU16_u16Bytes hk, h.1, h.2]

/-- A slice of `x.length` bytes that starts inside the array: the bytes before it are kept, `x`
replaces as many bytes as it has, and the rest follows. -/
theorem setSlice_eq {data x : List UInt8} {i j : Nat} (h : i ≤ data.length)
    (hj : j = i + x.length) : setSlice data i j x = data.take i ++ x ++ data.drop j := by
  subst hj
  rw [setSlice, Nat.min_eq_left h]
  by_cases hj : i + x.length ≤ data.length
  · rw [Nat.min_eq_left hj, Nat.max_eq_right (by omega)]
  · rw [Nat.min_eq_right (by omega), Nat.max_eq_right h, List.drop_length,
      List.drop_of_length_le (by omega)]

theorem le_length_setSlice {data x : List UInt8} {i j : Nat} (h : i ≤ data.length)
    (hj : j = i + x.length) : j ≤ (setSlice data i j x).length := by
  rw [setSlice_eq h hj]
  simp only [List.length_append, List.length_take]
  omega

theorem length_setSlice_of_le {data x : List UInt8} {i j : Nat} (hj : j = i + x.length)
    (hle : j ≤ data.length) : (setSlice data i j x).length = data.length := by
  rw [setSlice_eq (by omega) hj]
  simp only [List.length_append, List.length_take, List.length_drop]
  omega

/-- Writing `x` at `i ≤ data.length` leaves the first `i` bytes, then `x`. -/
theorem take_setSlice_append {data x : List UInt8} {i j : Nat} (h : i ≤ data.length)
    (hj : j = i + x.length) : (setSlice data i j x).take j = data.take i ++ x := by
  rw [setSlice_eq h hj, List.append_assoc, List.take_append_eq_append_take]
  simp [Nat.min_eq_left h, hj]

/-- Overwriting the bytes `b` of a prefix `a ++ b ++ c` with as many bytes `x`. -/
theorem take_setSlice_of_eq {data a b c x : List UInt8} {i j k : Nat} (hk : k ≤ data.length)
    (hd : data.take k = a ++ b ++ c) (hb : b.length = x.length) (hi : i = a.length)
    (hj : j = i + x.length) : (setSlice data i j x).take k = a ++ x ++ c := by
  subst hi hj
  have hlen : k = a.length + b.length + c.length := by
    have := congrArg List.length hd
    simp only [List.length_take, List.length_append, Nat.min_eq_left hk] at this
    omega
  have ha : data.take a.length = a := by
    have := congrArg (List.take a.length) hd
    rwa [List.take_take, Nat.min_eq_left (by omega), List.append_assoc, List.take_left] at this
  have hc : (data.drop (a.length + x.length)).take (k - (a.length + x.length)) = c := by
    rw [← List.drop_take, hd, ← hb]
    exact List.drop_left' (by simp)
  rw [setSlice_eq (by omega) rfl, ha, List.take_append_eq_append_take,
    List.take_of_length_le (by simp; omega)]
  simpa using hc

/-- A chunk on the wire: its length as two big-endian bytes, then its payload. -/
def encodeChunk (c : List UInt8) : List UInt8 :=
  u16Bytes c.length ++ c

/-- A message on the wire: its chunks, then the zero-length terminator `0x0000`. -/
def encodeMessage (cs : List (List UInt8)) : List UInt8 :=
  (cs.map encodeChunk).flatten ++ [0, 0]

/-- One or more chunks, each of `1` to `m` bytes: how a sender may split one message. -/
def ValidChunking (m : Nat) (cs : List (List UInt8)) : Prop :=
  cs ≠ [] ∧ ∀ c ∈ cs, 0 < c.length ∧ c.length ≤ m

/-- `bytes` is exactly the messages `msgs` in order, each framed under some valid chunking of its
bytes: nothing comes before, between or after them. -/
def Frames (m : Nat) (msgs : List (List UInt8)) (bytes : List UInt8) : Prop :=
  ∃ css : List (List (List UInt8)),
    List.Forall₂ (fun cs msg => ValidChunking m cs ∧ cs.flatten = msg) css msgs ∧
      bytes = (css.map encodeMessage).flatten

/-- The first message of a framed stream, and the framed rest. -/
theorem Frames.cons {m : Nat} {p : List UInt8} {ps : List (List UInt8)} {bytes : List UInt8}
    (h : Frames m (p :: ps) bytes) :
    ∃ cs rest, ValidChunking m cs ∧ cs.flatten = p ∧ Frames m ps rest ∧
      bytes = encodeMessage cs ++ rest := by
  obtain ⟨css, hall, rfl⟩ := h
  cases hall with
  | cons hcs hrest => exact ⟨_, _, hcs.1, hcs.2, ⟨_, hrest, rfl⟩, rfl⟩

@[simp]
theorem encodeChunk_nil : encodeChunk [] = [0, 0] := rfl

/-- The terminator is the encoding of the empty chunk. -/
theorem encodeMessage_eq (cs : List (List UInt8)) :
    encodeMessage cs = ((cs ++ [[]]).map encodeChunk).flatten := by
  simp [encodeMessage]

@[simp]
theorem encodeMessage_nil : encodeMessage [] = [0, 0] := rfl

theorem encodeMessage_cons (c : List UInt8) (cs : List (List UInt8)) :
    encodeMessage (c :: cs) = u16Bytes c.length ++ c ++ encodeMessage cs := by
  simp [encodeMessage, encodeChunk]

/-- A message's framing is longer than its number of chunks, and holds at least the terminator. -/
theorem length_lt_length_encodeMessage (cs : List (List UInt8)) :
    cs.length + 1 < (encodeMessage cs).length := by
  induction cs with
  | nil => simp
  | cons c cs ih => simp only [encodeMessage_cons, List.length_append, length_u16Bytes,
      List.length_cons]; omega

/-- Every payload byte of a message appears in its framing. -/
theorem mem_encodeMessage {cs : List (List UInt8)} {x : UInt8} (h : x ∈ cs.flatten) :
    x ∈ encodeMessage cs := by
  obtain ⟨c, hc, hx⟩ := List.mem_flatten.mp h
  exact List.mem_append_left _ (List.mem_flatten.mpr ⟨encodeChunk c, List.mem_map_of_mem _ hc,
    List.mem_append_right _ hx⟩)

/-! ## Unfinished messages and the uniqueness of framing -/

variable {m : Nat}

/-- Chunks of `1` to `m` bytes, none of them a terminator. -/
def ChunksWithin (m : Nat) (cs : List (List UInt8)) : Prop :=
  ∀ c ∈ cs, 0 < c.length ∧ c.length ≤ m

/-- The chunks `chunks`, terminators included, are the messages `msgs`, each under a valid
chunking and ended by the empty chunk, and then the chunks of an unfinished message `pend`. -/
def Chunked (m : Nat) (msgs : List (List UInt8)) (pend : List UInt8)
    (chunks : List (List UInt8)) : Prop :=
  ∃ css cs, List.Forall₂ (fun cs msg => ValidChunking m cs ∧ cs.flatten = msg) css msgs ∧
    ChunksWithin m cs ∧ cs.flatten = pend ∧ chunks = (css.map (· ++ [[]])).flatten ++ cs

/-- `bytes` is the messages `msgs`, framed, and then the bytes `pend` of a message not yet ended,
as chunks of `1` to `m` bytes with no terminator. -/
def FramesOpen (m : Nat) (msgs : List (List UInt8)) (pend : List UInt8) (bytes : List UInt8) :
    Prop :=
  ∃ pre cs, Frames m msgs pre ∧ ChunksWithin m cs ∧ cs.flatten = pend ∧
    bytes = pre ++ (cs.map encodeChunk).flatten

variable {msgs : List (List UInt8)} {pend bytes : List UInt8} {chunks : List (List UInt8)}

theorem chunked_nil : Chunked m [] [] [] :=
  ⟨[], [], .nil, by simp [ChunksWithin], rfl, rfl⟩

/-- More chunks of the unfinished message. -/
theorem Chunked.extend (h : Chunked m msgs pend chunks) {cs : List (List UInt8)}
    (hcs : ChunksWithin m cs) : Chunked m msgs (pend ++ cs.flatten) (chunks ++ cs) := by
  obtain ⟨css, cs₀, hall, hcs₀, rfl, rfl⟩ := h
  refine ⟨css, cs₀ ++ cs, hall, fun c hc => ?_, by simp, by simp⟩
  rcases List.mem_append.mp hc with hc | hc
  · exact hcs₀ c hc
  · exact hcs c hc

/-- The terminator ends the unfinished message, if it has a byte. -/
theorem Chunked.close (h : Chunked m msgs pend chunks) (hne : pend ≠ []) :
    Chunked m (msgs ++ [pend]) [] (chunks ++ [[]]) := by
  obtain ⟨css, cs, hall, hcs, rfl, rfl⟩ := h
  have hcsne : cs ≠ [] := by rintro rfl; exact hne rfl
  exact ⟨css ++ [cs], [], List.rel_append hall (.cons ⟨⟨hcsne, hcs⟩, rfl⟩ .nil),
    by simp [ChunksWithin], rfl, by simp⟩

/-- The chunks on the wire. -/
theorem Chunked.framesOpen (h : Chunked m msgs pend chunks) :
    FramesOpen m msgs pend (chunks.map encodeChunk).flatten := by
  obtain ⟨css, cs, hall, hcs, rfl, rfl⟩ := h
  refine ⟨(css.map encodeMessage).flatten, cs, ⟨css, hall, rfl⟩, hcs, rfl, ?_⟩
  simp [encodeMessage_eq, List.map_flatten, List.flatten_flatten, Function.comp_def]
  rfl

/-- With nothing unfinished, the stream is framed messages. -/
theorem FramesOpen.frames (h : FramesOpen m msgs [] bytes) : Frames m msgs bytes := by
  obtain ⟨pre, cs, hf, hcs, hflat, rfl⟩ := h
  cases cs with
  | nil => simpa using hf
  | cons c cs =>
    have := (hcs c (by simp)).1
    simp_all

/-- A chunk whose length fits in two bytes is told apart from what follows it. -/
theorem encodeChunk_append_inj {c c' rest rest' : List UInt8} (hc : c.length < 65536)
    (hc' : c'.length < 65536) (h : encodeChunk c ++ rest = encodeChunk c' ++ rest') :
    c = c' ∧ rest = rest' := by
  simp only [encodeChunk, List.append_assoc] at h
  obtain ⟨hu, h⟩ := List.append_inj h (by simp)
  exact List.append_inj h (u16Bytes_injective hc hc' hu)

/-- Framing is unambiguous: a message's chunks, each of `1` to `m < 2 ^ 16` bytes, are told apart
from what follows the message. -/
theorem encodeMessage_append_inj (hm : m < 65536) {cs cs' : List (List UInt8)}
    {rest rest' : List UInt8} (hcs : ChunksWithin m cs) (hcs' : ChunksWithin m cs')
    (h : encodeMessage cs ++ rest = encodeMessage cs' ++ rest') : cs = cs' ∧ rest = rest' := by
  have hcons : ∀ c cs rest,
      encodeMessage (c :: cs) ++ rest = encodeChunk c ++ (encodeMessage cs ++ rest) :=
    fun c cs rest => by simp [encodeMessage_cons, encodeChunk]
  induction cs generalizing cs' with
  | nil =>
    cases cs' with
    | nil => simpa using h
    | cons c' cs' =>
      have hc' := hcs' c' (by simp)
      rw [hcons, show encodeMessage [] ++ rest = encodeChunk [] ++ rest from rfl] at h
      have := (encodeChunk_append_inj (by simp) (by omega) h).1
      simp [← this] at hc'
  | cons c cs ih =>
    have hc := hcs c (by simp)
    cases cs' with
    | nil =>
      rw [hcons, show encodeMessage [] ++ rest' = encodeChunk [] ++ rest' from rfl] at h
      have := (encodeChunk_append_inj (by omega) (by simp) h).1
      simp [this] at hc
    | cons c' cs' =>
      have hc' := hcs' c' (by simp)
      rw [hcons, hcons] at h
      obtain ⟨rfl, h2⟩ := encodeChunk_append_inj (by omega) (by omega) h
      obtain ⟨rfl, rfl⟩ := @ih cs' (fun c hc => hcs c (by simp [hc]))
        (fun c hc => hcs' c (by simp [hc])) h2
      exact ⟨rfl, rfl⟩

/-- A framed stream has one reading: the messages are determined by the bytes, when chunk lengths
fit in two bytes. -/
theorem Frames.unique (hm : m < 65536) {msgs msgs' : List (List UInt8)} {bytes : List UInt8}
    (h : Frames m msgs bytes) (h' : Frames m msgs' bytes) : msgs = msgs' := by
  induction msgs generalizing msgs' bytes with
  | nil =>
    obtain ⟨css, hall, rfl⟩ := h
    cases List.forall₂_nil_right_iff.mp hall
    cases msgs' with
    | nil => rfl
    | cons p ps =>
      obtain ⟨cs, rest, -, -, -, h⟩ := h'.cons
      simp [encodeMessage] at h
  | cons p ps ih =>
    obtain ⟨cs, rest, hv, rfl, hps, rfl⟩ := h.cons
    cases msgs' with
    | nil =>
      obtain ⟨css, hall, h⟩ := h'
      cases List.forall₂_nil_right_iff.mp hall
      simp [encodeMessage] at h
    | cons p' ps' =>
      obtain ⟨cs', rest', hv', rfl, hps', h⟩ := h'.cons
      obtain ⟨rfl, rfl⟩ := encodeMessage_append_inj hm (fun c hc => hv.2 c hc)
        (fun c hc => hv'.2 c hc) h
      rw [ih hps hps']

end Neobolt
