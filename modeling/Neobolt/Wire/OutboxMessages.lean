import Neobolt.Wire.Outbox

/-!
# Messages through the Outbox

`Connection._append` has the packer write a message into the `Outbox` and then calls `chunk()`
twice: the first call closes the message's last data chunk, the second closes the empty chunk
that ends the message. `send_all` then hands `view()` to the socket in one `sendall`.

This module shows that the view after any sequence of such messages is exactly those messages,
each cut into chunks of `1` to `max_chunk_size` bytes and ended by `0x0000`. The buffer may hold
stale bytes from before a `clear()`; none of them reaches the view. A freshly built `Outbox` needs
room for its first length bytes: with a capacity below two, Python's slice assignment appends the
first payload bytes where the length bytes should go, and the stamp then overwrites them.

## Main definitions

* `Outbox.appendMessage ws`: the `Outbox` side of `Connection._append` for a message whose
  packer makes the `write` calls `ws`.
* `Outbox.appendMessages msgs`: one `appendMessage` per message.

## Main results

* `Outbox.Layout.appendMessage`: one message closes a valid chunking of its bytes and the
  terminator.
* `Outbox.appendMessages_frames`: from a cleared `Outbox`, or a new one with capacity at least
  two, the view frames the messages.
* `Outbox.appendMessages_init_zero_capacity`: with capacity `0`, it does not.
-/

namespace Neobolt

namespace Outbox

/-- The `Outbox` side of `Connection._append` for one message: the packer's `write` calls `ws`,
then `chunk(); chunk()`. -/
def appendMessage (ws : List (List UInt8)) : EStateM ErrorKind Outbox Unit := do
  ws.forM write
  modify chunk
  modify chunk

/-- `appendMessage` for each message in turn. -/
def appendMessages (msgs : List (List (List UInt8))) : EStateM ErrorKind Outbox Unit :=
  msgs.forM appendMessage

variable {o : Outbox} {closed : List (List UInt8)} {cur : List UInt8}

/-- A sequence of `write` calls returns, and its bytes continue the open chunk as `write` does
for one call. -/
theorem Layout.writeAll (h : o.Layout closed cur) (hm : o.maxChunkSize < 65536)
    (ws : List (List UInt8)) :
    ∃ o' fresh cur', ws.forM write o = .ok () o' ∧ o'.maxChunkSize = o.maxChunkSize ∧
      o'.Layout (closed ++ fresh) cur' ∧ (fresh ++ [cur']).flatten = cur ++ ws.flatten ∧
      (∀ c ∈ fresh, c ≠ []) ∧ (cur ≠ [] ∨ ws.flatten ≠ [] → cur' ≠ []) := by
  induction ws generalizing o closed cur with
  | nil => exact ⟨o, [], cur, rfl, rfl, by simpa using h, by simp, by simp, by simp⟩
  | cons b ws ih =>
    obtain ⟨o1, fresh1, cur1, hrun1, hmax1, h1, hflat1, hfresh1, hcur1⟩ :=
      h.writeLoop hm (show 0 + b.length = b.length by simp)
    obtain ⟨o2, fresh2, cur2, hrun2, hmax2, h2, hflat2, hfresh2, hcur2⟩ :=
      ih h1 (hmax1 ▸ hm)
    refine ⟨o2, fresh1 ++ fresh2, cur2, ?_, hmax2.trans hmax1, by simpa using h2, ?_, ?_, ?_⟩
    · rw [show (b :: ws).forM write = (write b >>= fun _ => ws.forM write) from rfl,
        EStateM.bind_apply_of_ok (show write b o = .ok () o1 from hrun1), hrun2]
    · simp only [List.drop_zero, List.flatten_append, List.flatten_cons, List.flatten_nil,
        List.append_nil] at hflat1 hflat2 ⊢
      rw [List.append_assoc, hflat2, ← List.append_assoc, hflat1, List.append_assoc]
    · simpa using fun c hc => hc.elim (hfresh1 c) (hfresh2 c)
    · intro hne
      refine hcur2 (if hb : cur = [] ∧ b = [] then Or.inr ?_ else Or.inl (hcur1 ?_))
      · simp_all
      · exact (not_and_or.mp hb).imp id fun hb => by simpa using hb

/-- Once the packer's writes return, `appendMessage` closes two chunks. -/
theorem appendMessage_apply_of_ok {ws : List (List UInt8)} {o' : Outbox}
    (h : ws.forM write o = .ok () o') : appendMessage ws o = .ok () o'.chunk.chunk := by
  simp only [appendMessage]
  rw [EStateM.bind_apply_of_ok h]
  rfl

/-- At a message boundary, the writes of a message of at least one byte followed by `chunk()`
twice close a valid chunking of its bytes and then the terminator, which leaves the next message
at a boundary again. -/
theorem Layout.writeMessage (h : o.Layout closed []) (hm : o.maxChunkSize < 65536)
    {ws : List (List UInt8)} (hne : ws.flatten ≠ []) :
    ∃ o' cs, ws.forM write o = .ok () o' ∧ o'.chunk.chunk.maxChunkSize = o.maxChunkSize ∧
      o'.chunk.chunk.Layout (closed ++ (cs ++ [[]])) [] ∧ ValidChunking o.maxChunkSize cs ∧
      cs.flatten = ws.flatten := by
  obtain ⟨o1, fresh, cur', hrun, hmax, h1, hflat, hfresh, hcur⟩ := h.writeAll hm ws
  have hcur' : cur' ≠ [] := hcur (Or.inr hne)
  have h2 := h1.chunk.chunk
  refine ⟨o1, fresh ++ [cur'], hrun, hmax, by simpa using h2, ⟨by simp, ?_⟩,
    by simpa using hflat⟩
  · intro c hc
    refine ⟨List.length_pos.mpr ?_, hmax ▸ h2.closed_le c ?_⟩
    rcases List.mem_append.mp hc with hc | hc
    · exact hfresh c hc
    · exact (List.mem_singleton.mp hc) ▸ hcur'
    · simp only [List.mem_append] at hc ⊢
      tauto

/-- At a message boundary, a message that writes at least one byte closes a valid chunking of its
bytes and then the terminator. -/
theorem Layout.appendMessage (h : o.Layout closed []) (hm : o.maxChunkSize < 65536)
    {ws : List (List UInt8)} (hne : ws.flatten ≠ []) :
    ∃ o' cs, appendMessage ws o = .ok () o' ∧ o'.maxChunkSize = o.maxChunkSize ∧
      o'.Layout (closed ++ (cs ++ [[]])) [] ∧ ValidChunking o.maxChunkSize cs ∧
      cs.flatten = ws.flatten := by
  obtain ⟨o1, cs, hrun, hmax, h1, hvalid, hflat⟩ := h.writeMessage hm hne
  exact ⟨o1.chunk.chunk, cs, appendMessage_apply_of_ok hrun, hmax, h1, hvalid, hflat⟩

/-- From a message boundary, each message of a sequence closes a valid chunking of its bytes and
then the terminator. -/
theorem Layout.appendMessages (h : o.Layout closed []) (hm : o.maxChunkSize < 65536)
    {msgs : List (List (List UInt8))} (hne : ∀ ws ∈ msgs, ws.flatten ≠ []) :
    ∃ o' css, appendMessages msgs o = .ok () o' ∧
      o'.Layout (closed ++ (css.map (· ++ [[]])).flatten) [] ∧
      List.Forall₂ (fun cs ws => ValidChunking o.maxChunkSize cs ∧ cs.flatten = ws.flatten)
        css msgs := by
  induction msgs generalizing o closed with
  | nil => exact ⟨o, [], rfl, by simpa using h, .nil⟩
  | cons ws msgs ih =>
    obtain ⟨o1, cs, hrun1, hmax1, h1, hvalid, hflat⟩ := h.appendMessage hm (hne ws (by simp))
    obtain ⟨o2, css, hrun2, h2, hall⟩ :=
      ih h1 (hmax1 ▸ hm) fun ws hws => hne ws (by simp [hws])
    refine ⟨o2, cs :: css, ?_, by simpa using h2, .cons ⟨hvalid, hflat⟩ (hmax1 ▸ hall)⟩
    rw [show Outbox.appendMessages (ws :: msgs) =
      (Outbox.appendMessage ws >>= fun _ => Outbox.appendMessages msgs) from rfl,
      EStateM.bind_apply_of_ok hrun1, hrun2]

/-- The view after a sequence of messages, each writing at least one byte, from a cleared
`Outbox` or from a new one with room for its first length bytes, is exactly those messages, each
cut into chunks of `1` to `max_chunk_size` bytes and ended by `0x0000`. -/
theorem appendMessages_frames {m : Nat} (hm0 : 0 < m) (hm : m ≤ 65535) {o : Outbox}
    (hstart : (∃ capacity, 2 ≤ capacity ∧ o = init capacity m hm0) ∨
      ∃ o₀ : Outbox, o₀.maxChunkSize = m ∧ o = o₀.clear)
    (msgs : List (List (List UInt8))) (hne : ∀ ws ∈ msgs, ws.flatten ≠ []) :
    ∃ o', appendMessages msgs o = .ok () o' ∧ Frames m (msgs.map List.flatten) o'.view := by
  obtain ⟨h, hmo⟩ : o.Layout [] [] ∧ o.maxChunkSize = m := by
    rcases hstart with ⟨capacity, hc, rfl⟩ | ⟨o₀, hmax, rfl⟩
    · exact ⟨layout_init hm0 hc, rfl⟩
    · exact ⟨layout_clear o₀, hmax⟩
  obtain ⟨o', css, hrun, h', hall⟩ := h.appendMessages (by omega) hne
  refine ⟨o', hrun, css, List.forall₂_map_right_iff.mpr (hmo ▸ hall), ?_⟩
  rw [h'.view_of_nil]
  simp [List.map_flatten, List.flatten_flatten, encodeMessage, Function.comp_def]
  rfl

/-- The connection's own `Outbox()`, with capacity `8192` and chunks of at most `16384` bytes,
frames a three-byte message. -/
theorem appendMessages_frames_default :
    (0 < 16384 ∧ 16384 ≤ 65535) ∧ ∃ o', appendMessages [[[1, 2], [3]]]
      (init 8192 16384 (by decide)) = .ok () o' ∧ Frames 16384 [[1, 2, 3]] o'.view :=
  ⟨by decide, appendMessages_frames (by decide) (by decide) (Or.inl ⟨8192, by decide, rfl⟩) _
    (by decide)⟩

/-- With capacity `0`, the first write of a new `Outbox` appends its byte where the length bytes
belong, and stamping the length then overwrites it: the byte never reaches the view. -/
theorem appendMessages_init_zero_capacity :
    ∃ o', appendMessages [[[0x41]]] (init 0 16384 (by decide)) = .ok () o' ∧
      ¬Frames 16384 [[0x41]] o'.view := by
  let o1 : Outbox := { init 0 16384 (by decide) with end_ := 3, data := [0, 1] }
  have hbody : writeBody [0x41] 0 1 (init 0 16384 (by decide)) = .ok (1, 0) o1 := by rfl
  have hw : [[0x41]].forM write (init 0 16384 (by decide)) = .ok () o1 := by
    show (write [0x41] >>= fun _ => [].forM write) _ = _
    rw [EStateM.bind_apply_of_ok (show write [0x41] _ = .ok () o1 by
      rw [write, List.length_singleton, writeLoop_of_ok (by decide) hbody, writeLoop, dif_pos rfl])]
    rfl
  refine ⟨o1.chunk.chunk, ?_, ?_⟩
  · show (appendMessage [[0x41]] >>= fun _ => [].forM appendMessage) _ = _
    rw [EStateM.bind_apply_of_ok (appendMessage_apply_of_ok hw)]
    rfl
  · rintro ⟨css, hall, hview⟩
    obtain ⟨cs, hflat, rfl⟩ : ∃ cs, cs.flatten = [0x41] ∧ css = [cs] := by
      cases hall with
      | cons hcs hrest => cases hrest; exact ⟨_, hcs.2, rfl⟩
    have hmem := mem_encodeMessage (hflat ▸ List.mem_singleton_self (0x41 : UInt8))
    simp only [List.map_cons, List.map_nil, List.flatten_cons, List.flatten_nil,
      List.append_nil] at hview
    rw [← hview] at hmem
    revert hmem
    decide

end Outbox

end Neobolt
