import Neobolt.Connection.Connect
import Neobolt.Connection.Pipeline

/-!
# The first exchange on a new connection

`init()` and `hello()` queue their message with an `InitResponse` whose only handler is
`on_success=self.server.metadata.update`, send it, run `fetch_all()`, and evaluate
`self.server.supports("bytes")`. `InitResponse` overrides `on_failure`: a `FAILURE` raises at once,
`AuthError` for the code `Neo.ClientError.Security.Unauthorized` and `ServiceUnavailable` for any
other, and sends no `RESET`. An `IGNORED` calls no handler, so the server metadata stays `{}` and
`supports` returns `None` without reading an agent: `init()` returns as after a `SUCCESS`.

## Main results

* `Connection.append_sendAll`: a message the packer completes, queued and sent from an empty
  `Outbox`, reaches `sendall` framed, and leaves the `Outbox` empty.
* `Connection.fetchAll_initReply`: `fetch_all` over the reply to an `InitResponse`.
* `Connection.initWith_reply`: what `init()` and `hello()` do on a new connection, for every reply
  to their message.
-/

namespace Neobolt

namespace Connection

variable (codec : Codec) (b : Builtins) {c : Connection}

/-- `_append` and `send_all()` from an empty `Outbox`, for a message the packer completes: its
response joins the queue, the framed message goes to `sendall`, and the `Outbox` is empty again. -/
theorem append_sendAll {signature : UInt8} {fields : List Value} (response : Option Response)
    {writes : List (List UInt8)} (hpack : codec.packStruct signature fields = (writes, none))
    (hbox : c.outbox.Layout [] []) (hm : c.outbox.maxChunkSize < 65536) (h : c.Live)
    (hw : c.wire.writeFails c.wire.sent.length = false) :
    ∃ o o' data, o'.Layout [] [] ∧ Frames c.outbox.maxChunkSize [writes.flatten] data ∧
      append codec signature fields response c =
        .ok () { c with outbox := o, responses := c.responses ++ [response] } ∧
      sendAll { c with outbox := o, responses := c.responses ++ [response] } = .ok ()
        { c with
          outbox := o', wire := { c.wire with sent := c.wire.sent ++ [data] }
          responses := c.responses ++ [response] } := by
  have hne : writes.flatten ≠ [] := by
    simpa [hpack] using codec.packStruct_writes signature fields (by rw [hpack])
  obtain ⟨o, cs, hwo, -, hlay, hvalid, hflat⟩ := hbox.writeMessage hm hne
  have hview : o.chunk.chunk.view = encodeMessage cs := by
    rw [hlay.view_of_nil, encodeMessage_eq]; simp
  refine ⟨o.chunk.chunk, o.chunk.chunk.clear, o.chunk.chunk.view, Outbox.layout_clear _,
    ⟨[cs], .cons ⟨hvalid, hflat⟩ .nil, by simp [hview]⟩, append_of_ok codec hpack hwo, ?_⟩
  exact sendAll_of_ok (by simp [hview, encodeMessage]) h.closed h.defunct hw

/-- The error `InitResponse.on_failure` raises for the metadata of a `FAILURE`. -/
theorem onFailure_init {F : ConnM (Nat × Nat)} {r : Response} (hk : r.kind = .init)
    (metadata : Metadata) :
    onFailure codec F r metadata = raise (match metadata.lookup "code" with
      | some (.str code) =>
        if code = "Neo.ClientError.Security.Unauthorized" then .authError else .serviceUnavailable
      | _ => .serviceUnavailable) := by
  simp only [onFailure, hk]
  rcases metadata.lookup "code" with _ | (_ | _ | _ | code | _ | _ | _) <;> try rfl
  by_cases hc : code = "Neo.ClientError.Security.Unauthorized" <;> simp [hc]

variable {p : Reply} {tail : List Incoming} {id fuel : Nat}

/-- `fetch_all` over the reply to an `InitResponse` alone in the queue: a `SUCCESS` calls
`on_success` with its metadata, an `IGNORED` calls nothing, a `FAILURE` raises the error of
`InitResponse.on_failure`, and any other summary raises `TypeError`, from the message of the
`ProtocolError` meant for it. Each pops the response and reads the whole reply. -/
theorem fetchAll_initReply (h : c.Live) (hq : c.responses = [some ⟨id, .init, initHandlers⟩])
    (hr : c.wire.reads = p.messages ++ tail) (hp : p.size ≤ 1) (hsum : p.signature ≠ 0x71)
    (hfuel : p.records.length + 1 < fuel) :
    fetchAll codec fuel c =
      if p.signature = 0x70 then
        .ok (p.records.length, 1) { c with
          responses := [], wire := { c.wire with reads := tail }
          log := c.log ++ [.success id (p.metadata codec)] }
      else if p.signature = 0x7E then
        .ok (p.records.length, 1) { c with responses := [], wire := { c.wire with reads := tail } }
      else .error (.raised (if p.signature = 0x7F then
          match (p.metadata codec).lookup "code" with
          | some (.str code) =>
            if code = "Neo.ClientError.Security.Unauthorized" then .authError
            else .serviceUnavailable
          | _ => .serviceUnavailable
        else .typeError))
        { c with responses := [], wire := { c.wire with reads := tail } } := by
  obtain ⟨vs, size, signature, field⟩ := p
  dsimp only at hp hsum hfuel ⊢
  obtain ⟨n, rfl⟩ : ∃ n, fuel = n + 1 + 1 + vs.length := ⟨fuel - vs.length - 2, by omega⟩
  have hret (name : HandlerName) (hn : name ≠ .onSuccess) :
      (⟨id, .init, initHandlers⟩ : Response).ReturnsOn name := fun _ h => by
    simp [initHandlers, hn] at h
  have hr' : c.wire.reads = vs.map (.message 1 0x71) ++ (.message size signature field :: tail) := by
    simpa [Reply.messages] using hr
  -- the records first: `InitResponse` has no `on_records`, so they change nothing but the reads
  rw [fetchAll, fetchAllLoop_records codec (hret _ (by decide)) h hq vs hr']
  have hc1 : Live { c with
      wire := { c.wire with reads := .message size signature field :: tail },
      log := c.log ++ vs.flatMap fun v =>
        (⟨id, .init, initHandlers⟩ : Response).call .onRecords (.records id [v]) } :=
    ⟨h.closed, h.defunct, h.inbox⟩
  have hnone : (vs.flatMap fun v =>
      (⟨id, .init, initHandlers⟩ : Response).call .onRecords (.records id [v])) = [] := by
    simp [Response.call, initHandlers]
  by_cases h70 : signature = 0x70
  · subst h70
    rw [fetchAllLoop_of_ok codec (by exact hq) (fetchMessage_of_success codec hc1 (by exact hq)
      (fun _ h => by simpa [initHandlers, eq_comm] using h) (hret _ (by decide)) rfl hp),
      fetchAllLoop_of_nil codec rfl]
    simp [hnone, Response.call, initHandlers, Reply.metadata]
  by_cases h7E : signature = 0x7E
  · subst h7E
    rw [fetchAllLoop_of_ok codec (by exact hq) (fetchMessage_of_ignored codec hc1 (by exact hq)
      (hret _ (by decide)) (hret _ (by decide)) rfl hp), fetchAllLoop_of_nil codec rfl]
    simp [hnone, Response.call, initHandlers]
  by_cases h7F : signature = 0x7F
  · subst h7F
    rw [fetchAllLoop_of_error codec (by exact hq) (by
      rw [fetchMessage_of_failure codec hc1 (by exact hq) rfl hp, onFailure_init codec rfl]; rfl)]
    simp [hnone, Reply.metadata]
  · rw [fetchAllLoop_of_error codec (by exact hq)
      (fetchMessage_of_unknown codec hc1 (by exact hq) rfl hp hsum h70 h7E h7F)]
    simp [hnone, h70, h7E, h7F]

theorem supports_nil (protocolVersion : Nat) (feature : String) :
    supports b [] protocolVersion feature = .ok none := rfl

/-- `init()` or `hello()` on the connection `_handshake` builds, whose first `sendall` goes
through, for every reply to its message: the framed message is the one thing sent, the whole reply
is read, and the queue is left empty. A `SUCCESS` makes the server metadata its own, and the call
returns unless `supports("bytes")` raises on it; an `IGNORED` returns as well, with the metadata
left `{}`; a `FAILURE` raises `AuthError` for the code `Neo.ClientError.Security.Unauthorized` and
`ServiceUnavailable` for any other, with no `RESET` sent; any other summary raises `TypeError`,
where `fetch_message` means to raise `ProtocolError`. -/
theorem initWith_reply (v : Nat) (wire : Wire) {fields : List Value} {writes : List (List UInt8)}
    (hpack : codec.packStruct 0x01 fields = (writes, none))
    (hw : wire.writeFails wire.sent.length = false) (hr : wire.reads = p.messages ++ tail)
    (hp : p.size ≤ 1) (hsum : p.signature ≠ 0x71) (fuel : Nat)
    (hfuel : p.records.length + 1 < fuel) :
    ∃ data c', Frames 16384 [writes.flatten] data ∧ c'.wire.sent = wire.sent ++ [data] ∧
      c'.wire.reads = tail ∧ c'.responses = [] ∧
      initWith codec b fields fuel (Connection.open v wire) = ofExcept
        (if p.signature = 0x70 then (supports b (p.metadata codec) v "bytes").map fun _ => ()
        else if p.signature = 0x7E then .ok ()
        else .error (if p.signature = 0x7F then
            match (p.metadata codec).lookup "code" with
            | some (.str code) =>
              if code = "Neo.ClientError.Security.Unauthorized" then .authError
              else .serviceUnavailable
            | _ => .serviceUnavailable
          else .typeError)) c' := by
  obtain ⟨o, o', data, -, hframes, happ, hsend⟩ := append_sendAll codec
    (c := { Connection.open v wire with nextId := 1 }) (some ⟨0, .init, initHandlers⟩) hpack
    (Outbox.layout_init (by decide) (by decide)) (show 16384 < 65536 by decide) ⟨rfl, rfl, rfl⟩ hw
  have hfetch := fetchAll_initReply codec (c := { ({ Connection.open v wire with nextId := 1 } :
      Connection) with
      outbox := o'
      wire := { ({ Connection.open v wire with nextId := 1 } : Connection).wire with
        sent := ({ Connection.open v wire with nextId := 1 } : Connection).wire.sent ++ [data] }
      responses := ({ Connection.open v wire with nextId := 1 } : Connection).responses ++
        [some ⟨0, .init, initHandlers⟩] }) ⟨rfl, rfl, rfl⟩ rfl hr hp hsum hfuel
  have hnew : newResponse .init initHandlers (Connection.open v wire) =
      .ok ⟨0, .init, initHandlers⟩ { Connection.open v wire with nextId := 1 } := rfl
  refine ⟨data, { Connection.open v wire with
      nextId := 1, outbox := o', wire := { wire with sent := wire.sent ++ [data], reads := tail }
      responses := [], log := if p.signature = 0x70 then [.success 0 (p.metadata codec)] else [] },
    hframes, rfl, rfl, rfl, ?_⟩
  dsimp only at happ hsend hfetch
  simp only [initWith, EStateM.bind_apply, hnew, happ, hsend, hfetch, EStateM.discard_apply,
    EStateM.get_apply]
  by_cases h70 : p.signature = 0x70
  · simp only [h70, if_true, Connection.open, serverMetadata, List.nil_append, List.foldl_cons,
      List.foldl_nil, Metadata.update_nil]
    cases supports b (p.metadata codec) v "bytes" <;> rfl
  by_cases h7E : p.signature = 0x7E
  · simp [h70, h7E, Connection.open, serverMetadata, supports_nil, ofExcept]
  · simp [h70, h7E, Connection.open, ofExcept, raise]

/-- A new Bolt v3 connection whose server answers `HELLO` with a `FAILURE` of the code
`Neo.ClientError.Security.Unauthorized`: `hello()` raises `AuthError`, having sent the `HELLO` and
nothing else. -/
theorem initWith_reply_unauthorized : ∃ data c', Frames 16384 [[0xB1, 0x01]] data ∧
    c'.wire.sent = [data] ∧ c'.responses = [] ∧
    initWith Codec.sample Builtins.sample [.map []] 2 (Connection.open 3
      ⟨[.message 1 0x7F (.map [("code", .str "Neo.ClientError.Security.Unauthorized")])],
        fun _ => false, [], false⟩) = .error (.raised .authError) c' := by
  obtain ⟨data, c', hf, hs, -, hq, h⟩ := initWith_reply Codec.sample Builtins.sample 3
    ⟨[.message 1 0x7F (.map [("code", .str "Neo.ClientError.Security.Unauthorized")])],
      fun _ => false, [], false⟩
    (p := ⟨[], 1, 0x7F, .map [("code", .str "Neo.ClientError.Security.Unauthorized")]⟩)
    (show Codec.sample.packStruct 0x01 [.map []] = ([[0xB1], [0x01]], none) from rfl) rfl
    (show _ = _ ++ [] from rfl) (by decide) (by decide) 2 (by decide)
  exact ⟨data, c', hf, hs, hq, h.trans rfl⟩

end Connection

end Neobolt
