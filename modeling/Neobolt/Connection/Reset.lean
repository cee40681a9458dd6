import Neobolt.Connection.Pipeline

/-!
# A `RESET` that fails

`reset()` queues `RESET` with a response whose `on_failure` handler `fail` raises
`ProtocolError`, sends it, and runs `fetch_all`. That response is a plain `Response`, and
`Response.on_failure` calls `self.connection.reset()` before it calls any handler. A `FAILURE` in
reply to a `RESET` therefore queues and sends another `RESET`, whose `fetch_all` reads the next
reply, and `fail` raises only once that nested `reset()` has returned. A run of `k` `FAILURE`s
before a `SUCCESS` sends `k + 1` `RESET`s, one nested call per `FAILURE`, and ends in
`ProtocolError` when `k > 0`.

## Main definitions

* `Reply.Fails`: a `FAILURE` summary of at most one field, after any records.
* `Connection.ResetsSent`: what a run of `RESET`s leaves on the connection.

## Main results

* `Connection.fetchAllLoop_resetFailure`: one `FAILURE` of a `RESET`, around the nested
  `reset()` it causes.
* `Connection.fetchAllLoop_resetChain`: the `fetch_all` of a `RESET` over `k` `FAILURE`s and a
  completed reply.
* `Connection.reset_failures`: `reset()` sends `k + 1` `RESET`s and returns exactly when `k = 0`.
-/

namespace Neobolt

/-- A reply that ends in a `FAILURE` of at most one field. -/
def Reply.Fails (p : Reply) : Prop :=
  p.size ≤ 1 ∧ p.signature = 0x7F

namespace Connection

variable (codec : Codec) {c : Connection}

/-- What `reset()` calls leave on a connection `c`: `k` framed `RESET`s more handed to `sendall`,
the queue `queue`, the `Outbox` empty, the replies read up to `tail`, and the connection still
able to read and write as before. -/
structure ResetsSent (c c' : Connection) (k : Nat) (queue : List (Option Response))
    (tail : List Incoming) : Prop where
  sent : ∃ datas : List (List UInt8), datas.length = k ∧
    (∀ data ∈ datas, Frames c.outbox.maxChunkSize [(codec.packStruct 0x0F []).1.flatten] data) ∧
    c'.wire.sent = c.wire.sent ++ datas
  responses : c'.responses = queue
  outbox : c'.outbox.Layout [] []
  maxChunkSize : c'.outbox.maxChunkSize = c.outbox.maxChunkSize
  reads : c'.wire.reads = tail
  live : c'.Live
  writeFails : c'.wire.writeFails = c.wire.writeFails

namespace ResetsSent

variable {codec} {c' c'' : Connection} {k k' : Nat} {queue queue' : List (Option Response)}
  {tail tail' : List Incoming}

theorem trans (h : ResetsSent codec c c' k queue tail)
    (h' : ResetsSent codec c' c'' k' queue' tail') :
    ResetsSent codec c c'' (k + k') queue' tail' where
  sent := by
    obtain ⟨ds, hlen, hds, hsent⟩ := h.sent
    obtain ⟨ds', hlen', hds', hsent'⟩ := h'.sent
    refine ⟨ds ++ ds', by simp [hlen, hlen'], fun data hd => ?_, by simp [hsent', hsent]⟩
    rcases List.mem_append.mp hd with hd | hd
    · exact hds data hd
    · exact h.maxChunkSize ▸ hds' data hd
  responses := h'.responses
  outbox := h'.outbox
  maxChunkSize := h'.maxChunkSize.trans h.maxChunkSize
  reads := h'.reads
  live := h'.live
  writeFails := h'.writeFails.trans h.writeFails

/-- A socket that takes every write from some point on still does after more `RESET`s. -/
theorem writesPass (h : ResetsSent codec c c' k queue tail)
    (hw : ∀ j, c.wire.sent.length ≤ j → c.wire.writeFails j = false) :
    ∀ j, c'.wire.sent.length ≤ j → c'.wire.writeFails j = false := by
  obtain ⟨ds, -, -, hsent⟩ := h.sent
  intro j hj
  rw [h.writeFails]
  exact hw j (by simp [hsent] at hj; omega)

/-- A handler call only adds to the log. -/
theorem log (h : ResetsSent codec c c' k queue tail) (l : List Event) :
    ResetsSent codec c { c' with log := l } k queue tail :=
  ⟨h.sent, h.responses, h.outbox, h.maxChunkSize, h.reads,
    ⟨h.live.closed, h.live.defunct, h.live.inbox⟩, h.writeFails⟩

end ResetsSent

/-- The handler `fail` of a `RESET`'s response raises `ProtocolError`. -/
theorem invoke_resetHandlers_onFailure (id : Nat) (e : Event) :
    invoke ⟨id, .plain, resetHandlers⟩ .onFailure e c =
      .error (.raised .protocolError) { c with log := c.log ++ [e] } := by
  simp [invoke, resetHandlers, logEvent, raise]

/-- Only `on_failure` is registered on a `RESET`'s response. -/
theorem returnsOnReply_reset (id : Nat) : ReturnsOnReply ⟨id, .plain, resetHandlers⟩ := by
  intro name hn cb hcb
  simp [resetHandlers, hn] at hcb

variable {tail : List Incoming}

/-- A `FAILURE` in reply to the `RESET` at the head of the queue: after its records, its
`on_failure` queues and sends a new `RESET` and runs the nested `fetch_all` on the remaining fuel
`n`. If that returns, `fail` raises `ProtocolError`; if it raises, its exception goes on. -/
theorem fetchAllLoop_resetFailure {f : Reply} (hf : f.Fails) {id : Nat} (h : c.Live)
    (hq : c.responses = [some ⟨id, .plain, resetHandlers⟩]) (hbox : c.outbox.Layout [] [])
    (hm : c.outbox.maxChunkSize < 65536) (hw : c.wire.writeFails c.wire.sent.length = false)
    (hr : c.wire.reads = f.messages ++ tail) (n d s : Nat) :
    ∃ c3, ResetsSent codec c c3 1 [some ⟨c.nextId, .plain, resetHandlers⟩] tail ∧
      ∀ (x : Nat × Nat) (e : Exc) (c' : Connection),
        (fetchAllLoop codec n 0 0 c3 = .ok x c' →
          fetchAllLoop codec (n + f.messages.length) d s c =
            .error (.raised .protocolError)
              { c' with log := c'.log ++ [.failure id (f.metadata codec)] }) ∧
        (fetchAllLoop codec n 0 0 c3 = .error e c' →
          fetchAllLoop codec (n + f.messages.length) d s c = .error e c') := by
  obtain ⟨vs, size, signature, field⟩ := f
  obtain ⟨hs, hsig⟩ := hf
  dsimp only at hs hsig ⊢
  subst hsig
  have hr' : c.wire.reads = vs.map (.message 1 0x71) ++ (.message size 0x7F field :: tail) := by
    simpa [Reply.messages] using hr
  rw [Reply.length_messages, show n + (vs.length + 1) = n + 1 + vs.length by omega,
    fetchAllLoop_records codec (returnsOnReply_reset id _ (by decide)) h hq vs hr']
  -- the `FAILURE` pops the `RESET`'s response and runs its `on_failure`
  set c1 : Connection := { c with
    wire := { c.wire with reads := .message size 0x7F field :: tail }
    log := c.log ++ vs.flatMap fun v =>
      (⟨id, .plain, resetHandlers⟩ : Response).call .onRecords (.records id [v]) }
  have h1 : c1.Live := ⟨h.closed, h.defunct, h.inbox⟩
  have hq1 : c1.responses = [some ⟨id, .plain, resetHandlers⟩] := hq
  rw [fetchAllLoop_succ_of_some codec hq1]
  simp only [EStateM.bind_apply]
  rw [fetchMessage_of_failure codec h1 hq1 rfl hs, onFailure_of_ne_init codec (by simp)]
  simp only [EStateM.bind_apply]
  -- which queues and sends a new `RESET`
  set c2 : Connection := { c1 with wire := { c1.wire with reads := tail }, responses := [] }
  obtain ⟨o, data, hlay, hmax, hdata, hsends⟩ := reset_sends codec (F := fetchAllLoop codec n 0 0)
    (c := c2) hbox hm ⟨h.closed, h.defunct, h.inbox⟩ hw
  rw [hsends]
  simp only [EStateM.discard_apply]
  refine ⟨{ c2 with
      nextId := c2.nextId + 1, outbox := o, wire := { c2.wire with sent := c2.wire.sent ++ [data] }
      responses := c2.responses ++ [some ⟨c2.nextId, .plain, resetHandlers⟩] },
    ⟨⟨[data], rfl, by simpa using hdata, rfl⟩, rfl, hlay, hmax, rfl,
      ⟨h.closed, h.defunct, h.inbox⟩, rfl⟩, fun x e c' => ⟨fun hx => ?_, fun he => ?_⟩⟩
  · simp only [c1, c2, List.nil_append] at hx
    simp [hx, invoke_resetHandlers_onFailure, Reply.metadata]
  · simp only [c1, c2, List.nil_append] at he
    simp [he]

/-- The `fetch_all` of the `RESET` at the head of the queue, over `k` `FAILURE`s and then a
`SUCCESS` or `IGNORED`: `k` nested `reset()`s, each sending one `RESET`, and the outcome is a
return only for `k = 0`, `ProtocolError` otherwise. -/
theorem fetchAllLoop_resetChain {fs : List Reply} {pr : Reply} (hfs : ∀ f ∈ fs, f.Fails)
    (hpr : pr.Completes) {id : Nat} (h : c.Live)
    (hq : c.responses = [some ⟨id, .plain, resetHandlers⟩]) (hbox : c.outbox.Layout [] [])
    (hm : c.outbox.maxChunkSize < 65536)
    (hw : ∀ j, c.wire.sent.length ≤ j → c.wire.writeFails j = false)
    (hr : c.wire.reads = ((fs ++ [pr]).map Reply.messages).flatten ++ tail) (n d s : Nat) :
    ∃ c', fetchAllLoop codec (n + 1 + ((fs ++ [pr]).map Reply.messages).flatten.length) d s c =
        (if fs.isEmpty then .ok (d + pr.records.length, s + 1) c'
          else .error (.raised .protocolError) c') ∧
      ResetsSent codec c c' fs.length [] tail := by
  induction fs generalizing c id n d s with
  | nil =>
    refine ⟨{ c with
        responses := [], wire := { c.wire with reads := tail }
        log := c.log ++ pr.recordEvents ⟨id, .plain, resetHandlers⟩ ++
          pr.summaryEvents codec ⟨id, .plain, resetHandlers⟩ }, ?_,
      ⟨⟨[], rfl, by simp, by simp⟩, rfl, hbox, rfl, rfl, ⟨h.closed, h.defunct, h.inbox⟩, rfl⟩⟩
    rw [List.nil_append, List.map_singleton, List.flatten_singleton,
      fetchAllLoop_reply codec (returnsOnReply_reset id) hpr h hq (by simpa using hr),
      fetchAllLoop_of_nil codec rfl]
    rfl
  | cons f fs ih =>
    have hr' : c.wire.reads = f.messages ++ (((fs ++ [pr]).map Reply.messages).flatten ++ tail) := by
      simpa using hr
    obtain ⟨c3, h3, hstep⟩ := fetchAllLoop_resetFailure codec (hfs f (List.mem_cons_self f fs)) h hq
      hbox hm (hw _ le_rfl) hr' (n + 1 + ((fs ++ [pr]).map Reply.messages).flatten.length) d s
    obtain ⟨c', hc', h'⟩ := ih (fun f hf => hfs f (List.mem_cons_of_mem _ hf)) h3.live h3.responses
      h3.outbox (h3.maxChunkSize ▸ hm) (h3.writesPass hw) h3.reads n 0 0
    have hfuel : n + 1 + (((f :: fs) ++ [pr]).map Reply.messages).flatten.length =
        n + 1 + ((fs ++ [pr]).map Reply.messages).flatten.length + f.messages.length := by
      simp only [List.cons_append, List.map_cons, List.flatten_cons, List.length_append]
      omega
    rw [hfuel]
    cases hfs' : fs.isEmpty
    · rw [hfs'] at hc'
      exact ⟨c', (hstep (0, 0) _ c').2 hc', by simpa [Nat.add_comm] using h3.trans h'⟩
    · rw [hfs'] at hc'
      refine ⟨_, (hstep _ (.raised .protocolError) c').1 hc', ?_⟩
      simpa [Nat.add_comm] using (h3.trans h').log _

/-- `reset()` on a live connection whose `Outbox` is empty and whose socket takes every write,
after the replies to the responses already queued, all `SUCCESS` or `IGNORED`: `k` `FAILURE`s
and then a `SUCCESS` or `IGNORED` in reply to the `RESET`s make it send `k + 1` `RESET`s. It
returns when `k = 0` and raises `ProtocolError` otherwise, with the queue empty and the
connection still live. Any fuel above the number of messages read is enough. -/
theorem reset_failures {pre : List Response} {ps fs : List Reply} {pr : Reply}
    (hpre : List.Forall₂ (fun r p => ReturnsOnReply r ∧ p.Completes) pre ps)
    (hfs : ∀ f ∈ fs, f.Fails) (hpr : pr.Completes) (h : c.Live) (hq : c.responses = pre.map some)
    (hbox : c.outbox.Layout [] []) (hm : c.outbox.maxChunkSize < 65536)
    (hw : ∀ j, c.wire.sent.length ≤ j → c.wire.writeFails j = false)
    (hr : c.wire.reads = ((ps ++ fs ++ [pr]).map Reply.messages).flatten ++ tail)
    {fuel : Nat} (hfuel : ((ps ++ fs ++ [pr]).map Reply.messages).flatten.length < fuel) :
    ∃ c', resetWith codec fuel c =
        (if fs.isEmpty then .ok () c' else .error (.raised .protocolError) c') ∧
      ResetsSent codec c c' (fs.length + 1) [] tail := by
  obtain ⟨o, data, hlay, hmax, hdata, hsends⟩ := reset_sends codec (F := fetchAll codec fuel) hbox hm
    h (hw _ le_rfl)
  -- the first `RESET` is queued behind the responses and sent
  set c1 : Connection := { c with
    nextId := c.nextId + 1, outbox := o, wire := { c.wire with sent := c.wire.sent ++ [data] }
    responses := c.responses ++ [some ⟨c.nextId, .plain, resetHandlers⟩] }
  have h1 : ResetsSent codec c c1 1 (pre.map some ++ [some ⟨c.nextId, .plain, resetHandlers⟩])
      c.wire.reads :=
    ⟨⟨[data], rfl, by simpa using hdata, rfl⟩, by simp [c1, hq], hlay, hmax, rfl,
      ⟨h.closed, h.defunct, h.inbox⟩, rfl⟩
  obtain ⟨n, rfl⟩ : ∃ n, fuel = n + 1 + ((fs ++ [pr]).map Reply.messages).flatten.length +
      (ps.map Reply.messages).flatten.length := by
    refine ⟨fuel - 1 - ((fs ++ [pr]).map Reply.messages).flatten.length -
      (ps.map Reply.messages).flatten.length, ?_⟩
    simp only [List.map_append, List.flatten_append, List.length_append] at hfuel ⊢
    omega
  -- its `fetch_all` first reads the replies to the responses before it
  rw [resetWith, hsends, EStateM.discard_apply, fetchAll,
    fetchAllLoop_replies codec hpre h1.live h1.responses (show c1.wire.reads =
      (ps.map Reply.messages).flatten ++ (((fs ++ [pr]).map Reply.messages).flatten ++ tail) by
        simp [c1, hr])]
  set c2 : Connection := { c1 with
    responses := [some ⟨c.nextId, .plain, resetHandlers⟩]
    wire := { c1.wire with reads := ((fs ++ [pr]).map Reply.messages).flatten ++ tail }
    log := c1.log ++ replyEvents codec pre ps }
  have h2 : ResetsSent codec c1 c2 0 [some ⟨c.nextId, .plain, resetHandlers⟩]
      (((fs ++ [pr]).map Reply.messages).flatten ++ tail) :=
    ⟨⟨[], rfl, by simp, by simp [c2]⟩, rfl, h1.outbox, rfl, rfl, ⟨h.closed, h.defunct, h.inbox⟩,
      rfl⟩
  -- and then the replies to the `RESET` and to the ones its `FAILURE`s send
  obtain ⟨c', hc', h'⟩ := fetchAllLoop_resetChain codec hfs hpr (h1.trans h2).live
    (h1.trans h2).responses (h1.trans h2).outbox ((h1.trans h2).maxChunkSize ▸ hm)
    ((h1.trans h2).writesPass hw) rfl n
    (0 + (ps.map fun p => p.records.length).sum) (0 + ps.length)
  refine ⟨c', ?_, by simpa [Nat.add_comm] using (h1.trans h2).trans h'⟩
  rw [hc']
  cases fs.isEmpty <;> rfl

/-- A `SUCCESS` in reply to the `RESET` of an idle connection: one `RESET`, and `reset()`
returns. -/
theorem reset_failures_success :
    ∃ c', resetWith Codec.sample 2 (Connection.sample false [.message 1 0x70 (.map [])] []) =
        .ok () c' ∧
      ResetsSent Codec.sample (Connection.sample false [.message 1 0x70 (.map [])] []) c' 1 [] [] :=
  reset_failures Codec.sample
    (List.Forall₂.nil : List.Forall₂ _ ([] : List Response) ([] : List Reply))
    (fun f hf => absurd hf (List.not_mem_nil f) : ∀ f ∈ ([] : List Reply), f.Fails)
    (show (⟨[], 1, 0x70, .map []⟩ : Reply).Completes from ⟨le_rfl, .inl rfl⟩) ⟨rfl, rfl, rfl⟩ rfl
    (Outbox.layout_init (by decide) (by decide)) (by decide) (fun _ _ => rfl)
    (show _ = _ ++ ([] : List Incoming) from rfl) (by decide)

/-- A `FAILURE` in reply to the `RESET` of an idle connection, then a `SUCCESS`: `reset()` sends
a second `RESET` and raises `ProtocolError`. -/
theorem reset_failure_resends :
    ∃ c', resetWith Codec.sample 3 (Connection.sample false
        [.message 1 0x7F (.map []), .message 1 0x70 (.map [])] []) =
      .error (.raised .protocolError) c' ∧ c'.wire.sent.length = 2 := by
  obtain ⟨o, data, hlay, hmax, -, hsends⟩ := reset_sends Codec.sample (F := fetchAll Codec.sample 3)
    (c := Connection.sample false [.message 1 0x7F (.map []), .message 1 0x70 (.map [])] [])
    (Outbox.layout_init (by decide) (by decide)) (by decide) ⟨rfl, rfl, rfl⟩ rfl
  set c0 := Connection.sample false [.message 1 0x7F (.map []), .message 1 0x70 (.map [])] []
  obtain ⟨c', hc', h'⟩ := fetchAllLoop_resetChain Codec.sample
    (show ∀ f ∈ [(⟨[], 1, 0x7F, .map []⟩ : Reply)], f.Fails by simp [Reply.Fails])
    (show (⟨[], 1, 0x70, .map []⟩ : Reply).Completes from ⟨le_rfl, .inl rfl⟩)
    (c := { c0 with
      nextId := c0.nextId + 1, outbox := o, wire := { c0.wire with sent := c0.wire.sent ++ [data] }
      responses := c0.responses ++ [some ⟨c0.nextId, .plain, resetHandlers⟩] })
    ⟨rfl, rfl, rfl⟩ rfl hlay (show o.maxChunkSize < 65536 by rw [hmax]; decide) (fun _ _ => rfl)
    (show _ = _ ++ ([] : List Incoming) from rfl) 0 0 0
  obtain ⟨ds, hlen, -, hsent⟩ := h'.sent
  refine ⟨c', ?_, by simp [hsent, hlen, c0, Connection.sample]⟩
  rw [resetWith, hsends, EStateM.discard_apply, fetchAll, show (3 : Nat) = 0 + 1 +
    (([(⟨[], 1, 0x7F, .map []⟩ : Reply)] ++ [(⟨[], 1, 0x70, .map []⟩ : Reply)]).map
      Reply.messages).flatten.length
    from rfl, hc']
  rfl

end Connection

end Neobolt
