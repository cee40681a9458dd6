import Neobolt.Connection.Requests

/-!
# A session of requests

A caller's run of request methods interleaved with `send_all()`, where the caller catches what a
request raises and carries on. `_append` has no undo: when the packer raises part-way through a
message, the bytes it wrote stay in the open chunk of the `Outbox`, and the next message's bytes
join them there, while the response queue is left as it was.

`Expected` says what a run of requests should leave on the wire and in the queue as a function of
the requests alone; `Tracks` relates a connection to it, and every step keeps the relation.

## Main definitions

* `Step`, `runSession`: a caller's steps and their run on a connection.
* `Expected`, `Expected.ofSteps`: the messages, the unfinished message and the responses a run
  of steps accounts for.
* `Tracks`: a connection that has produced what an `Expected` accounts for.

## Main results

* `Tracks.exec`, `Tracks.sendAll`: each step keeps a connection in line with `Expected`.
* `runSession_wire`: after any run, the bytes handed to `sendall` followed by the `Outbox` view
  are the expected messages and then the expected unfinished bytes, and the queue holds the
  expected responses.
* `runSession_packerFailure`: the bytes a raising packer wrote become part of the next message.
-/

namespace Neobolt

/-- A step of the caller: a request, whose exception the caller catches, or `send_all()`. -/
inductive Step where
  | request (r : Request)
  | sendAll

namespace Connection

variable (b : Builtins) (codec : Codec)

/-- Run the caller's steps. -/
def runSession : List Step → ConnM Unit
  | [] => pure ()
  | .request r :: steps => do
    tryCatch (r.exec b codec) fun _ => pure ()
    runSession steps
  | .sendAll :: steps => do
    sendAll
    runSession steps

end Connection

/-- What a run of requests accounts for: the messages completed so far, the bytes written for a
message not yet completed, and the class and handlers of each response queued. -/
structure Expected where
  msgs : List (List UInt8)
  pend : List UInt8
  resps : List (ResponseKind × (HandlerName → Option Callback))

namespace Expected

variable (b : Builtins) (codec : Codec)

/-- The messages of a plan, in order: a message the packer completes ends the unfinished bytes
and queues its response; one it raises on adds its writes to the unfinished bytes, and the plan
stops there. -/
def queue (handlers : HandlerName → Option Callback) :
    Expected → List (UInt8 × List Value × ResponseKind) → Expected
  | e, [] => e
  | e, (signature, fields, kind) :: rest =>
    match codec.packStruct signature fields with
    | (writes, none) =>
      queue handlers ⟨e.msgs ++ [e.pend ++ writes.flatten], [], e.resps ++ [(kind, handlers)]⟩ rest
    | (writes, some _) => { e with pend := e.pend ++ writes.flatten }

/-- One step of the caller on a connection of `protocolVersion`: a request whose arguments pass
queues its plan; `send_all` moves bytes to the wire and changes nothing here. -/
def step (protocolVersion : Nat) (e : Expected) : Step → Expected
  | .request r =>
    match r.plan b protocolVersion with
    | .ok plan => e.queue codec r.handlers plan
    | .error _ => e
  | .sendAll => e

/-- What a run of steps accounts for, from nothing. -/
def ofSteps (protocolVersion : Nat) (steps : List Step) : Expected :=
  steps.foldl (step b codec protocolVersion) ⟨[], [], []⟩

end Expected

/-- The chunks of the `Outbox`, the open one included if it has bytes, continue the chunks on the
wire: the view adds the open chunk's bytes to the unfinished message. -/
theorem Chunked.flush {m : Nat} {msgs L closed : List (List UInt8)} {pend cur : List UInt8}
    {o : Outbox} (hc : Chunked m msgs pend (L ++ closed)) (h : o.Layout closed cur)
    (hm : o.maxChunkSize = m) :
    ∃ L', Chunked m msgs (pend ++ cur) L' ∧
      (L'.map encodeChunk).flatten = (L.map encodeChunk).flatten ++ o.view := by
  by_cases hcur : cur = []
  · subst hcur
    exact ⟨L ++ closed, by simpa using hc, by simp [h.view_of_nil]⟩
  · have hw : ChunksWithin m [cur] := by
      simpa [ChunksWithin, List.length_pos, hcur] using h.cur_le.trans hm.le
    exact ⟨L ++ closed ++ [cur], by simpa using hc.extend hw, by simp [h.view_of_ne_nil hcur]⟩

namespace Connection

variable (b : Builtins) (codec : Codec) {c₀ c : Connection} {e : Expected}

/-- A connection on which `send_all` succeeds: open, not defunct, and its socket accepts every
`sendall`. -/
structure AcceptsSends (c : Connection) : Prop where
  closed : c.closed = false
  defunct : c.defunct = false
  accepts : ∀ n, c.wire.writeFails n = false

/-- The connection `c`, reached from `c₀` by requests and sends, has produced what `e` accounts
for: the bytes sent since `c₀` and the chunks in the `Outbox`, with the open chunk's bytes still
unfinished, are `e`'s messages and unfinished bytes; the queue has `e`'s responses behind those
of `c₀`; and the flags and the socket's behaviour are those of `c₀`. -/
structure Tracks (c₀ : Connection) (e : Expected) (c : Connection) : Prop where
  maxChunkSize_eq : c.outbox.maxChunkSize = c₀.outbox.maxChunkSize
  closed_eq : c.closed = c₀.closed
  defunct_eq : c.defunct = c₀.defunct
  writeFails_eq : c.wire.writeFails = c₀.wire.writeFails
  protocolVersion_eq : c.protocolVersion = c₀.protocolVersion
  bytes : ∃ (fresh L closed : List (List UInt8)) (cur pend : List UInt8),
    c.wire.sent = c₀.wire.sent ++ fresh ∧ fresh.flatten = (L.map encodeChunk).flatten ∧
    c.outbox.Layout closed cur ∧ Chunked c₀.outbox.maxChunkSize e.msgs pend (L ++ closed) ∧
    e.pend = pend ++ cur
  queue : ∃ rs : List Response, c.responses = c₀.responses ++ rs.map some ∧
    rs.map (fun r => (r.kind, r.handlers)) = e.resps

/-- A connection with an empty `Outbox` has produced nothing yet. -/
theorem Tracks.start (h : c₀.outbox.Layout [] []) : Tracks c₀ ⟨[], [], []⟩ c₀ where
  maxChunkSize_eq := rfl
  closed_eq := rfl
  defunct_eq := rfl
  writeFails_eq := rfl
  protocolVersion_eq := rfl
  bytes := ⟨[], [], [], [], [], by simp, rfl, h, chunked_nil, rfl⟩
  queue := ⟨[], by simp, rfl⟩

/-- A new response object changes nothing the relation looks at. -/
theorem Tracks.newResponse (h : Tracks c₀ e c) (n : Nat) : Tracks c₀ e { c with nextId := n } :=
  ⟨h.maxChunkSize_eq, h.closed_eq, h.defunct_eq, h.writeFails_eq, h.protocolVersion_eq, h.bytes,
    h.queue⟩

/-- The writes of a packer, from the open chunk on: the chunks they close and the open chunk they
leave. -/
theorem Tracks.writes (h : Tracks c₀ e c) (hm : c₀.outbox.maxChunkSize < 65536)
    (ws : List (List UInt8)) :
    ∃ o fresh L closed fresh' cur' pend, ws.forM Outbox.write c.outbox = .ok () o ∧
      o.maxChunkSize = c₀.outbox.maxChunkSize ∧
      c.wire.sent = c₀.wire.sent ++ fresh ∧ fresh.flatten = (L.map encodeChunk).flatten ∧
      o.Layout (closed ++ fresh') cur' ∧
      Chunked c₀.outbox.maxChunkSize e.msgs (pend ++ fresh'.flatten) (L ++ closed ++ fresh') ∧
      pend ++ fresh'.flatten ++ cur' = e.pend ++ ws.flatten ∧ (ws.flatten ≠ [] → cur' ≠ []) := by
  obtain ⟨fresh, L, closed, cur, pend, hsent, hL, hlay, hch, hpend⟩ := h.bytes
  obtain ⟨o, fresh', cur', hrun, hmax, hlay', hflat, hne, hcur⟩ :=
    hlay.writeAll (h.maxChunkSize_eq ▸ hm) ws
  have hwithin : ChunksWithin c₀.outbox.maxChunkSize fresh' := fun x hx =>
    ⟨List.length_pos.mpr (hne x hx),
      (hlay'.closed_le x (List.mem_append_right _ hx)).trans (hmax.trans h.maxChunkSize_eq).le⟩
  refine ⟨o, fresh, L, closed, fresh', cur', pend, hrun, hmax.trans h.maxChunkSize_eq, hsent, hL,
    hlay', by simpa using hch.extend hwithin, ?_, fun hw => hcur (.inr hw)⟩
  simp only [List.flatten_append, List.flatten_cons, List.flatten_nil, List.append_nil] at hflat
  rw [hpend, List.append_assoc, hflat, List.append_assoc]

/-- A message the packer completes ends the unfinished bytes and queues its response. -/
theorem Tracks.append_ok (h : Tracks c₀ e c) (hm : c₀.outbox.maxChunkSize < 65536)
    {signature : UInt8} {fields : List Value} {ws : List (List UInt8)} (r : Response)
    (hp : codec.packStruct signature fields = (ws, none)) :
    ∃ c', append codec signature fields (some r) c = .ok () c' ∧
      Tracks c₀ ⟨e.msgs ++ [e.pend ++ ws.flatten], [], e.resps ++ [(r.kind, r.handlers)]⟩ c' := by
  have hws : ws.flatten ≠ [] := by
    simpa [hp] using codec.packStruct_writes signature fields (by simp [hp])
  obtain ⟨o, fresh, L, closed, fresh', cur', pend, hrun, hmax, hsent, hL, hlay, hch, hpend, hcur⟩ :=
    h.writes hm ws
  obtain ⟨rs, hq, hrs⟩ := h.queue
  have hwithin : ChunksWithin c₀.outbox.maxChunkSize [cur'] := by
    simpa [ChunksWithin, List.length_pos, hcur hws] using hlay.cur_le.trans hmax.le
  have hclose := (hch.extend hwithin).close (by simp [hcur hws])
  refine ⟨_, append_of_ok codec hp hrun, hmax, h.closed_eq, h.defunct_eq, h.writeFails_eq,
    h.protocolVersion_eq,
    ⟨fresh, L, closed ++ fresh' ++ [cur'] ++ [[]], [], [], hsent, hL, by simpa using hlay.chunk.chunk,
      by simpa [← hpend] using hclose, rfl⟩,
    ⟨rs ++ [r], by simp [hq], by simp [hrs]⟩⟩

/-- A packer that raises adds its writes to the unfinished bytes and leaves the queue as it was. -/
theorem Tracks.append_error (h : Tracks c₀ e c) (hm : c₀.outbox.maxChunkSize < 65536)
    {signature : UInt8} {fields : List Value} {ws : List (List UInt8)} {err : ErrorKind}
    (r : Option Response) (hp : codec.packStruct signature fields = (ws, some err)) :
    ∃ c', append codec signature fields r c = .error (.raised err) c' ∧
      Tracks c₀ { e with pend := e.pend ++ ws.flatten } c' := by
  obtain ⟨o, fresh, L, closed, fresh', cur', pend, hrun, hmax, hsent, hL, hlay, hch, hpend, -⟩ :=
    h.writes hm ws
  exact ⟨_, append_of_error codec hp hrun, hmax, h.closed_eq, h.defunct_eq, h.writeFails_eq,
    h.protocolVersion_eq,
    ⟨fresh, L, closed ++ fresh', cur', pend ++ fresh'.flatten, hsent, hL, hlay,
      by simpa using hch, hpend.symm⟩, h.queue⟩

/-- A plan, with its exception caught: the messages it completes, and the writes of the one the
packer raises on. -/
theorem Tracks.appendPlan (handlers : HandlerName → Option Callback)
    (hm : c₀.outbox.maxChunkSize < 65536) (plan : List (UInt8 × List Value × ResponseKind)) :
    Tracks c₀ e c → ∃ c', tryCatch (appendPlan codec handlers plan) (fun _ => pure ()) c =
      .ok () c' ∧ Tracks c₀ (e.queue codec handlers plan) c' := by
  induction plan generalizing e c with
  | nil => exact fun h => ⟨c, rfl, h⟩
  | cons message plan ih =>
    obtain ⟨signature, fields, kind⟩ := message
    intro h
    have h1 := h.newResponse (c.nextId + 1)
    rcases hp : codec.packStruct signature fields with ⟨ws, _ | err⟩
    · obtain ⟨c', happ, h'⟩ := h1.append_ok codec hm ⟨c.nextId, kind, handlers⟩ hp
      obtain ⟨c'', hrun, h''⟩ := ih h'
      refine ⟨c'', ?_, by simpa [Expected.queue, hp] using h''⟩
      simp only [EStateM.tryCatch_apply, Connection.appendPlan, EStateM.bind_apply,
        newResponse_apply, happ] at hrun ⊢
      exact hrun
    · obtain ⟨c', happ, h'⟩ := h1.append_error codec hm (some ⟨c.nextId, kind, handlers⟩) hp
      refine ⟨c', ?_, by simpa [Expected.queue, hp] using h'⟩
      simp [Connection.appendPlan, newResponse_apply, happ]

/-- A request, with its exception caught, accounts for its plan. -/
theorem Tracks.exec (h : Tracks c₀ e c) (hm : c₀.outbox.maxChunkSize < 65536) (r : Request) :
    ∃ c', tryCatch (r.exec b codec) (fun _ => pure ()) c = .ok () c' ∧
      Tracks c₀ (e.step b codec c₀.protocolVersion (.request r)) c' := by
  simp only [EStateM.tryCatch_apply, Request.exec_eq, ← h.protocolVersion_eq, Expected.step]
  rcases r.plan b c.protocolVersion with err | plan
  · exact ⟨c, rfl, h⟩
  · obtain ⟨c', hrun, h'⟩ := h.appendPlan codec r.handlers hm plan
    exact ⟨c', by simpa [EStateM.tryCatch_apply] using hrun, h'⟩

/-- On an open connection whose socket accepts every `sendall`, `send_all` moves the view to the
wire and changes nothing `Expected` accounts for. -/
theorem Tracks.sendAll (h : Tracks c₀ e c) (hlive : AcceptsSends c₀) :
    ∃ c', sendAll c = .ok () c' ∧ Tracks c₀ e c' := by
  by_cases hv : c.outbox.view = []
  · exact ⟨c, sendAll_of_nil hv, h⟩
  obtain ⟨fresh, L, closed, cur, pend, hsent, hL, hlay, hch, hpend⟩ := h.bytes
  obtain ⟨L', hch', hL'⟩ := hch.flush hlay h.maxChunkSize_eq
  refine ⟨_, sendAll_of_ok hv (h.closed_eq.trans hlive.closed) (h.defunct_eq.trans hlive.defunct)
    (h.writeFails_eq ▸ hlive.accepts _), h.maxChunkSize_eq, h.closed_eq, h.defunct_eq,
    h.writeFails_eq, h.protocolVersion_eq,
    ⟨fresh ++ [c.outbox.view], L', [], [], pend ++ cur, by simp [hsent], by simp [hL, hL'],
      Outbox.layout_clear _, by simpa using hch', by simp [hpend]⟩, h.queue⟩

/-- A whole run of steps accounts for its `Expected`, if the connection is open and accepts every
`sendall` whenever the run sends. -/
theorem Tracks.runSession (hm : c₀.outbox.maxChunkSize < 65536) (steps : List Step)
    (hlive : Step.sendAll ∈ steps → AcceptsSends c₀) :
    Tracks c₀ e c → ∃ c', runSession b codec steps c = .ok () c' ∧
      Tracks c₀ (steps.foldl (Expected.step b codec c₀.protocolVersion) e) c' := by
  induction steps generalizing e c with
  | nil => exact fun h => ⟨c, rfl, h⟩
  | cons s steps ih =>
    intro h
    have hlive' : Step.sendAll ∈ steps → AcceptsSends c₀ := fun hs =>
      hlive (List.mem_cons_of_mem _ hs)
    cases s with
    | request r =>
      obtain ⟨c1, h1, ht1⟩ := h.exec b codec hm r
      obtain ⟨c2, h2, ht2⟩ := ih hlive' ht1
      exact ⟨c2, by simp only [Connection.runSession, EStateM.bind_apply, h1, h2], ht2⟩
    | sendAll =>
      obtain ⟨c1, h1, ht1⟩ := h.sendAll (hlive (List.mem_cons_self _ _))
      obtain ⟨c2, h2, ht2⟩ := ih hlive' ht1
      exact ⟨c2, by simp only [Connection.runSession, EStateM.bind_apply, h1, h2], ht2⟩

/-- What a tracked connection has produced, on the wire and in the view. -/
theorem Tracks.framesOpen (h : Tracks c₀ e c) :
    ∃ sent, c.wire.sent = c₀.wire.sent ++ sent ∧
      FramesOpen c₀.outbox.maxChunkSize e.msgs e.pend (sent.flatten ++ c.outbox.view) := by
  obtain ⟨fresh, L, closed, cur, pend, hsent, hL, hlay, hch, hpend⟩ := h.bytes
  obtain ⟨L', hch', hL'⟩ := hch.flush hlay h.maxChunkSize_eq
  exact ⟨fresh, hsent, by simpa [hpend, hL, hL'] using hch'.framesOpen⟩

/-- Any run of requests and successful sends from an empty `Outbox`: the bytes handed to `sendall`
followed by the view are the messages `Expected` accounts for, framed, and then its unfinished
bytes as chunks with no terminator; the queue holds its responses, in order, behind the earlier
ones. -/
theorem runSession_wire (steps : List Step) (h0 : c.outbox.Layout [] [])
    (hm : c.outbox.maxChunkSize < 65536) (hlive : Step.sendAll ∈ steps → AcceptsSends c) :
    ∃ (c' : Connection) (sent : List (List UInt8)) (rs : List Response),
      runSession b codec steps c = .ok () c' ∧ c'.wire.sent = c.wire.sent ++ sent ∧
      FramesOpen c.outbox.maxChunkSize (Expected.ofSteps b codec c.protocolVersion steps).msgs
        (Expected.ofSteps b codec c.protocolVersion steps).pend (sent.flatten ++ c'.outbox.view) ∧
      c'.responses = c.responses ++ rs.map some ∧
      rs.map (fun r => (r.kind, r.handlers)) =
        (Expected.ofSteps b codec c.protocolVersion steps).resps := by
  obtain ⟨c', hrun, ht⟩ := Tracks.runSession b codec hm steps hlive (Tracks.start h0)
  obtain ⟨sent, hsent, hf⟩ := ht.framesOpen
  obtain ⟨rs, hq, hrs⟩ := ht.queue
  exact ⟨c', sent, rs, hrun, hsent, hf, hq, hrs⟩

theorem runSession_wire_pullAll :
    (Connection.sample false [] []).outbox.Layout [] [] ∧
    (Connection.sample false [] []).outbox.maxChunkSize < 65536 ∧
    AcceptsSends (Connection.sample false [] []) ∧
    ∃ (c' : Connection) (sent : List (List UInt8)) (rs : List Response),
      runSession Builtins.sample Codec.sample [.request (.pullAll returningHandlers), .sendAll]
        (Connection.sample false [] []) = .ok () c' ∧ c'.wire.sent = [] ++ sent ∧
      FramesOpen 16384 (Expected.ofSteps Builtins.sample Codec.sample 3
          [.request (.pullAll returningHandlers), .sendAll]).msgs
        (Expected.ofSteps Builtins.sample Codec.sample 3
          [.request (.pullAll returningHandlers), .sendAll]).pend
        (sent.flatten ++ c'.outbox.view) ∧
      c'.responses = [] ++ rs.map some ∧
      rs.map (fun r => (r.kind, r.handlers)) = (Expected.ofSteps Builtins.sample Codec.sample 3
        [.request (.pullAll returningHandlers), .sendAll]).resps :=
  ⟨Outbox.layout_init (by decide) (by decide), by decide, ⟨rfl, rfl, fun _ => rfl⟩,
    runSession_wire Builtins.sample Codec.sample _ (Outbox.layout_init (by decide) (by decide))
      (by decide) fun _ => ⟨rfl, rfl, fun _ => rfl⟩⟩

/-- `run` with a parameter PackStream cannot encode raises after the packer wrote the structure
header, and the `PULL_ALL` after it returns: its message on the wire starts with that header. -/
theorem runSession_packerFailure :
    ∃ c1 c2, (Request.run "RETURN 1" .other .null .null .null .null returningHandlers).exec
        Builtins.sample Codec.sample (Connection.sample false [] []) =
        .error (.raised .valueError) c1 ∧
      (Request.pullAll returningHandlers).exec Builtins.sample Codec.sample c1 = .ok () c2 ∧
      Frames 16384 [[0xB3, 0x10, 0xB0, 0x3F]] (c2.wire.sent.flatten ++ c2.outbox.view) ∧
      ¬Frames 16384 [[0xB0, 0x3F]] (c2.wire.sent.flatten ++ c2.outbox.view) := by
  have hm : (Connection.sample false [] []).outbox.maxChunkSize < 65536 := by decide
  have h0 : Tracks (Connection.sample false [] []) ⟨[], [], []⟩ (Connection.sample false [] []) :=
    Tracks.start (Outbox.layout_init (by decide) (by decide))
  obtain ⟨c1, hr1, ht1⟩ := (h0.newResponse 1).append_error Codec.sample hm
    (some ⟨0, .plain, returningHandlers⟩)
    (show Codec.sample.packStruct 0x10 [.str "RETURN 1", .other, .map []] =
      ([[0xB3], [0x10]], some .valueError) from rfl)
  obtain ⟨c2, hr2, ht2⟩ := (ht1.newResponse (c1.nextId + 1)).append_ok Codec.sample hm
    ⟨c1.nextId, .plain, returningHandlers⟩
    (show Codec.sample.packStruct 0x3F [] = ([[0xB0], [0x3F]], none) from rfl)
  obtain ⟨sent, hsent, hf⟩ := ht2.framesOpen
  have hf' : Frames 16384 [[0xB3, 0x10, 0xB0, 0x3F]] (c2.wire.sent.flatten ++ c2.outbox.view) := by
    rw [hsent]
    simpa using hf.frames
  refine ⟨c1, c2, ?_, ?_, hf', fun h => by simpa using Frames.unique (by decide) hf' h⟩
  · have hplan : (Request.run "RETURN 1" .other .null .null .null .null returningHandlers).plan
        Builtins.sample 3 =
        .ok [(0x10, [.str "RETURN 1", .other, .map []], .plain)] := rfl
    rw [Request.exec_eq, show (Connection.sample false [] []).protocolVersion = 3 from rfl, hplan]
    simpa [Connection.appendPlan, newResponse_apply] using hr1
  · simpa [Request.exec, Connection.pullAll, newResponse_apply] using hr2

end Connection

end Neobolt
