import Neobolt.Connection.State

/-!
# Fetching replies

`fetch_message`, `fetch_all` and the `Response` methods they dispatch to. A `FAILURE` makes
`Response.on_failure` call `reset()`, whose `fetch_all` may meet another `FAILURE`: the recursion
`fetch_all → fetch_message → on_failure → reset → fetch_all` is unbounded in the code. Here
`fetchMessage` and `reset` take the `fetch_all` they call as an argument, and `fetchAllLoop` ties
the knot with a fuel argument.

## Main definitions

* `Connection.nextMessage`: `next(self.inbox)` as a step of the message generator.
* `Connection.fetchMessage`: `fetch_message()`.
* `Connection.fetchAll`: `fetch_all()`.
* `Connection.resetWith`: `reset()`.
-/

namespace Neobolt

namespace Connection

variable (codec : Codec)

/-- `next(self.inbox)`: the next message as `(details, summary_signature, summary_metadata)`. A
structure of more than one field raises `ProtocolError`; a failed read calls `on_error`, which is
`_set_defunct`. Either exception ends the generator. -/
def nextMessage : ConnM (List Value × Option UInt8 × Option Metadata) := do
  let c ← get
  if c.inboxFinished then raise .stopIteration
  match c.wire.reads with
  | .message size signature field :: rest =>
    set { c with wire := { c.wire with reads := rest } }
    if 1 < size then
      modify fun c => { c with inboxFinished := true }
      raise .protocolError
    if signature = 0x71 then return ([field], none, none)
    return ([], some signature, codec.unpackMap field)
  | _ =>
    set { c with wire := { c.wire with reads := c.wire.reads.drop 1 }, inboxFinished := true }
    setDefunct codec

/-- The `except` clauses of `fetch_message` around `next(self.inbox)`: tell the pool, then
re-raise; a `ValueError` of the pool's `deactivate` leaves instead. -/
def onReadError {α : Type} (e : Exc) : ConnM α := do
  match e with
  | .raised .connectionExpired | .raised .serviceUnavailable | .raised .databaseUnavailable
  | .raised .ioError =>
    deactivatePool
  | .raised .notALeader | .raised .forbiddenOnReadOnlyDatabase =>
    if (← get).pooled then logEvent .removeWriter
  | _ => pure ()
  throw e

/-- `self.responses[0].on_records(details)`. -/
def onRecords (details : List Value) : ConnM Unit := do
  match (← get).responses with
  | some r :: _ => invoke r .onRecords (.records r.id details)
  | none :: _ => raise .attributeError
  | [] => raise .indexError

/-- `self.responses.popleft()` and `response.complete = True`, which raises `AttributeError` on
the `None` of a `GOODBYE`. -/
def popResponse : ConnM Response := do
  let c ← get
  match c.responses with
  | [] => raise .indexError
  | r :: rest =>
    set { c with responses := rest }
    match r with
    | some r => pure r
    | none => raise .attributeError

/-- `Response.on_success(metadata)`. -/
def onSuccess (r : Response) (metadata : Metadata) : ConnM Unit := do
  invoke r .onSuccess (.success r.id metadata)
  invoke r .onSummary (.summary r.id)

/-- `Response.on_ignored(metadata)`. -/
def onIgnored (r : Response) (metadata : Metadata) : ConnM Unit := do
  invoke r .onIgnored (.ignored r.id metadata)
  invoke r .onSummary (.summary r.id)

/-- The handlers of the response of `reset()`: `on_failure=fail`, where `fail` raises
`ProtocolError`. -/
def resetHandlers (name : HandlerName) : Option Callback :=
  if name = .onFailure then some (.raises .protocolError) else none

/-- `reset()`: queue `RESET` with a response whose `on_failure` raises `ProtocolError`, send it,
and run `fetchAll`, the `fetch_all()` of the connection. -/
def reset (fetchAll : ConnM (Nat × Nat)) : ConnM Unit := do
  let r ← newResponse .plain resetHandlers
  append codec 0x0F [] (some r)
  sendAll
  discard fetchAll

/-- `on_failure(metadata)`. For `Response` and `CommitResponse`: `reset()`, the caller's
`on_failure` and `on_summary`, then raise the hydrated error. `InitResponse` overrides it: it
raises `AuthError` for the code `Neo.ClientError.Security.Unauthorized` and `ServiceUnavailable`
otherwise, with no `RESET` and no handler. -/
def onFailure (fetchAll : ConnM (Nat × Nat)) (r : Response) (metadata : Metadata) :
    ConnM Unit :=
  match r.kind with
  | .init =>
    match metadata.lookup "code" with
    | some (.str code) =>
      if code = "Neo.ClientError.Security.Unauthorized" then raise .authError
      else raise .serviceUnavailable
    | _ => raise .serviceUnavailable
  | _ => do
    reset codec fetchAll
    invoke r .onFailure (.failure r.id metadata)
    invoke r .onSummary (.summary r.id)
    raise (codec.hydrate metadata)

/-- `fetch_message()`, where `fetchAll` is the `fetch_all()` that a `FAILURE`'s `RESET` runs:
read one message, pass a record to the head response, and hand a summary to the head response,
which leaves the queue. For any other summary signature, the message of the `ProtocolError` is
never built: `"%02X" % summary_signature` on the signature's `bytes` raises `TypeError`. -/
def fetchMessage (fetchAll : ConnM (Nat × Nat)) : ConnM (Nat × Nat) := do
  let c ← get
  if c.closed then raise .serviceUnavailable
  if c.defunct then raise .serviceUnavailable
  if c.responses.isEmpty then return (0, 0)
  let (details, signature, metadata) ← tryCatch (nextMessage codec) onReadError
  if !details.isEmpty then onRecords details
  match signature with
  | none => return (details.length, 0)
  | some signature =>
    let r ← popResponse
    let metadata := metadata.getD []
    if signature = 0x70 then onSuccess r metadata
    else if signature = 0x7E then onIgnored r metadata
    else if signature = 0x7F then onFailure codec fetchAll r metadata
    else raise .typeError
    return (details.length, 1)

/-- The loops of `fetch_all()` with their counters. The inner `while not response.complete` ends
exactly when `fetch_message` pops `response`, the only place `complete` is set, so the two loops
call `fetch_message` while the queue is non-empty, each time after reading `complete` on its head,
which raises `AttributeError` on a `None`. The `fetch_all` of a `RESET` runs on the remaining
fuel. -/
def fetchAllLoop : Nat → Nat → Nat → ConnM (Nat × Nat)
  | 0, _, _ => throw .outOfFuel
  | fuel + 1, detailCount, summaryCount => do
    match (← get).responses with
    | [] => return (detailCount, summaryCount)
    | none :: _ => raise .attributeError
    | some _ :: _ =>
      let (detailDelta, summaryDelta) ← fetchMessage codec (fetchAllLoop fuel 0 0)
      fetchAllLoop fuel (detailCount + detailDelta) (summaryCount + summaryDelta)

/-- `fetch_all()`, on `fuel` passes of its loops. -/
def fetchAll (fuel : Nat) : ConnM (Nat × Nat) :=
  fetchAllLoop codec fuel 0 0

/-- `reset()`, on `fuel` passes of the loops of its `fetch_all`. -/
def resetWith (fuel : Nat) : ConnM Unit :=
  reset codec (fetchAll codec fuel)

/-! ## One lemma per step -/

/-- The socket fails to deliver the next message: the script is exhausted, the peer closed, or
`recv_into` raised. -/
def ReadFails (reads : List Incoming) : Prop :=
  reads = [] ∨ ∃ rest, reads = .closedByPeer :: rest ∨ reads = .readError :: rest

variable {c : Connection} {size : Nat} {signature : UInt8} {field : Value} {rest : List Incoming}

theorem nextMessage_of_finished (hf : c.inboxFinished = true) :
    nextMessage codec c = .error (.raised .stopIteration) c := by
  simp [nextMessage, hf, raise]

/-- A message of at most one field is decoded: a `RECORD` into `details`, anything else into a
summary. -/
theorem nextMessage_of_message (hf : c.inboxFinished = false)
    (hr : c.wire.reads = .message size signature field :: rest) (hs : size ≤ 1) :
    nextMessage codec c = .ok (if signature = 0x71 then ([field], none, none)
      else ([], some signature, codec.unpackMap field))
      { c with wire := { c.wire with reads := rest } } := by
  simp [nextMessage, hf, hr, Nat.not_lt.mpr hs]
  split <;> rfl

theorem nextMessage_of_oversized (hf : c.inboxFinished = false)
    (hr : c.wire.reads = .message size signature field :: rest) (hs : 1 < size) :
    nextMessage codec c = .error (.raised .protocolError)
      { c with wire := { c.wire with reads := rest }, inboxFinished := true } := by
  simp [nextMessage, hf, hr, hs, raise]

/-- A failed read runs `_set_defunct` and ends the generator. -/
theorem nextMessage_of_readFails (hf : c.inboxFinished = false) (hc : c.closed = false)
    (hr : ReadFails c.wire.reads) :
    nextMessage codec c = .error (.raised (c.deactivateError (defunctError c.responses)))
      { c with
        wire := { c.wire with reads := c.wire.reads.drop 1, socketClosed := true }
        inboxFinished := true, defunct := true, closed := true
        log := c.log ++ if c.pooled then [.deactivate] else [] } := by
  simp only [nextMessage, EStateM.bind_apply, EStateM.get_apply, EStateM.pure_apply, hf,
    Bool.false_eq_true, if_false]
  rcases hr with hr | ⟨rest, hr | hr⟩ <;>
    simp only [hr, EStateM.bind_apply, EStateM.set_apply] <;> exact setDefunct_apply codec hc

/-- A connection that can read: open, not defunct, and its message generator still running. -/
structure Live (c : Connection) : Prop where
  closed : c.closed = false
  defunct : c.defunct = false
  inbox : c.inboxFinished = false

variable {F : ConnM (Nat × Nat)} {r : Response} {rs : List (Option Response)}

/-- A `RECORD` goes to the head response's `on_records`; the queue stays. -/
theorem fetchMessage_of_record (h : c.Live) (hq : c.responses = some r :: rs)
    (hret : r.ReturnsOn .onRecords) (hr : c.wire.reads = .message size 0x71 field :: rest)
    (hs : size ≤ 1) :
    fetchMessage codec F c = .ok (1, 0)
      { c with
        wire := { c.wire with reads := rest }
        log := c.log ++ r.call .onRecords (.records r.id [field]) } := by
  simp [fetchMessage, h.closed, h.defunct, hq, nextMessage_of_message codec h.inbox hr hs,
    onRecords, invoke_of_returnsOn hret]

/-- A `SUCCESS` pops the head response and calls its `on_success` and `on_summary`. -/
theorem fetchMessage_of_success (h : c.Live) (hq : c.responses = some r :: rs)
    (hret : r.ReturnsOn .onSuccess) (hsum : r.ReturnsOn .onSummary)
    (hr : c.wire.reads = .message size 0x70 field :: rest) (hs : size ≤ 1) :
    fetchMessage codec F c = .ok (0, 1)
      { c with
        wire := { c.wire with reads := rest }, responses := rs
        log := c.log ++ r.call .onSuccess (.success r.id ((codec.unpackMap field).getD [])) ++
          r.call .onSummary (.summary r.id) } := by
  simp [fetchMessage, h.closed, h.defunct, hq, nextMessage_of_message codec h.inbox hr hs,
    popResponse, onSuccess, invoke_of_returnsOn hret, invoke_of_returnsOn hsum]

/-- An `IGNORED` pops the head response and calls its `on_ignored` and `on_summary`. -/
theorem fetchMessage_of_ignored (h : c.Live) (hq : c.responses = some r :: rs)
    (hret : r.ReturnsOn .onIgnored) (hsum : r.ReturnsOn .onSummary)
    (hr : c.wire.reads = .message size 0x7E field :: rest) (hs : size ≤ 1) :
    fetchMessage codec F c = .ok (0, 1)
      { c with
        wire := { c.wire with reads := rest }, responses := rs
        log := c.log ++ r.call .onIgnored (.ignored r.id ((codec.unpackMap field).getD [])) ++
          r.call .onSummary (.summary r.id) } := by
  simp [fetchMessage, h.closed, h.defunct, hq, nextMessage_of_message codec h.inbox hr hs,
    popResponse, onIgnored, invoke_of_returnsOn hret, invoke_of_returnsOn hsum]

/-- A `FAILURE` pops the head response and runs its `on_failure`. -/
theorem fetchMessage_of_failure (h : c.Live) (hq : c.responses = some r :: rs)
    (hr : c.wire.reads = .message size 0x7F field :: rest) (hs : size ≤ 1) :
    fetchMessage codec F c = (onFailure codec F r ((codec.unpackMap field).getD []) >>=
      fun _ => pure (0, 1)) { c with wire := { c.wire with reads := rest }, responses := rs } := by
  simp [fetchMessage, h.closed, h.defunct, hq, nextMessage_of_message codec h.inbox hr hs,
    popResponse]

/-- A summary of any other signature pops the head response and raises `TypeError`. -/
theorem fetchMessage_of_unknown (h : c.Live) (hq : c.responses = some r :: rs)
    (hr : c.wire.reads = .message size signature field :: rest) (hs : size ≤ 1)
    (h71 : signature ≠ 0x71) (h70 : signature ≠ 0x70) (h7E : signature ≠ 0x7E)
    (h7F : signature ≠ 0x7F) :
    fetchMessage codec F c = .error (.raised .typeError)
      { c with wire := { c.wire with reads := rest }, responses := rs } := by
  simp [fetchMessage, h.closed, h.defunct, hq, nextMessage_of_message codec h.inbox hr hs,
    popResponse, h71, h70, h7E, h7F, raise]

/-- `on_failure` of a `Response` or `CommitResponse`. -/
theorem onFailure_of_ne_init (hk : r.kind ≠ .init) (metadata : Metadata) :
    onFailure codec F r metadata = (do
      reset codec F
      invoke r .onFailure (.failure r.id metadata)
      invoke r .onSummary (.summary r.id)
      raise (codec.hydrate metadata)) := by
  unfold onFailure
  split <;> simp_all

/-- `reset()` queues `RESET` behind the waiting responses and sends the `Outbox`. -/
theorem reset_apply {o : Outbox}
    (hw : (codec.packStruct 0x0F []).1.forM Outbox.write c.outbox = .ok () o) :
    reset codec F c = (do sendAll; discard F)
      { c with
        nextId := c.nextId + 1, outbox := o.chunk.chunk
        responses := c.responses ++ [some (⟨c.nextId, .plain, resetHandlers⟩ : Response)] } := by
  have hp : codec.packStruct 0x0F [] = ((codec.packStruct 0x0F []).1, none) :=
    Prod.ext rfl (codec.packStruct_nil 0x0F)
  have happ : append codec 0x0F [] (some (⟨c.nextId, .plain, resetHandlers⟩ : Response))
      { c with nextId := c.nextId + 1 } = .ok ()
      { c with
        nextId := c.nextId + 1, outbox := o.chunk.chunk
        responses := c.responses ++ [some (⟨c.nextId, .plain, resetHandlers⟩ : Response)] } :=
    append_of_ok codec hp hw
  simp only [reset, EStateM.bind_apply, newResponse_apply, happ]

theorem fetchAllLoop_of_nil {n d s : Nat} (hq : c.responses = []) :
    fetchAllLoop codec (n + 1) d s c = .ok (d, s) c := by
  simp [fetchAllLoop, hq]

/-- A pass of the loops of `fetch_all` on a non-empty queue whose head is a response. -/
theorem fetchAllLoop_succ_of_some {n d s : Nat} (hq : c.responses = some r :: rs) :
    fetchAllLoop codec (n + 1) d s c = (fetchMessage codec (fetchAllLoop codec n 0 0) >>=
      fun x => fetchAllLoop codec n (d + x.1) (s + x.2)) c := by
  simp [fetchAllLoop, hq]

/-- A pass of the loops of `fetch_all` whose `fetch_message` returns. -/
theorem fetchAllLoop_of_ok {n d s dd sd : Nat} {c' : Connection} (hq : c.responses = some r :: rs)
    (hm : fetchMessage codec (fetchAllLoop codec n 0 0) c = .ok (dd, sd) c') :
    fetchAllLoop codec (n + 1) d s c = fetchAllLoop codec n (d + dd) (s + sd) c' := by
  simp [fetchAllLoop, hq, hm]

/-- A pass of the loops of `fetch_all` whose `fetch_message` raises. -/
theorem fetchAllLoop_of_error {n d s : Nat} {e : Exc} {c' : Connection}
    (hq : c.responses = some r :: rs)
    (hm : fetchMessage codec (fetchAllLoop codec n 0 0) c = .error e c') :
    fetchAllLoop codec (n + 1) d s c = .error e c' := by
  simp [fetchAllLoop, hq, hm]

end Connection

end Neobolt
