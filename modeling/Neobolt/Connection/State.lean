import Neobolt.Basic
import Neobolt.Wire.OutboxMessages

/-!
# Connection state

The state of a `Connection` of `neobolt/direct.py` as its request pipeline sees it, and the
operations that every request and every failed read go through: `_append`, `send_all`, `close`
and `_set_defunct`.

A method runs in `ConnM`, an `EStateM` over the connection: as in Python, what a method changed
before it raised stays changed. The socket is part of the state (`Wire`): the replies it will
deliver, which `sendall` calls fail, and every buffer handed to `sendall`. The callbacks the caller
registered, and the pool's `deactivate` and `remove_writer`, are observed through a log of
`Event`s.

The PackStream codec and `CypherError.hydrate` live outside `direct.py`; `Codec` holds what the
connection takes from them.

## Main definitions

* `Value`, `Incoming`: PackStream values and what `next(self.inbox)` meets on the wire.
* `Response`: a response object with its class and its handlers.
* `Connection`, `ConnM`: the state, and methods over it.
* `Connection.append`, `Connection.sendAll`, `Connection.close`, `Connection.setDefunct`:
  `_append`, `send_all`, `close` and `_set_defunct`.
-/

namespace Neobolt

/-- A PackStream value, as far as the connection builds or passes one on. -/
inductive Value where
  | null
  | bool (b : Bool)
  | int (n : Int)
  | str (s : String)
  | list (items : List Value)
  | map (entries : List (String × Value))
  /-- An object of another type, such as a `datetime`, which PackStream cannot encode and which
  is not iterable. -/
  | other

/-- The metadata map of a summary message. -/
abbrev Metadata := List (String × Value)

/-- What `next(self.inbox)` meets on the wire: a whole message, as the unpacker decodes its
structure header and field, or a read that fails because the peer closed the connection or
`recv_into` raised. -/
inductive Incoming where
  | message (size : Nat) (signature : UInt8) (field : Value)
  | closedByPeer
  | readError

/-- A handler the caller registered: it returns, or it raises. -/
inductive Callback where
  | returns
  | raises (e : ErrorKind)

/-- The keys under which `Response` looks up the caller's handlers. -/
inductive HandlerName where
  | onRecords
  | onSuccess
  | onFailure
  | onIgnored
  | onSummary
  deriving DecidableEq, Repr

/-- The class of a response object: `Response`, `InitResponse` or `CommitResponse`. -/
inductive ResponseKind where
  | plain
  | init
  | commit
  deriving DecidableEq, Repr

/-- A response object: its identity, its class, and `handlers.get(name)` for each name (`none`
when the caller passed no callable under that name). -/
structure Response where
  /-- The object's identity, which the events of its handlers carry. -/
  id : Nat
  /-- Its class. -/
  kind : ResponseKind
  /-- `handlers.get(name)`, for each name. -/
  handlers : HandlerName → Option Callback

/-- What the caller and the pool observe: a handler called with its argument, or a call of the
pool's `deactivate` or `remove_writer` for the connection's address. -/
inductive Event where
  | records (id : Nat) (details : List Value)
  | success (id : Nat) (metadata : Metadata)
  | ignored (id : Nat) (metadata : Metadata)
  | failure (id : Nat) (metadata : Metadata)
  | summary (id : Nat)
  | deactivate
  | removeWriter

/-- The connection's socket: the messages it will deliver (an exhausted script reads as the peer
closing), which `sendall` calls raise `OSError`, and every buffer passed to `sendall`. -/
structure Wire where
  /-- What the socket will deliver, in order. -/
  reads : List Incoming
  /-- `writeFails n`: the `sendall` made after `n` earlier ones raises `OSError`. -/
  writeFails : Nat → Bool
  /-- Every buffer passed to `sendall`, in order, including those whose call raised. -/
  sent : List (List UInt8)
  /-- `socket.close()` has been called. -/
  socketClosed : Bool

/-- The fields of a `Connection` that its request pipeline reads or writes, and what the pool
answers when the connection calls its `deactivate`. -/
structure Connection where
  /-- `self.protocol_version`. -/
  protocolVersion : Nat
  /-- `self.outbox`. -/
  outbox : Outbox
  /-- `self.responses`; `None` is what `_append` queues for `GOODBYE`. -/
  responses : List (Option Response)
  /-- `self._closed`. -/
  closed : Bool
  /-- `self._defunct`. -/
  defunct : Bool
  /-- `self.pool is not None`. -/
  pooled : Bool
  /-- `deactivateRaises n`: the pool's `deactivate(self.unresolved_address)`, called when `n`
  events have been logged, raises `ValueError`, as it does when one of its own `close()` calls
  re-enters it (`PoolState.deactivate_reentrant`). -/
  deactivateRaises : Nat → Bool
  /-- An exception has left the `Inbox` generator, after which `next` raises `StopIteration`. -/
  inboxFinished : Bool
  /-- The identity of the next response object. -/
  nextId : Nat
  /-- The socket. -/
  wire : Wire
  /-- What the caller and the pool have observed so far. -/
  log : List Event

/-- An exception leaving a method, or the model's bound on the recursion of `fetch_all` running
out. -/
inductive Exc where
  | raised (e : ErrorKind)
  | outOfFuel
  deriving DecidableEq, Repr

/-- A method of `Connection`. -/
abbrev ConnM := EStateM Exc Connection

/-- What the connection takes from the PackStream codec and the exception module: the writes
`pack_struct` makes into the `Outbox` and the exception it may end with; `unpack_map()` on a
summary's field; and `CypherError.hydrate`. A structure always has a header, so a packed message
writes at least one byte, and only a field can fail to pack. -/
structure Codec where
  packStruct : UInt8 → List Value → List (List UInt8) × Option ErrorKind
  packStruct_writes : ∀ signature fields, (packStruct signature fields).2 = none →
    (packStruct signature fields).1.flatten ≠ []
  packStruct_nil : ∀ signature, (packStruct signature []).2 = none
  unpackMap : Value → Option Metadata
  hydrate : Metadata → ErrorKind

/-- The events `r`'s handler `name` logs when called with `e`: `e`, if the caller registered a
handler under that name. -/
def Response.call (r : Response) (name : HandlerName) (e : Event) : List Event :=
  if (r.handlers name).isSome then [e] else []

/-- The handler registered on `r` under `name`, if any, returns normally. -/
def Response.ReturnsOn (r : Response) (name : HandlerName) : Prop :=
  ∀ cb, r.handlers name = some cb → cb = .returns

/-- Every handler registered on `r` returns normally. -/
def Response.Returns (r : Response) : Prop :=
  ∀ name, r.ReturnsOn name

/-- `isinstance(response, CommitResponse)` for some `response` in the queue. -/
def commitQueued (responses : List (Option Response)) : Bool :=
  responses.any fun r => r.any fun r => r.kind == .commit

/-- The exception `_set_defunct` raises for a queue. -/
def defunctError (responses : List (Option Response)) : ErrorKind :=
  if commitQueued responses then .incompleteCommit else .serviceUnavailable

namespace Connection

variable (codec : Codec)

/-- `raise e`. -/
def raise {α : Type} (e : ErrorKind) : ConnM α :=
  throw (.raised e)

/-- Record what the caller or the pool observes. -/
def logEvent (e : Event) : ConnM Unit :=
  modify fun c => { c with log := c.log ++ [e] }

/-- An `Outbox` method on `self.outbox`; its exception leaves the connection's method. -/
def withOutbox {α : Type} (x : EStateM ErrorKind Outbox α) : ConnM α := fun c =>
  match x c.outbox with
  | .ok a o => .ok a { c with outbox := o }
  | .error e o => .error (.raised e) { c with outbox := o }

/-- A new response object of class `kind` with the caller's `handlers`. -/
def newResponse (kind : ResponseKind) (handlers : HandlerName → Option Callback) :
    ConnM Response := fun c =>
  .ok ⟨c.nextId, kind, handlers⟩ { c with nextId := c.nextId + 1 }

/-- `_append(signature, fields, response)`: the packer writes the message into the `Outbox`,
`chunk()` twice ends it, and `response` joins the queue (`None` for `GOODBYE` included). An
exception of the packer leaves its writes in the `Outbox` and the queue as it was. -/
def append (signature : UInt8) (fields : List Value) (response : Option Response) :
    ConnM Unit := do
  let (writes, error) := codec.packStruct signature fields
  withOutbox (writes.forM Outbox.write)
  if let some e := error then raise e
  withOutbox (do modify Outbox.chunk; modify Outbox.chunk)
  modify fun c => { c with responses := c.responses ++ [response] }

/-- `if self.pool: self.pool.deactivate(self.unresolved_address)`: the call is logged, and raises
`ValueError` when `deactivateRaises` says so for it. -/
def deactivatePool : ConnM Unit := do
  let c ← get
  if c.pooled then
    logEvent .deactivate
    if c.deactivateRaises c.log.length then raise .valueError

/-- The exception that leaves an `except` clause that calls the pool's `deactivate` and then
re-raises `e`: `e`, or the `ValueError` of the pool's `deactivate`. -/
def deactivateError (c : Connection) (e : ErrorKind) : ErrorKind :=
  if c.pooled && c.deactivateRaises c.log.length then .valueError else e

/-- `send_all()`: hand the `Outbox` view to `socket.sendall` and clear it. An empty view sends
nothing; a closed or defunct connection raises `self.Error`, which is `ServiceUnavailable`. A
failing `sendall` (a socket raises `OSError` only) deactivates the address and re-raises, leaving
the `Outbox` and the flags as they were. -/
def sendAll : ConnM Unit := do
  let c ← get
  let data := c.outbox.view
  if data.isEmpty then return
  if c.closed then raise .serviceUnavailable
  if c.defunct then raise .serviceUnavailable
  set { c with wire := { c.wire with sent := c.wire.sent ++ [data] } }
  if c.wire.writeFails c.wire.sent.length then
    deactivatePool
    raise .ioError
  modify fun c => { c with outbox := c.outbox.clear }

/-- `close()`: unless closed, send `GOODBYE` from a live connection of protocol version `3` or
later (ignoring a `ServiceUnavailable` from `send_all`), close the socket and mark the connection
closed. -/
def close : ConnM Unit := do
  let c ← get
  if !c.closed then
    if !c.defunct && 3 ≤ c.protocolVersion then
      append codec 0x02 [] none
      tryCatch (sendAll) fun
        | .raised .serviceUnavailable => pure ()
        | e => throw e
    modify fun c => { c with wire := { c.wire with socketClosed := true }, closed := true }

/-- `_set_defunct()`, the `Inbox`'s `on_error`: mark the connection defunct, close it, deactivate
its address, and raise `IncompleteCommitError` if a `CommitResponse` is queued, else
`ServiceUnavailable`; a `ValueError` of the pool's `deactivate` leaves first. -/
def setDefunct {α : Type} : ConnM α := do
  modify fun c => { c with defunct := true }
  close codec
  deactivatePool
  if commitQueued (← get).responses then raise .incompleteCommit
  raise .serviceUnavailable

/-- A handler of `r`: log the call and run the caller's callback, if one is registered. -/
def invoke (r : Response) (name : HandlerName) (e : Event) : ConnM Unit :=
  match r.handlers name with
  | none => pure ()
  | some cb => do
    logEvent e
    match cb with
    | .returns => pure ()
    | .raises err => raise err

/-! ## One lemma per method -/

variable {c : Connection}

theorem invoke_of_returnsOn {r : Response} {name : HandlerName} {e : Event}
    (h : r.ReturnsOn name) : invoke r name e c = .ok () { c with log := c.log ++ r.call name e } := by
  unfold invoke Response.call
  cases hname : r.handlers name with
  | none => simp
  | some cb => simp [h cb hname, logEvent]

theorem newResponse_apply (kind : ResponseKind) (handlers : HandlerName → Option Callback) :
    newResponse kind handlers c = .ok ⟨c.nextId, kind, handlers⟩ { c with nextId := c.nextId + 1 } :=
  rfl

theorem withOutbox_of_ok {α : Type} {x : EStateM ErrorKind Outbox α} {a : α} {o : Outbox}
    (h : x c.outbox = .ok a o) : withOutbox x c = .ok a { c with outbox := o } := by
  simp [withOutbox, h]

theorem withOutbox_of_error {α : Type} {x : EStateM ErrorKind Outbox α} {e : ErrorKind}
    {o : Outbox} (h : x c.outbox = .error e o) :
    withOutbox x c = .error (.raised e) { c with outbox := o } := by
  simp [withOutbox, h]

/-- A message the packer writes completely is closed off and its response joins the queue. -/
theorem append_of_ok {signature : UInt8} {fields : List Value} {response : Option Response}
    {writes : List (List UInt8)} {o : Outbox}
    (hp : codec.packStruct signature fields = (writes, none))
    (hw : writes.forM Outbox.write c.outbox = .ok () o) :
    append codec signature fields response c =
      .ok () { c with outbox := o.chunk.chunk, responses := c.responses ++ [response] } := by
  simp [append, hp, withOutbox_of_ok hw]
  rfl

/-- A packer that raises leaves its writes in the `Outbox` and the queue as it was. -/
theorem append_of_error {signature : UInt8} {fields : List Value} {response : Option Response}
    {writes : List (List UInt8)} {e : ErrorKind} {o : Outbox}
    (hp : codec.packStruct signature fields = (writes, some e))
    (hw : writes.forM Outbox.write c.outbox = .ok () o) :
    append codec signature fields response c = .error (.raised e) { c with outbox := o } := by
  simp [append, hp, withOutbox_of_ok hw, raise]

theorem sendAll_of_nil (h : c.outbox.view = []) : sendAll c = .ok () c := by
  simp [sendAll, h]

theorem sendAll_of_closed (h : c.outbox.view ≠ []) (hc : c.closed = true) :
    sendAll c = .error (.raised .serviceUnavailable) c := by
  simp [sendAll, h, hc, raise]

theorem sendAll_of_defunct (h : c.outbox.view ≠ []) (hd : c.defunct = true) :
    sendAll c = .error (.raised .serviceUnavailable) c := by
  cases hc : c.closed <;> simp [sendAll, h, hc, hd, raise]

/-- A live connection hands its view to `sendall` and clears the `Outbox`. -/
theorem sendAll_of_ok (h : c.outbox.view ≠ []) (hc : c.closed = false) (hd : c.defunct = false)
    (hw : c.wire.writeFails c.wire.sent.length = false) :
    sendAll c = .ok ()
      { c with
        wire := { c.wire with sent := c.wire.sent ++ [c.outbox.view] }
        outbox := c.outbox.clear } := by
  simp [sendAll, h, hc, hd, hw]

/-- The pool's `deactivate`, then `raise e`: `e` leaves, unless the pool raises `ValueError`. -/
theorem deactivatePool_raise {α : Type} (e : ErrorKind) :
    (do deactivatePool; raise e : ConnM α) c = .error (.raised (c.deactivateError e))
      { c with log := c.log ++ if c.pooled then [.deactivate] else [] } := by
  obtain ⟨_, _, _, _, _, pooled, raises, _, _, _, log⟩ := c
  cases pooled <;> cases hr : raises log.length <;>
    simp [deactivatePool, deactivateError, hr, raise, logEvent]

/-- An `except` clause that calls the pool's `deactivate` re-raises `e`, or the `ValueError` of a
pooled connection's pool. -/
theorem deactivateError_cases (c : Connection) (e : ErrorKind) :
    c.deactivateError e = e ∨
      c.deactivateError e = .valueError ∧ c.pooled = true ∧ ∃ n, c.deactivateRaises n = true := by
  unfold deactivateError
  split
  · next h =>
    simp only [Bool.and_eq_true] at h
    exact .inr ⟨rfl, h.1, _, h.2⟩
  · exact .inl rfl

/-- A failing `sendall` raises `OSError`, or the pool's `ValueError`, and leaves the `Outbox` and
the flags as they were. -/
theorem sendAll_of_fails (h : c.outbox.view ≠ []) (hc : c.closed = false)
    (hd : c.defunct = false) (hw : c.wire.writeFails c.wire.sent.length = true) :
    sendAll c = .error (.raised (c.deactivateError .ioError))
      { c with
        wire := { c.wire with sent := c.wire.sent ++ [c.outbox.view] }
        log := c.log ++ if c.pooled then [.deactivate] else [] } := by
  simp only [sendAll, EStateM.bind_apply, EStateM.get_apply, List.isEmpty_eq_false.mpr h, hc, hd,
    hw, Bool.false_eq_true, if_false, if_true, EStateM.pure_apply, EStateM.set_apply]
  exact deactivatePool_raise .ioError

theorem close_of_closed (hc : c.closed = true) : close codec c = .ok () c := by
  simp [close, hc]

/-- A defunct connection closes without a `GOODBYE`. -/
theorem close_of_defunct (hc : c.closed = false) (hd : c.defunct = true) :
    close codec c = .ok () { c with wire := { c.wire with socketClosed := true }, closed := true } := by
  simp [close, hc, hd]

/-- `_set_defunct` on a live connection: defunct, closed, the address deactivated, and the
exception chosen by the queue, or the pool's `ValueError`. -/
theorem setDefunct_apply {α : Type} (hc : c.closed = false) :
    (setDefunct codec : ConnM α) c = .error (.raised (c.deactivateError (defunctError c.responses)))
      { c with
        defunct := true, closed := true, wire := { c.wire with socketClosed := true }
        log := c.log ++ if c.pooled then [.deactivate] else [] } := by
  cases hp : c.pooled <;> cases hr : c.deactivateRaises c.log.length <;>
    cases hq : commitQueued c.responses <;>
    simp [setDefunct, close, deactivatePool, deactivateError, hc, hp, hr, hq, defunctError, raise,
      logEvent]

/-- `_set_defunct` on a connection already closed: defunct, not closed again, and the same
exception. -/
theorem setDefunct_of_closed {α : Type} (hc : c.closed = true) :
    (setDefunct codec : ConnM α) c = .error (.raised (c.deactivateError (defunctError c.responses)))
      { c with defunct := true, log := c.log ++ if c.pooled then [.deactivate] else [] } := by
  cases hp : c.pooled <;> cases hr : c.deactivateRaises c.log.length <;>
    cases hq : commitQueued c.responses <;>
    simp [setDefunct, close, deactivatePool, deactivateError, hc, hp, hr, hq, defunctError, raise,
      logEvent]

end Connection

/-! ## Sample values -/

/-- A codec whose packer writes a structure's marker and signature and then raises
`ValueError` if a field is of a type it cannot encode, whose `unpack_map` reads a map, and whose
`hydrate` gives `DatabaseUnavailableError`, `NotALeaderError` and
`ForbiddenOnReadOnlyDatabaseError` for their codes and a `CypherError` otherwise. -/
def Codec.sample : Codec where
  packStruct signature fields :=
    ([[0xB0 + UInt8.ofNat fields.length], [signature]],
      if fields.any (fun v => match v with | .other => true | _ => false) then some .valueError
      else none)
  packStruct_writes _ _ _ := by simp
  packStruct_nil _ := rfl
  unpackMap
    | .map m => some m
    | _ => none
  hydrate metadata :=
    match metadata.lookup "code" with
    | some (.str "Neo.TransientError.General.DatabaseUnavailable") => .databaseUnavailable
    | some (.str "Neo.ClientError.Cluster.NotALeader") => .notALeader
    | some (.str "Neo.ClientError.General.ForbiddenOnReadOnlyDatabase") =>
      .forbiddenOnReadOnlyDatabase
    | _ => .cypherError

/-- A handler under every name, each returning. -/
def returningHandlers : HandlerName → Option Callback :=
  fun _ => some .returns

/-- A Bolt v3 connection fresh from its constructor, with `responses` queued, nothing sent yet
and the socket about to deliver `reads`. -/
def Connection.sample (pooled : Bool) (reads : List Incoming) (responses : List (Option Response)) :
    Connection where
  protocolVersion := 3
  outbox := Outbox.init 8192 16384 (by decide)
  responses := responses
  closed := false
  defunct := false
  pooled := pooled
  deactivateRaises _ := false
  inboxFinished := false
  nextId := responses.length
  wire := { reads := reads, writeFails := fun _ => false, sent := [], socketClosed := false }
  log := []

end Neobolt
