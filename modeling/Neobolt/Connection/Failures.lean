import Neobolt.Connection.Confined
import Neobolt.Connection.Pipeline

/-!
# Failures of the wire

A socket read that raises or meets end-of-stream makes the `Inbox` call `_set_defunct`: the
connection becomes defunct and closed, the pool is told, and the exception is
`IncompleteCommitError` if a `CommitResponse` is still in the queue, `ServiceUnavailable`
otherwise. Nothing else marks a connection defunct, and the only `except` clause on the way to the
caller that replaces the exception is the pool's: its `deactivate`, called from `_set_defunct` and
again from `fetch_message` after a `ServiceUnavailable`, may raise `ValueError`. From then on the
connection leaves its socket alone. A failing `sendall` is another matter: `send_all` re-raises
its `OSError` with the connection live and the `Outbox` as it was, whatever is in the queue. A
`FAILURE` summary raises the error hydrated from its metadata, outside the `try` of
`fetch_message`.

## Main definitions

* `Connection.DefunctRaises`: a method that turns a connection defunct raises what
  `_set_defunct` raises, for the queue it leaves.
* `Connection.Op`, `Connection.runOps`: the caller's calls of the public methods.

## Main results

* `Connection.defunctRaises_fetchAllLoop`, `Connection.defunctRaises_run`: every method is a
  `DefunctRaises`, through the recursion of a `FAILURE`'s `RESET`.
* `Connection.run_defunct_raises`: the exception of a call that leaves the connection defunct.
* `Connection.commit_failure_exceptions`: a `COMMIT` still in the `Outbox` counts as well; a
  failing `sendall` raises `OSError` with a `COMMIT` outstanding; the pool's `ValueError` can take
  the place of `IncompleteCommitError`.
* `Connection.readFailure_shuts`: after a failed read, the socket is left alone.
* `Connection.wire_failure_outcomes`: after a failed `sendall` the next `send_all` sends the same
  bytes again, and a message that breaks the grammar leaves the connection live.
* `Connection.fetchAll_databaseUnavailable`: a hydrated `DatabaseUnavailableError` leaves
  `fetch_all` with no `deactivate`.
* `Connection.close_goodbye`: a failing `GOODBYE` makes `close()` raise `OSError` and leaves the
  connection open; a delivered one leaves `None` in the queue.
-/

namespace Neobolt

namespace Connection

variable (b : Builtins) (codec : Codec) {F : ConnM (Nat × Nat)}

/-- The exceptions a failed read sends on from `c`: the one `_set_defunct` raises for the queue,
or, from a pooled connection, the `ValueError` of a call of the pool's `deactivate`. -/
def DefunctErrors (c : Connection) (e : Exc) : Prop :=
  e = .raised (defunctError c.responses) ∨
    e = .raised .valueError ∧ c.pooled = true ∧ ∃ n, c.deactivateRaises n = true

/-- How a method started on a connection that is not defunct ends: if it returns, the connection
is still not defunct; if it raises leaving the connection defunct, the exception is one of
`DefunctErrors` for the queue left behind, and the connection is closed. -/
def DefunctOutcome {α : Type} : EStateM.Result Exc Connection α → Prop
  | .ok _ c' => c'.defunct = false
  | .error e c' => c'.defunct = true → DefunctErrors c' e ∧ c'.closed = true

/-- From every connection that is not defunct, `x` ends as `DefunctOutcome` says. -/
def DefunctRaises {α : Type} (x : ConnM α) : Prop :=
  ∀ c : Connection, c.defunct = false → DefunctOutcome (x c)

/-! ## Closure under the monad's operations -/

theorem DefunctOutcome.of_keepsDefunct {α : Type} {c : Connection}
    {r : EStateM.Result Exc Connection α} (hc : c.defunct = false) (h : KeepsDefunct c r.state) :
    DefunctOutcome r := by
  rcases r with ⟨_, c'⟩ | ⟨_, c'⟩
  · exact h.trans hc
  · intro hd
    cases hd.symm.trans (h.trans hc)

namespace DefunctRaises

variable {α β : Type} {x : ConnM α} {f : α → ConnM β}

theorem of_keepsDefunct (h : Confined KeepsDefunct x) : DefunctRaises x :=
  fun c hc => .of_keepsDefunct hc (h c)

theorem of_keepsFlags (h : Confined KeepsFlags x) : DefunctRaises x :=
  of_keepsDefunct (h.mono fun _ _ h => h.2)

theorem of_keepsLink (h : Confined KeepsLink x) : DefunctRaises x :=
  of_keepsFlags (h.mono fun _ _ h => h.keepsFlags)

theorem bind (hx : DefunctRaises x) (hf : ∀ a, DefunctRaises (f a)) : DefunctRaises (x >>= f) := by
  intro c hc
  have hxc := hx c hc
  rcases h : x c with ⟨a, c1⟩ | ⟨e, c1⟩ <;> rw [h] at hxc
  · rw [EStateM.bind_apply_of_ok h]
    exact hf a c1 hxc
  · rw [EStateM.bind_apply_of_error h]
    exact hxc

theorem ite {p : Prop} [Decidable p] {y : ConnM α} (hx : DefunctRaises x) (hy : DefunctRaises y) :
    DefunctRaises (if p then x else y) := by
  split <;> assumption

theorem pure (a : α) : DefunctRaises (Pure.pure a : ConnM α) :=
  of_keepsFlags (Confined.pure a)

theorem raise (e : ErrorKind) : DefunctRaises (raise e : ConnM α) :=
  of_keepsFlags (Confined.raise e)

/-- The shape of a `do` block's `if` without `else`, and of any `if` followed by more code. -/
theorem ite_bind {p : Prop} [Decidable p] {y : ConnM α} (hx : DefunctRaises x)
    (hy : DefunctRaises y) (hf : ∀ a, DefunctRaises (f a)) :
    DefunctRaises (if p then x >>= f else y >>= f) :=
  ite (bind hx hf) (bind hy hf)

theorem discard (hx : DefunctRaises x) : DefunctRaises (Functor.discard x) := by
  rw [show Functor.discard x = x >>= fun _ => Pure.pure PUnit.unit from rfl]
  exact bind hx fun _ => pure _

end DefunctRaises

/-! ## The methods of a connection -/

/-- The pool's exception stands in for `e` only on a pooled connection. -/
theorem defunctErrors_deactivateError {c c' : Connection} (hq : c'.responses = c.responses)
    (hp : c'.pooled = c.pooled) (hr : c'.deactivateRaises = c.deactivateRaises) :
    DefunctErrors c' (.raised (c.deactivateError (defunctError c.responses))) := by
  rcases deactivateError_cases c (defunctError c.responses) with h | ⟨h, hp', hr'⟩ <;> rw [h]
  · exact .inl (by rw [hq])
  · exact .inr ⟨rfl, hp.trans hp', by rwa [hr]⟩

/-- `_set_defunct` from any state: defunct, closed, and the exception chosen by the queue, or the
pool's `ValueError`. -/
theorem setDefunct_raises {α : Type} (c : Connection) :
    ∃ c', (setDefunct codec : ConnM α) c =
        .error (.raised (c.deactivateError (defunctError c.responses))) c' ∧
      c'.defunct = true ∧ c'.closed = true ∧ c'.responses = c.responses ∧ c'.pooled = c.pooled ∧
      c'.deactivateRaises = c.deactivateRaises := by
  cases hc : c.closed
  · exact ⟨_, setDefunct_apply codec hc, rfl, rfl, rfl, rfl, rfl⟩
  · exact ⟨_, setDefunct_of_closed codec hc, rfl, hc, rfl, rfl, rfl⟩

/-- `next(self.inbox)` either leaves the flags alone, or its read failed and it raised what
`_set_defunct` raises, leaving the connection defunct and closed. -/
theorem nextMessage_cases (c : Connection) :
    KeepsFlags c (nextMessage codec c).state ∨
      ∃ c', nextMessage codec c = .error (.raised (c.deactivateError (defunctError c.responses))) c' ∧
        c'.defunct = true ∧ c'.closed = true ∧ c'.responses = c.responses ∧
        c'.pooled = c.pooled ∧ c'.deactivateRaises = c.deactivateRaises := by
  unfold nextMessage
  simp only [EStateM.bind_apply, EStateM.get_apply]
  cases hf : c.inboxFinished
  · simp only [Bool.false_eq_true, if_false, EStateM.pure_apply]
    cases hr : c.wire.reads with
    | cons m rest =>
      cases m with
      | message size signature field =>
        left
        simp only [EStateM.set_apply]
        split
        · exact ⟨rfl, rfl⟩
        · split <;> exact ⟨rfl, rfl⟩
      | closedByPeer => exact .inr (setDefunct_raises codec _)
      | readError => exact .inr (setDefunct_raises codec _)
    | nil => exact .inr (setDefunct_raises codec _)
  · exact .inl ⟨rfl, rfl⟩

/-- The `except` clauses around `next(self.inbox)` tell the pool and re-raise the same exception,
or the `ValueError` of the pool's `deactivate`. -/
theorem onReadError_apply (α : Type) (e : Exc) (c : Connection) :
    ∃ l e', (onReadError e : ConnM α) c = .error e' { c with log := c.log ++ l } ∧
      (e' = e ∨ e' = .raised .valueError ∧ c.pooled = true ∧ ∃ n, c.deactivateRaises n = true) := by
  -- a clause that tells the pool re-raises, or raises the pool's `ValueError`
  have hpool (k : ErrorKind) :
      ∃ l e', (do deactivatePool; raise k : ConnM α) c = .error e' { c with log := c.log ++ l } ∧
        (e' = .raised k ∨ e' = .raised .valueError ∧ c.pooled = true ∧
          ∃ n, c.deactivateRaises n = true) := by
    refine ⟨_, _, deactivatePool_raise k, ?_⟩
    rcases deactivateError_cases c k with hk | ⟨hk, hp⟩ <;> rw [hk]
    exacts [.inl rfl, .inr ⟨rfl, hp⟩]
  unfold onReadError
  split
  -- `ConnectionExpired`, `ServiceUnavailable`, `DatabaseUnavailable` and `IOError`
  iterate 4 exact hpool _
  -- `NotALeader` and `ForbiddenOnReadOnlyDatabase`, which remove a pooled connection's writer
  iterate 2
    refine ⟨if c.pooled then [.removeWriter] else [], _, ?_, .inl rfl⟩
    cases hp : c.pooled <;> simp [logEvent, hp]
    -- an unpooled connection is left as it was
    rw [← hp]
  -- any other exception leaves as it came
  exact ⟨[], _, by simp, .inl rfl⟩

/-- The `except` clauses keep a `DefunctErrors` exception one. -/
theorem DefunctErrors.onReadError {c : Connection} {e : Exc} (h : DefunctErrors c e) (α : Type) :
    ∃ l e', (onReadError e : ConnM α) c = .error e' { c with log := c.log ++ l } ∧
      DefunctErrors { c with log := c.log ++ l } e' := by
  obtain ⟨l, e', hl, he⟩ := onReadError_apply α e c
  refine ⟨l, e', hl, ?_⟩
  rcases he with rfl | he
  exacts [h, .inr he]

theorem defunctRaises_nextMessage : DefunctRaises (nextMessage codec) := by
  intro c hc
  rcases nextMessage_cases codec c with h | ⟨c', h, -, hcl, hq, hp, hr⟩
  · exact .of_keepsDefunct hc h.2
  · rw [h]
    exact fun _ => ⟨defunctErrors_deactivateError hq hp hr, hcl⟩

/-- `next(self.inbox)` with the `except` clauses of `fetch_message`. -/
theorem defunctRaises_readMessage : DefunctRaises (tryCatch (nextMessage codec) onReadError) := by
  intro c hc
  have hx := defunctRaises_nextMessage codec c hc
  rcases h : nextMessage codec c with ⟨a, c1⟩ | ⟨e, c1⟩ <;> rw [h] at hx <;>
    simp only [EStateM.tryCatch_apply, h]
  · exact hx
  · by_cases hd : c1.defunct = true
    · obtain ⟨he, hcl⟩ := hx hd
      obtain ⟨l, e', hl, he'⟩ := he.onReadError (List Value × Option UInt8 × Option Metadata)
      rw [hl]
      exact fun _ => ⟨he', hcl⟩
    · obtain ⟨l, e', hl, -⟩ := onReadError_apply (List Value × Option UInt8 × Option Metadata)
        e c1
      rw [hl]
      exact fun hd' => absurd hd' hd

theorem defunctRaises_reset (hF : DefunctRaises F) : DefunctRaises (reset codec F) :=
  .bind (.of_keepsLink (confined_newResponse _ _)) fun _ =>
    .bind (.of_keepsLink (confined_append codec _ _ _)) fun _ =>
      .bind (.of_keepsFlags sendAll_keepsFlags) fun _ => .discard hF

theorem defunctRaises_onFailure (hF : DefunctRaises F) (r : Response) (metadata : Metadata) :
    DefunctRaises (onFailure codec F r metadata) := by
  unfold onFailure
  split
  · split
    · exact .ite (.raise _) (.raise _)
    · exact .raise _
  · exact .bind (defunctRaises_reset codec hF) fun _ =>
      .bind (.of_keepsLink (confined_invoke _ _ _)) fun _ =>
        .bind (.of_keepsLink (confined_invoke _ _ _)) fun _ => .raise _

theorem defunctRaises_fetchMessage (hF : DefunctRaises F) :
    DefunctRaises (fetchMessage codec F) := by
  unfold fetchMessage
  refine .bind (.of_keepsFlags Confined.get) fun c => ?_
  dsimp only
  refine .ite_bind (.raise _) (.pure _) fun _ => .ite_bind (.raise _) (.pure _) fun _ => ?_
  refine .ite (.pure _) (.bind (.pure _) fun _ => ?_)
  refine .bind (defunctRaises_readMessage codec) fun m =>
    .ite_bind (.of_keepsLink (confined_onRecords _)) (.pure _) fun _ => ?_
  split
  · exact .pure _
  · refine .bind (.of_keepsLink confined_popResponse) fun r => ?_
    exact .ite (.bind (.of_keepsLink (confined_onSuccess _ _)) fun _ => .pure _)
      (.ite (.bind (.of_keepsLink (confined_onIgnored _ _)) fun _ => .pure _)
        (.ite (.bind (defunctRaises_onFailure codec hF _ _) fun _ => .pure _)
          (.bind (.raise _) fun _ => .pure _)))

theorem defunctRaises_fetchAllLoop (fuel d s : Nat) :
    DefunctRaises (fetchAllLoop codec fuel d s) := by
  induction fuel generalizing d s with
  | zero => exact .of_keepsFlags (Confined.throw _)
  | succ n ih =>
    refine .bind (.of_keepsFlags Confined.get) fun c => ?_
    split
    · exact .pure _
    · exact .raise _
    · exact .bind (defunctRaises_fetchMessage codec (ih 0 0)) fun _ => ih _ _

/-- A call of one of the connection's public methods. `fetch_all`, and the `fetch_all` that a
`FAILURE`'s `RESET` runs, are given a number of passes of their loops. -/
inductive Op where
  | request (r : Request)
  | sendAll
  | fetchMessage (fuel : Nat)
  | fetchAll (fuel : Nat)
  | reset (fuel : Nat)
  | close

/-- The call, with what it returns dropped. -/
def Op.run : Op → ConnM Unit
  | .request r => r.exec b codec
  | .sendAll => Connection.sendAll
  | .fetchMessage fuel => discard (Connection.fetchMessage codec (Connection.fetchAll codec fuel))
  | .fetchAll fuel => discard (Connection.fetchAll codec fuel)
  | .reset fuel => resetWith codec fuel
  | .close => Connection.close codec

/-- The caller's calls in turn; the caller catches the exception of each and goes on. -/
def runOps : List Op → ConnM Unit
  | [] => pure ()
  | op :: ops => do
    tryCatch (op.run b codec) fun _ => pure ()
    runOps ops

theorem defunctRaises_run (op : Op) : DefunctRaises (op.run b codec) := by
  cases op with
  | request r => exact .of_keepsLink (confined_exec b codec r)
  | sendAll => exact .of_keepsFlags sendAll_keepsFlags
  | fetchMessage fuel =>
    exact .discard (defunctRaises_fetchMessage codec (defunctRaises_fetchAllLoop codec _ _ _))
  | fetchAll fuel => exact .discard (defunctRaises_fetchAllLoop codec _ _ _)
  | reset fuel => exact defunctRaises_reset codec (defunctRaises_fetchAllLoop codec _ _ _)
  | close => exact .of_keepsDefunct (close_keepsDefunct codec)

/-- Whatever public method the caller calls on a connection that is not defunct: if the call
leaves the connection defunct, which only `_set_defunct` does, on a failed socket read, then the
connection is closed, and the exception that reaches the caller is `IncompleteCommitError` when a
`CommitResponse` is left in the queue and `ServiceUnavailable` otherwise, unless the connection is
pooled and a call of its pool's `deactivate` raised `ValueError`, which reaches the caller
instead. -/
theorem run_defunct_raises (op : Op) {c c' : Connection} {e : Exc} (hc : c.defunct = false)
    (h : op.run b codec c = .error e c') (hd : c'.defunct = true) :
    (e = .raised (if commitQueued c'.responses then .incompleteCommit else .serviceUnavailable) ∨
      e = .raised .valueError ∧ c'.pooled = true ∧ ∃ n, c'.deactivateRaises n = true) ∧
      c'.closed = true := by
  have hout := defunctRaises_run b codec op c hc
  rw [h] at hout
  exact hout hd

theorem run_defunct_raises_commit :
    ∃ c', (Op.fetchAll 2).run Builtins.sample Codec.sample
        (Connection.sample false [] [some ⟨0, .commit, returningHandlers⟩]) =
        .error (.raised .incompleteCommit) c' ∧ c'.defunct = true ∧
      (.raised .incompleteCommit = Exc.raised
        (if commitQueued c'.responses then .incompleteCommit else .serviceUnavailable) ∨
        Exc.raised .incompleteCommit = .raised .valueError ∧ c'.pooled = true ∧
          ∃ n, c'.deactivateRaises n = true) ∧
      c'.closed = true :=
  ⟨_, rfl, rfl, run_defunct_raises Builtins.sample Codec.sample (.fetchAll 2)
    (c := Connection.sample false [] [some ⟨0, .commit, returningHandlers⟩]) rfl rfl rfl⟩

/-- A failed socket read in `fetch_message`: `_set_defunct` and then the `except` clause run, and
the exception `_set_defunct` chose for the queue leaves, or the pool's `ValueError`. Nothing is
handed to the socket. -/
theorem fetchMessage_of_readFails {c : Connection} (h : c.Live) (hq : c.responses ≠ [])
    (hr : ReadFails c.wire.reads) :
    ∃ e c', fetchMessage codec F c = .error e c' ∧
      (c.pooled = false → e = .raised (defunctError c.responses)) ∧
      c'.defunct = true ∧ c'.closed = true ∧ c'.responses = c.responses ∧
      c'.wire.sent = c.wire.sent := by
  obtain ⟨c1, hm, hd, hc, hq1, hs, hp⟩ : ∃ c1, nextMessage codec c =
      .error (.raised (c.deactivateError (defunctError c.responses))) c1 ∧ c1.defunct = true ∧
      c1.closed = true ∧ c1.responses = c.responses ∧ c1.wire.sent = c.wire.sent ∧
      c1.pooled = c.pooled :=
    ⟨_, nextMessage_of_readFails codec h.inbox h.closed hr, rfl, rfl, rfl, rfl, rfl⟩
  obtain ⟨l, e', hl, he'⟩ := onReadError_apply (List Value × Option UInt8 × Option Metadata)
    (.raised (c.deactivateError (defunctError c.responses))) c1
  refine ⟨e', { c1 with log := c1.log ++ l }, ?_, fun hnp => ?_, hd, hc, hq1, hs⟩
  · simp only [fetchMessage, EStateM.bind_apply, EStateM.get_apply, h.closed, h.defunct,
      Bool.false_eq_true, if_false, EStateM.pure_apply, List.isEmpty_eq_false.mpr hq,
      EStateM.tryCatch_apply, hm, hl]
  · -- no pool: nothing stands in for the exception `_set_defunct` chose
    have h1 : c.deactivateError (defunctError c.responses) = defunctError c.responses := by
      simp [deactivateError, hnp]
    rcases he' with he' | ⟨-, hp', -⟩
    · rw [he', h1]
    · rw [hp, hnp] at hp'
      cases hp'

/-- `commit()` on a fresh connection with the socket `w`: the `COMMIT` is framed in the `Outbox`,
which it leaves non-empty, and its `CommitResponse` joins the queue. -/
theorem exec_commit_sample (w : Wire) :
    ∃ o : Outbox, o.view ≠ [] ∧ (Request.commit returningHandlers).exec Builtins.sample Codec.sample
        { Connection.sample false [] [] with wire := w } = .ok ()
      { Connection.sample false [] [] with
        wire := w, nextId := 1, outbox := o, responses := [some ⟨0, .commit, returningHandlers⟩] } := by
  obtain ⟨o, cs, hw, -, hlay, -, -⟩ := (Outbox.layout_init (by decide) (by decide) :
    (Connection.sample false [] []).outbox.Layout [] []).writeMessage (by decide)
    (show [[(0xB0 : UInt8)], [0x12]].flatten ≠ [] by decide)
  refine ⟨o.chunk.chunk, by simp [hlay.view_of_nil, encodeChunk_nil], ?_⟩
  rw [Request.exec_eq, show (Request.commit returningHandlers).plan Builtins.sample
    (Connection.sample false [] []).protocolVersion = .ok [(0x12, [], .commit)] from rfl]
  simp only [ofExcept_ok, EStateM.bind_apply, appendPlan, newResponse_apply, appendPlan_nil]
  rw [append_of_ok Codec.sample (c := { Connection.sample false [] [] with
    wire := w, nextId := (Connection.sample false [] []).nextId + 1 })
    (show Codec.sample.packStruct 0x12 [] = ([[0xB0], [0x12]], none) from rfl) hw]
  rfl

/-- Whether a `COMMIT` has reached `sendall` does not decide the exception of a wire failure. A
`commit()` on a fresh connection whose socket then reports end-of-stream makes `fetch_all` raise
`IncompleteCommitError`, with nothing handed to `sendall`. The same `commit()` on a socket whose
`sendall` fails makes `send_all` hand the `COMMIT` to `sendall` and raise `OSError`, with its
`CommitResponse` queued and the connection not defunct. And on a pooled connection with a
`CommitResponse` queued, end-of-stream makes `fetch_all` raise the `ValueError` of the pool's
`deactivate`. -/
theorem commit_failure_exceptions :
    (∃ c1 c2, (Request.commit returningHandlers).exec Builtins.sample Codec.sample
        (Connection.sample false [] []) = .ok () c1 ∧
      fetchAll Codec.sample 2 c1 = .error (.raised .incompleteCommit) c2 ∧ c2.wire.sent = []) ∧
    (∃ c1 c2, (Request.commit returningHandlers).exec Builtins.sample Codec.sample
        { Connection.sample false [] [] with wire := ⟨[], fun _ => true, [], false⟩ } = .ok () c1 ∧
      sendAll c1 = .error (.raised .ioError) c2 ∧ c2.wire.sent = [c1.outbox.view] ∧
      commitQueued c2.responses = true ∧ c2.defunct = false) ∧
    ∃ c', fetchAll Codec.sample 2 { Connection.sample true [] [some ⟨0, .commit, returningHandlers⟩]
        with deactivateRaises := fun _ => true } = .error (.raised .valueError) c' ∧
      c'.defunct = true := by
  refine ⟨?_, ?_, ⟨_, rfl, rfl⟩⟩
  · -- end-of-stream with the `COMMIT` still in the `Outbox`
    obtain ⟨o, -, hx⟩ := exec_commit_sample (Connection.sample false [] []).wire
    obtain ⟨e, c2, hf, he, -, -, -, hs⟩ := fetchMessage_of_readFails Codec.sample
      (F := fetchAllLoop Codec.sample 1 0 0) (c := { Connection.sample false [] [] with
        nextId := 1, outbox := o, responses := [some ⟨0, .commit, returningHandlers⟩] })
      ⟨rfl, rfl, rfl⟩ (by simp) (.inl rfl)
    exact ⟨_, c2, hx, fetchAllLoop_of_error Codec.sample rfl (he rfl ▸ hf), hs⟩
  · -- a failing `sendall` of the `COMMIT`
    obtain ⟨o, hv, hx⟩ := exec_commit_sample ⟨[], fun _ => true, [], false⟩
    exact ⟨_, _, hx, sendAll_of_fails hv rfl rfl rfl, rfl, rfl, rfl⟩

/-! ## After a failed read -/

/-- The caller's calls return, whatever each call does. -/
theorem runOps_ok (ops : List Op) (c : Connection) : ∃ c', runOps b codec ops c = .ok () c' := by
  induction ops generalizing c with
  | nil => exact ⟨c, rfl⟩
  | cons op ops ih =>
    simp only [runOps, EStateM.bind_apply, EStateM.tryCatch_apply]
    rcases op.run b codec c with ⟨_, c1⟩ | ⟨_, c1⟩
    exacts [ih c1, ih c1]

theorem run_whenShut (op : Op) : Confined WhenShut (op.run b codec) := by
  cases op with
  | request r => exact (confined_exec b codec r).mono fun _ _ h => h.whenShut
  | sendAll => exact sendAll_whenShut
  | fetchMessage fuel => exact Confined.discard (fetchMessage_whenShut codec)
  | fetchAll fuel => exact Confined.discard (fetchAllLoop_whenShut codec _ _ _)
  | reset fuel => exact reset_whenShut codec (fetchAllLoop_whenShut codec _ _ _)
  | close => exact close_whenShut codec

theorem runOps_whenShut (ops : List Op) : Confined WhenShut (runOps b codec ops) := by
  induction ops with
  | nil => exact Confined.pure _
  | cons op ops ih =>
    exact Confined.bind (Confined.tryCatch (run_whenShut b codec op) fun _ => Confined.pure _)
      fun _ => ih

/-- A failed socket read in `fetch_message` leaves the connection defunct and closed. Whatever
the caller calls from then on, catching each exception, leaves the socket as it was: nothing is
handed to it and nothing is read from it. Then `fetch_message` raises `ServiceUnavailable`, and so
does `send_all` unless the `Outbox` is empty, in which case it returns. -/
theorem readFailure_shuts {c : Connection} (h : c.Live) (hq : c.responses ≠ [])
    (hr : ReadFails c.wire.reads) :
    ∃ e c', fetchMessage codec F c = .error e c' ∧ c'.defunct = true ∧ c'.closed = true ∧
      ∀ ops : List Op, ∃ c'', runOps b codec ops c' = .ok () c'' ∧
        c''.wire = c'.wire ∧ c''.defunct = true ∧ c''.closed = true ∧
        (∀ G, fetchMessage codec G c'' = .error (.raised .serviceUnavailable) c'') ∧
        sendAll c'' = if c''.outbox.view = [] then .ok () c''
          else .error (.raised .serviceUnavailable) c'' := by
  obtain ⟨e, c', hf, -, hd, hcl, -, -⟩ := fetchMessage_of_readFails codec h hq hr
  refine ⟨e, c', hf, hd, hcl, fun ops => ?_⟩
  obtain ⟨c'', hrun⟩ := runOps_ok b codec ops c'
  have hk : KeepsLink c' c'' := by
    simpa [hrun] using runOps_whenShut b codec ops c' hcl
  have hcl'' : c''.closed = true := hk.1.1.trans hcl
  refine ⟨c'', hrun, hk.2, hk.1.2.trans hd, hcl'', fun _ => fetchMessage_of_closed codec hcl'', ?_⟩
  split
  exacts [sendAll_of_nil ‹_›, sendAll_of_closed ‹_› hcl'']

theorem readFailure_shuts_endOfStream :
    (Connection.sample false [] [some ⟨0, .plain, returningHandlers⟩]).Live ∧
    (Connection.sample false [] [some ⟨0, .plain, returningHandlers⟩]).responses ≠ [] ∧
    ReadFails (Connection.sample false [] [some ⟨0, .plain, returningHandlers⟩]).wire.reads ∧
    ∃ e c', fetchMessage Codec.sample (fetchAll Codec.sample 1)
        (Connection.sample false [] [some ⟨0, .plain, returningHandlers⟩]) = .error e c' ∧
      c'.defunct = true ∧ c'.closed = true ∧
      ∀ ops : List Op, ∃ c'', runOps Builtins.sample Codec.sample ops c' = .ok () c'' ∧
        c''.wire = c'.wire ∧ c''.defunct = true ∧ c''.closed = true ∧
        (∀ G, fetchMessage Codec.sample G c'' = .error (.raised .serviceUnavailable) c'') ∧
        sendAll c'' = if c''.outbox.view = [] then .ok () c''
          else .error (.raised .serviceUnavailable) c'' :=
  ⟨⟨rfl, rfl, rfl⟩, by simp [Connection.sample], .inl rfl,
    readFailure_shuts Builtins.sample Codec.sample ⟨rfl, rfl, rfl⟩ (by simp [Connection.sample])
      (.inl rfl)⟩

/-- A `send_all` whose `sendall` fails leaves the connection live and the `Outbox` as it was, so
the next `send_all`, whose `sendall` goes through, hands the socket the same bytes again. -/
theorem sendAll_resends {c : Connection} (h : c.outbox.view ≠ []) (hc : c.closed = false)
    (hd : c.defunct = false) (hw : c.wire.writeFails c.wire.sent.length = true)
    (hw' : c.wire.writeFails (c.wire.sent.length + 1) = false) :
    ∃ e c1 c2, sendAll c = .error e c1 ∧ c1.closed = false ∧ c1.defunct = false ∧
      sendAll c1 = .ok () c2 ∧ c2.wire.sent = c.wire.sent ++ [c.outbox.view, c.outbox.view] := by
  refine ⟨_, _, _, sendAll_of_fails h hc hd hw, hc, hd,
    sendAll_of_ok (c := { c with
      wire := { c.wire with sent := c.wire.sent ++ [c.outbox.view] }
      log := c.log ++ if c.pooled then [.deactivate] else [] }) h hc hd (by simpa using hw'), ?_⟩
  simp

/-- Wire failures that are not a failed read leave the connection live, and a failed read does
not always make `send_all` raise. After end-of-stream, `send_all` with nothing in the `Outbox`
returns. After a `sendall` that fails on the `COMMIT` of `commit()`, the connection is neither
defunct nor closed, and the next `send_all` hands the socket the same bytes again. A structure of
two fields raises `ProtocolError` without calling `on_error`, after which `fetch_message` raises
`StopIteration`; a summary of an unknown signature raises `TypeError`; both leave the connection
neither defunct nor closed. -/
theorem wire_failure_outcomes :
    (∃ c', fetchMessage Codec.sample (fetchAll Codec.sample 1)
        (Connection.sample false [] [some ⟨0, .plain, returningHandlers⟩]) =
        .error (.raised .serviceUnavailable) c' ∧ c'.defunct = true ∧ c'.closed = true ∧
      sendAll c' = .ok () c') ∧
    (∃ c e c1 c2, (Request.commit returningHandlers).exec Builtins.sample Codec.sample
        { Connection.sample false [] [] with wire := ⟨[], fun n => n == 0, [], false⟩ } = .ok () c ∧
      sendAll c = .error e c1 ∧ c1.closed = false ∧ c1.defunct = false ∧ sendAll c1 = .ok () c2 ∧
      c2.wire.sent = [c.outbox.view, c.outbox.view]) ∧
    (∃ c1 c2, fetchMessage Codec.sample (fetchAll Codec.sample 1)
        (Connection.sample false [.message 2 0x70 (.map [])] [some ⟨0, .plain, returningHandlers⟩]) =
        .error (.raised .protocolError) c1 ∧ c1.defunct = false ∧ c1.closed = false ∧
      fetchMessage Codec.sample (fetchAll Codec.sample 1) c1 = .error (.raised .stopIteration) c2) ∧
    ∃ c1, fetchMessage Codec.sample (fetchAll Codec.sample 1)
        (Connection.sample false [.message 1 0x10 (.map [])] [some ⟨0, .plain, returningHandlers⟩]) =
        .error (.raised .typeError) c1 ∧ c1.defunct = false ∧ c1.closed = false := by
  refine ⟨⟨_, rfl, rfl, rfl, rfl⟩, ?_, ⟨_, _, rfl, rfl, rfl, rfl⟩, ⟨_, rfl, rfl, rfl⟩⟩
  obtain ⟨o, hv, hx⟩ := exec_commit_sample ⟨[], fun n => n == 0, [], false⟩
  obtain ⟨e, c1, c2, h1, hc1, hd1, h2, hs⟩ := sendAll_resends (c := { Connection.sample false [] []
    with wire := ⟨[], fun n => n == 0, [], false⟩, nextId := 1, outbox := o
         responses := [some ⟨0, .commit, returningHandlers⟩] }) hv rfl rfl rfl rfl
  exact ⟨_, e, c1, c2, hx, h1, hc1, hd1, h2, hs⟩

/-! ## A `FAILURE` that hydrates to a pool error -/

/-- The stub test's script on a pooled connection: `RUN` and `PULL_ALL` queued, a `FAILURE` with
the code `Neo.TransientError.General.DatabaseUnavailable`, the `IGNORED` of `PULL_ALL` and the
`SUCCESS` of the `RESET`. `fetch_all` raises `DatabaseUnavailableError` with no call of
`deactivate`. -/
theorem fetchAll_databaseUnavailable :
    ∃ c', fetchAll Codec.sample 4 (Connection.sample true
        [.message 1 0x7F (.map [("code", .str "Neo.TransientError.General.DatabaseUnavailable")]),
          .message 1 0x7E (.map []), .message 1 0x70 (.map [])]
        [some ⟨0, .plain, returningHandlers⟩, some ⟨1, .plain, returningHandlers⟩]) =
      .error (.raised .databaseUnavailable) c' ∧ Event.deactivate ∉ c'.log := by
  have hret : ∀ r : Response, r.handlers = returningHandlers → ReturnsOnReply r := by
    intro r hr name _ cb hcb
    simp [hr, returningHandlers] at hcb
    exact hcb.symm
  have hpk : (⟨[], 1, 0x7F, .map [("code", .str "Neo.TransientError.General.DatabaseUnavailable")]⟩ :
      Reply).size ≤ 1 := le_rfl
  have hig : (⟨[], 1, 0x7E, .map []⟩ : Reply).Completes := ⟨le_rfl, .inr rfl⟩
  have hpr : (⟨[], 1, 0x70, .map []⟩ : Reply).Completes := ⟨le_rfl, .inl rfl⟩
  obtain ⟨c', hc', -, -, -, -, -, hlog⟩ := fetchAll_of_failure Codec.sample
    (c := Connection.sample true
        [.message 1 0x7F (.map [("code", .str "Neo.TransientError.General.DatabaseUnavailable")]),
          .message 1 0x7E (.map []), .message 1 0x70 (.map [])]
        [some ⟨0, .plain, returningHandlers⟩, some ⟨1, .plain, returningHandlers⟩])
    (List.Forall₂.nil : List.Forall₂ _ ([] : List Response) ([] : List Reply))
    (show (⟨0, .plain, returningHandlers⟩ : Response).kind ≠ .init by decide)
    (fun _ _ hcb => by simp [returningHandlers] at hcb; exact hcb.symm) hpk rfl
    (.cons ⟨hret _ rfl, hig⟩ .nil) hpr ⟨rfl, rfl, rfl⟩ rfl
    (show _ = _ ++ [] from rfl) (Outbox.layout_init (by decide) (by decide)) (by decide) rfl
    (show _ < 4 by decide)
  refine ⟨c', hc', ?_⟩
  rw [hlog]
  simp [replyEvents, Reply.summaryEvents, Reply.recordEvents, Response.call, returningHandlers,
    Connection.sample]


/-! ## A failing `GOODBYE` -/

section Goodbye

variable {closed : List (List UInt8)} {c : Connection}

/-- On a connection at a message boundary, `_append(b"\x02", ())` writes the `GOODBYE`, closes it
off, and queues `None`. -/
theorem append_goodbye (hbox : c.outbox.Layout closed []) (hm : c.outbox.maxChunkSize < 65536) :
    ∃ o : Outbox, o.view ≠ [] ∧
      append codec 0x02 [] none c =
        .ok () { c with outbox := o, responses := c.responses ++ [none] } := by
  obtain ⟨o, cs, hwo, -, hlay, -, -⟩ := hbox.writeMessage hm
    (codec.packStruct_writes 0x02 [] (codec.packStruct_nil 0x02))
  exact ⟨o.chunk.chunk, by simp [hlay.view_of_nil, encodeChunk_nil],
    append_of_ok codec (Prod.ext rfl (codec.packStruct_nil 0x02)) hwo⟩

/-- A live connection of Bolt v3 or later whose `GOODBYE` `sendall` fails: `close()` raises the
`OSError` that `send_all` re-raises after telling the pool, or the pool's `ValueError`, with
`None` queued, and neither closes the socket nor sets `_closed`. -/
theorem close_of_goodbyeFails (hbox : c.outbox.Layout closed [])
    (hm : c.outbox.maxChunkSize < 65536) (h : c.Live) (hv : 3 ≤ c.protocolVersion)
    (hw : c.wire.writeFails c.wire.sent.length = true) :
    ∃ o : Outbox, close codec c = .error (.raised (c.deactivateError .ioError))
      { c with
        outbox := o, responses := c.responses ++ [none]
        wire := { c.wire with sent := c.wire.sent ++ [o.view] }
        log := c.log ++ if c.pooled then [.deactivate] else [] } := by
  obtain ⟨o, hview, happ⟩ := append_goodbye codec hbox hm
  refine ⟨o, ?_⟩
  simp [close, h.closed, h.defunct, hv, happ, sendAll_of_fails (c := { c with
    outbox := o, responses := c.responses ++ [none], closed := false, defunct := false })
      hview rfl rfl hw]
  -- neither exception is the `ServiceUnavailable` that `close()` catches
  simp only [deactivateError]
  split_ifs <;> rfl

/-- A live connection of Bolt v3 or later whose `GOODBYE` is sent: `close()` returns with the
socket closed, `_closed` set, and `None` queued. -/
theorem close_of_goodbyeSent (hbox : c.outbox.Layout closed [])
    (hm : c.outbox.maxChunkSize < 65536) (h : c.Live) (hv : 3 ≤ c.protocolVersion)
    (hw : c.wire.writeFails c.wire.sent.length = false) :
    ∃ o : Outbox, close codec c = .ok ()
      { c with
        outbox := o.clear, responses := c.responses ++ [none], closed := true
        wire := { c.wire with sent := c.wire.sent ++ [o.view], socketClosed := true } } := by
  obtain ⟨o, hview, happ⟩ := append_goodbye codec hbox hm
  refine ⟨o, ?_⟩
  simp [close, h.closed, h.defunct, hv, happ, sendAll_of_ok (c := { c with
    outbox := o, responses := c.responses ++ [none], closed := false, defunct := false })
      hview rfl rfl hw]

/-- A `close()` that returns leaves `_closed` set, whatever it met on the way. -/
theorem closed_of_close {c' : Connection} (h : close codec c = .ok () c') : c'.closed = true := by
  simp only [close, EStateM.bind_apply, EStateM.get_apply] at h
  split at h
  · -- every path that returns ends in the final assignment to `_closed`
    split at h
    · simp only [EStateM.bind_apply] at h
      split at h
      · split at h
        · cases h; rfl
        · cases h
      · cases h
    · cases h; rfl
  · rename_i hc
    cases h
    simpa using hc

/-- `close()` on a live connection of Bolt v3 or later whose `Outbox` is at a message boundary
queues `GOODBYE` with `None` as its response. If its `sendall` fails, the `OSError` that
`send_all` re-raises (or, from a pooled connection, the `ValueError` of the pool's `deactivate`)
is not the `ServiceUnavailable` that `close()` catches: it leaves `close()` before
`socket.close()` and `_closed = True`. If the send succeeds on an idle connection, the `None` is
the whole queue, and `fetch_all` raises `AttributeError` on it. -/
theorem close_goodbye (hbox : c.outbox.Layout closed []) (hm : c.outbox.maxChunkSize < 65536)
    (h : c.Live) (hv : 3 ≤ c.protocolVersion) :
    (c.wire.writeFails c.wire.sent.length = true →
      ∃ c', close codec c = .error (.raised (c.deactivateError .ioError)) c' ∧ c'.closed = false ∧
        c'.wire.socketClosed = c.wire.socketClosed) ∧
    (c.wire.writeFails c.wire.sent.length = false → c.responses = [] →
      ∃ c', close codec c = .ok () c' ∧ c'.closed = true ∧ c'.responses = [none] ∧
        ∀ fuel, fetchAll codec (fuel + 1) c' = .error (.raised .attributeError) c') := by
  refine ⟨fun hw => ?_, fun hw hq => ?_⟩
  · obtain ⟨o, ho⟩ := close_of_goodbyeFails codec hbox hm h hv hw
    exact ⟨_, ho, h.closed, rfl⟩
  · obtain ⟨o, ho⟩ := close_of_goodbyeSent codec hbox hm h hv hw
    exact ⟨_, ho, rfl, by simp [hq], fun fuel => by simp [fetchAll, fetchAllLoop, hq, raise]⟩

end Goodbye

/-- The sample pooled connection, idle: a `GOODBYE` whose `sendall` fails makes `close()` raise
`OSError` with the connection still open, and a delivered one leaves `None` queued, on which
`fetch_all` raises `AttributeError`. -/
theorem close_goodbye_sample :
    (∃ c', close Codec.sample { Connection.sample true [] [] with
        wire := { reads := [], writeFails := fun _ => true, sent := [], socketClosed := false } } =
      .error (.raised .ioError) c' ∧ c'.closed = false ∧ c'.wire.socketClosed = false) ∧
    ∃ c', close Codec.sample (Connection.sample true [] []) = .ok () c' ∧ c'.closed = true ∧
      c'.responses = [none] ∧
      ∀ fuel, fetchAll Codec.sample (fuel + 1) c' = .error (.raised .attributeError) c' :=
  ⟨(close_goodbye Codec.sample (c := { Connection.sample true [] [] with
        wire := { reads := [], writeFails := fun _ => true, sent := [], socketClosed := false } })
      (Outbox.layout_init (by decide) (by decide)) (by decide) ⟨rfl, rfl, rfl⟩ (by decide)).1 rfl,
    (close_goodbye Codec.sample (c := Connection.sample true [] [])
      (Outbox.layout_init (by decide) (by decide)) (by decide) ⟨rfl, rfl, rfl⟩ (by decide)).2 rfl
      rfl⟩

end Connection

end Neobolt
