import Neobolt.Connection.Failures
import Neobolt.Pool.Safety

/-!
# Closing connections from inside the pool

`deactivate(address)` and `remove(address)` close connections while they hold the pool's
re-entrant lock. `Connection.close` sends `GOODBYE`, and when that `sendall` fails, `send_all`
calls `self.pool.deactivate(self.unresolved_address)` before it re-raises the `OSError`, so that
a pool method runs again inside itself. Here the pool methods run on the connections' own states,
through `Connection.close`, and the nested call is part of the run: it gets the remaining fuel, as
the nested `fetch_all` of `reset()` does. The connection's own model of that call
(`Connection.deactivateRaises`) stands in for the pool it does not see; the results below take
connections whose `close()` returns or raises `OSError`, for which that model answered that the
call returns and the pool's own `deactivate` is run here.

`deactivate` iterates over `list(connections)`, a copy taken before the loop, and removes each
idle connection from the deque before it closes it; `deque.remove` raises `ValueError` for a
connection that is no longer there. `remove` iterates over the deque it pops, whose connections
all have the popped address, so a nested `deactivate` from there finds the address gone and
returns.

## Main definitions

* `PoolState`: the pool's dictionary and deques, and each connection's state and `in_use`.
* `PoolState.Refines`: the pool of `Pool.Model` that a `PoolState` stands for.
* `PoolState.closeConnection`: `connection.close()` on a pooled connection, with the nested
  `deactivate` that its failing `send_all` makes.
* `PoolState.deactivate`, `PoolState.remove`.

## Main results

* `PoolState.closeConnection_of_close`: a `close()` that raises calls the pool back exactly when
  the connection's own model logs the call.
* `PoolState.remove_spec`: what `remove` does when each `close()` returns or raises `OSError`.
* `PoolState.deactivate_refines`, `PoolState.remove_refines`: when no `close()` raises,
  `deactivate` and `remove` do what the atomic steps of `Pool.Model` do, from any reachable pool.
* `PoolState.remove_returns`: the nested `deactivate` that a failing `GOODBYE` makes inside
  `remove` finds the address gone, and `remove` returns.
* `PoolState.deactivate_reentrant`: a failing `GOODBYE` on the first of two idle connections makes
  `deactivate` raise `ValueError`.
* `PoolState.deactivate_spares_inUse`: whatever each `close()` does, `deactivate` and every call
  nested in it leave the connections in use as they were.
-/

namespace Neobolt

/-- The pool as `deactivate` and `remove` use it: `self.connections` from an address to its deque,
the deques as objects, and for each connection its state, `in_use` and `unresolved_address`. -/
structure PoolState where
  /-- `self.connections`, in insertion order: each address with the index of its deque. -/
  connections : List (Nat × Nat)
  /-- The deque objects by index, each the ids of its connections from left to right. -/
  deques : Nat → List Nat
  /-- Each connection's own state, as `Connection.close` reads and changes it. -/
  conns : Nat → Connection
  /-- Each connection's `in_use`. -/
  inUse : Nat → Bool
  /-- Each connection's `unresolved_address`, the address `deactivate` calls back with. -/
  addressOf : Nat → Nat

/-- A method of the pool. -/
abbrev PoolM := EStateM Exc PoolState

namespace PoolState

variable (codec : Codec)

/-- `self.connections[address]`, if present. -/
def lookup (s : PoolState) (address : Nat) : Option Nat :=
  s.connections.lookup address

/-- Set the state of connection `id`. -/
def setConn (s : PoolState) (id : Nat) (c : Connection) : PoolState :=
  { s with conns := Function.update s.conns id c }

/-- `connections.remove(conn)` on the deque `d`: `ValueError` when `conn` is not in it. -/
def dequeRemove (d id : Nat) : PoolM Unit := fun s =>
  if id ∈ s.deques d then
    .ok () { s with deques := Function.update s.deques d ((s.deques d).erase id) }
  else .error (.raised .valueError) s

/-- `try: connection.close() except IOError: pass`. -/
def closeQuietly (close : Nat → PoolM Unit) (id : Nat) : PoolM Unit :=
  tryCatch (close id) fun
    | .raised .ioError => pure ()
    | e => throw e

/-- `connection.close()` on connection `id`, where `deactivate` is the pool's: when the `sendall`
of a pooled connection fails, `send_all` calls `deactivate(self.unresolved_address)` and then
re-raises. -/
def closeConnection (deactivate : Nat → PoolM Unit) (id : Nat) : PoolM Unit := fun s =>
  match Connection.close codec (s.conns id) with
  | .ok _ c' => .ok () (s.setConn id c')
  | .error e c' =>
    if (s.conns id).pooled = true ∧ e = .raised .ioError then
      (do deactivate (s.addressOf id); throw e) (s.setConn id c')
    else .error e (s.setConn id c')

/-- `remove(address)`: pop the address's deque and close each of its connections, passing over an
`IOError`. -/
def removeWith (deactivate : Nat → PoolM Unit) (address : Nat) : PoolM Unit := fun s =>
  match s.lookup address with
  | none => .ok () s
  | some d =>
    ((s.deques d).forM (closeQuietly (closeConnection codec deactivate)))
      { s with connections := s.connections.filter (·.1 != address) }

/-- One pass of the loop of `deactivate` over its copy of the deque `d`: an idle connection leaves
the deque and is closed. -/
def deactivateStep (deactivate : Nat → PoolM Unit) (d id : Nat) : PoolM Unit := do
  let t : PoolState ← get
  if !t.inUse id then
    dequeRemove d id
    closeQuietly (closeConnection codec deactivate) id

/-- `deactivate(address)`, with `fuel` levels of nesting: run the loop over a copy of the deque,
then remove the address if its deque is empty. -/
def deactivate : Nat → Nat → PoolM Unit
  | 0, _ => throw .outOfFuel
  | fuel + 1, address => fun s =>
    match s.lookup address with
    | none => .ok () s
    | some d =>
      (do
        (s.deques d).forM (deactivateStep codec (deactivate fuel) d)
        let t : PoolState ← get
        if (t.deques d).isEmpty then removeWith codec (deactivate fuel) address) s

/-- `remove(address)`, whose closes may call `deactivate` with `fuel` levels of nesting. -/
def remove (fuel address : Nat) : PoolM Unit :=
  removeWith codec (deactivate codec fuel) address

/-! ## One lemma per method -/

variable {codec} {s t : PoolState} {d id : Nat} {D : Nat → PoolM Unit} {c' : Connection}

@[simp]
theorem setConn_connections (s : PoolState) (id : Nat) (c : Connection) :
    (s.setConn id c).connections = s.connections := rfl

@[simp]
theorem setConn_deques (s : PoolState) (id : Nat) (c : Connection) :
    (s.setConn id c).deques = s.deques := rfl

@[simp]
theorem setConn_conns (s : PoolState) (id : Nat) (c : Connection) :
    (s.setConn id c).conns = Function.update s.conns id c := rfl

@[simp]
theorem setConn_inUse (s : PoolState) (id : Nat) (c : Connection) :
    (s.setConn id c).inUse = s.inUse := rfl

@[simp]
theorem lookup_setConn (s : PoolState) (id : Nat) (c : Connection) (a : Nat) :
    (s.setConn id c).lookup a = s.lookup a := rfl

theorem dequeRemove_of_mem (h : id ∈ s.deques d) :
    dequeRemove d id s =
      .ok () { s with deques := Function.update s.deques d ((s.deques d).erase id) } := by
  simp [dequeRemove, h]

theorem dequeRemove_of_not_mem (h : id ∉ s.deques d) :
    dequeRemove d id s = .error (.raised .valueError) s := by
  simp [dequeRemove, h]

theorem closeConnection_of_ok (h : Connection.close codec (s.conns id) = .ok () c') :
    closeConnection codec D id s = .ok () (s.setConn id c') := by
  simp [closeConnection, h]

/-- A `close()` that raises `OSError` on a pooled connection calls the pool's `deactivate` with the
connection's address, and then the `OSError` goes on. -/
theorem closeConnection_of_reenter
    (h : Connection.close codec (s.conns id) = .error (.raised .ioError) c')
    (hp : (s.conns id).pooled = true) :
    closeConnection codec D id s =
      (do D (s.addressOf id); throw (Exc.raised .ioError)) (s.setConn id c') := by
  simp [closeConnection, h, hp]

variable (codec) in
/-- On a live connection of Bolt v3 or later whose `GOODBYE` cannot be sent, and whose model
answers that the pool's `deactivate` returns, `close()` raises `OSError` with the connection still
open, and the connection model logs the pool's `deactivate` exactly when the connection is pooled:
the case in which `closeConnection` runs the nested `deactivate`. -/
theorem closeConnection_of_close {c : Connection} {closed : List (List UInt8)}
    (hbox : c.outbox.Layout closed []) (hm : c.outbox.maxChunkSize < 65536) (h : c.Live)
    (hv : 3 ≤ c.protocolVersion) (hw : c.wire.writeFails c.wire.sent.length = true)
    (hr : c.deactivateRaises c.log.length = false) :
    ∃ c', Connection.close codec c = .error (.raised .ioError) c' ∧ c'.closed = false ∧
      c'.log = c.log ++ if c.pooled then [.deactivate] else [] := by
  obtain ⟨o, ho⟩ := Connection.close_of_goodbyeFails codec hbox hm h hv hw
  rw [show c.deactivateError .ioError = .ioError by simp [Connection.deactivateError, hr]] at ho
  exact ⟨_, ho, h.closed, rfl⟩

theorem deactivateStep_of_inUse (h : t.inUse id = true) :
    deactivateStep codec D d id t = .ok () t := by
  simp [deactivateStep, h]

theorem deactivateStep_of_close (h : t.inUse id = false) (hm : id ∈ t.deques d)
    (hc : Connection.close codec (t.conns id) = .ok () c') :
    deactivateStep codec D d id t = .ok ()
      ({ t with deques := Function.update t.deques d ((t.deques d).erase id) }.setConn id c') := by
  have hc' := closeConnection_of_ok (D := D)
    (s := { t with deques := Function.update t.deques d ((t.deques d).erase id) }) hc
  simp [deactivateStep, h, dequeRemove_of_mem hm, closeQuietly, hc']

/-- A `close()` inside `remove` that returns, or raises `OSError` once the address is gone: the
nested `deactivate` finds nothing to do, and the `OSError` is passed over. -/
theorem closeQuietly_of_close {fuel : Nat}
    (hc : Connection.close codec (t.conns id) = .ok () c' ∨
      Connection.close codec (t.conns id) = .error (.raised .ioError) c' ∧
        t.lookup (t.addressOf id) = none) :
    closeQuietly (closeConnection codec (deactivate codec (fuel + 1))) id t =
      .ok () (t.setConn id c') := by
  rcases hc with hc | ⟨hc, hl⟩
  · simp [closeQuietly, closeConnection_of_ok hc]
  · cases hp : (t.conns id).pooled
    · simp [closeQuietly, closeConnection, hc, hp]
    · simp [closeQuietly, closeConnection_of_reenter hc hp, deactivate, hl]

/-! ## When no `close()` raises -/

/-- The loop of `deactivate` over its copy `l` of the deque, when no `close()` raises: the deque
loses the idle connections of `l`, which are closed, and nothing else changes. `k` is what the
passes before have left at the front of the deque. -/
theorem forM_deactivateStep {l k : List Nat} (hq : t.deques d = k ++ l)
    (hnd : (k ++ l).Nodup)
    (hc : ∀ id ∈ l, t.inUse id = false → ∃ c', Connection.close codec (t.conns id) = .ok () c') :
    ∃ t', l.forM (deactivateStep codec D d) t = .ok () t' ∧ t'.connections = t.connections ∧
      t'.inUse = t.inUse ∧
      t'.deques = Function.update t.deques d (k ++ l.filter fun id => t.inUse id) ∧
      ∀ id, if id ∈ l.filter (fun id => !t.inUse id) then (t'.conns id).closed = true
        else t'.conns id = t.conns id := by
  induction l generalizing k t with
  | nil => exact ⟨t, rfl, rfl, rfl, by simp [← hq], by simp⟩
  | cons x l ih =>
    rw [List.forM.eq_2]
    cases hx : t.inUse x
    case true =>
      -- a connection in use stays in the deque
      rw [EStateM.bind_apply_of_ok (deactivateStep_of_inUse hx)]
      obtain ⟨t', ht, hcs, hu, hds, hcl⟩ := ih (k := k ++ [x]) (by simp [hq])
        (by simpa using hnd) fun id hid => hc id (List.mem_cons_of_mem x hid)
      exact ⟨t', ht, hcs, hu, by simp [hds, List.filter_cons, hx],
        fun id => by simpa [List.filter_cons, hx] using hcl id⟩
    case false =>
      -- an idle connection leaves the deque and is closed
      obtain ⟨c', hc'⟩ := hc x (List.mem_cons_self x l) hx
      rw [EStateM.bind_apply_of_ok (deactivateStep_of_close hx (by simp [hq]) hc')]
      have hx' := List.nodup_cons.mp (List.nodup_middle.mp hnd)
      obtain ⟨hxk, hxl⟩ : x ∉ k ∧ x ∉ l := by simpa using hx'.1
      obtain ⟨t', ht, hcs, hu, hds, hcl⟩ := ih (k := k)
        (t := { t with deques := Function.update t.deques d ((t.deques d).erase x) }.setConn x c')
        (by simp [hq, List.erase_append_right _ hxk]) hx'.2
        fun id hid hu => by
          rw [setConn_conns, Function.update_noteq (ne_of_mem_of_not_mem hid hxl)]
          exact hc id (List.mem_cons_of_mem x hid) hu
      refine ⟨t', ht, hcs, hu, by simp [hds, List.filter_cons, hx], fun id => ?_⟩
      have hid := hcl id
      by_cases hx'' : id = x
      · subst hx''
        simp only [List.mem_filter, hxl, false_and, if_false, setConn_conns,
          Function.update_same] at hid
        simp [List.filter_cons, hx, hid, Connection.closed_of_close codec hc']
      · simpa [List.filter_cons, hx, hx''] using hid

/-- The pool of `Pool.Model` that a `PoolState` stands for: the same dictionary and deques, and
for each connection the same `in_use` and `closed()`. -/
structure Refines (s : PoolState) (p : ConnectionPool) : Prop where
  connections : s.connections = p.connections
  deques : s.deques = p.deques
  inUse : ∀ id, (p.conns id).inUse = s.inUse id
  closed : ∀ id, (p.conns id).closed = (s.conns id).closed

/-- The `PoolState` that stands for `p` with its connections in the states `conns`. -/
def ofPool (p : ConnectionPool) (conns : Nat → Connection) (addressOf : Nat → Nat) : PoolState where
  connections := p.connections
  deques := p.deques
  conns := conns
  inUse id := (p.conns id).inUse
  addressOf := addressOf

theorem refines_ofPool {p : ConnectionPool} {conns : Nat → Connection} (addressOf : Nat → Nat)
    (h : ∀ id, (p.conns id).closed = (conns id).closed) : Refines (ofPool p conns addressOf) p :=
  ⟨rfl, rfl, fun _ => rfl, h⟩

/-- Thread `0` acquires a connection to address `7` and releases it: a reachable pool whose deque
of `7` holds one idle connection, with thread `0` out of `acquire_direct`, the pool open and no
connection closed. -/
theorem exists_reachable_oneIdle : ∃ p : ConnectionPool, p.Reachable 1 ∧ p.lookup 7 = some 0 ∧
    p.deques 0 = [0] ∧ (p.conns 0).inUse = false ∧ (p.threads 0).phase = .idle ∧ p.closed = false ∧
    ∀ id, (p.conns id).closed = false :=
  ⟨_, ConnectionPool.Reachable.init.run (l := [.acquire 0 7, .lock 0 (.connects false) false, .release 0 0]) rfl,
    rfl, rfl, rfl, rfl, rfl, fun id => by
      simp [ConnectionPool.release, ConnectionPool.acquirePass, ConnectionPool.scan,
        ConnectionPool.connectionsFor, ConnectionPool.lookup, ConnectionPool.init,
        ConnectionPool.setThread, ConnectionPool.setConn, Function.update_apply]
      split_ifs <;> rfl⟩

/-- The connection of `Connection.sample` closes, sending its `GOODBYE`. -/
theorem close_sample : ∃ c', Connection.close Codec.sample (Connection.sample true [] []) = .ok () c' :=
  let ⟨_, h⟩ := Connection.close_of_goodbyeSent Codec.sample (c := Connection.sample true [] [])
    (Outbox.layout_init (by decide) (by decide)) (by decide) ⟨rfl, rfl, rfl⟩ (by decide) rfl
  ⟨_, h⟩

/-- `remove(address)` once the address's deque is empty closes nothing: it only drops the
address, as `ConnectionPool.remove` does. -/
theorem removeWith_of_empty {q : ConnectionPool} (hr : Refines t q) {a : Nat}
    (hd : t.lookup a = some d) (he : t.deques d = []) :
    ∃ t', removeWith codec D a t = .ok () t' ∧ Refines t' (q.remove a []) ∧ t'.conns = t.conns := by
  have hl : q.lookup a = some d := by simpa [lookup, ConnectionPool.lookup, hr.connections] using hd
  refine ⟨{ t with connections := t.connections.filter (·.1 != a) },
    by simp [removeWith, hd, he], ?_, rfl⟩
  simp only [ConnectionPool.remove, hl, ← hr.deques, he]
  exact ⟨by simp [ConnectionPool.closeAll, hr.connections], hr.deques, by simpa using hr.inUse,
    by simpa using hr.closed⟩

/-- `deactivate(address)` whose closes all return does what the atomic `ConnectionPool.deactivate`
does, on a pool whose deques hold distinct connections; each connection is as it was, or closed. -/
theorem deactivate_refines_of_nodup {q : ConnectionPool} (hnd : ∀ d, (q.deques d).Nodup)
    (hr : Refines s q) {a : Nat}
    (hc : ∀ d, s.lookup a = some d → ∀ id ∈ s.deques d, s.inUse id = false →
      ∃ c', Connection.close codec (s.conns id) = .ok () c') (fuel : Nat) :
    ∃ s', deactivate codec (fuel + 1) a s = .ok () s' ∧ Refines s' (q.deactivate a []) ∧
      ∀ id, s'.conns id = s.conns id ∨ (s'.conns id).closed = true := by
  have hl : q.lookup a = s.lookup a := by simp [lookup, ConnectionPool.lookup, hr.connections]
  cases hd : s.lookup a with
  | none =>
    exact ⟨s, by simp [deactivate, hd], by simpa [ConnectionPool.deactivate, hl, hd] using hr,
      fun _ => .inl rfl⟩
  | some d =>
    obtain ⟨t, ht, hcs, hu, hds, hcl⟩ := forM_deactivateStep (D := deactivate codec fuel)
      (k := []) (t := s) rfl (by simpa [hr.deques] using hnd d) (hc d hd)
    have hkept : (q.deques d).filter (fun id => (q.conns id).inUse) =
        (s.deques d).filter fun id => s.inUse id := by simp [hr.inUse, hr.deques]
    -- the loop closes the idle connections of the deque and leaves the others as they were
    have hclosed (id : Nat) : (t.conns id).closed =
        (decide (id ∈ (s.deques d).filter fun id => !s.inUse id) || (s.conns id).closed) := by
      have := hcl id
      split at this <;> simp [*]
    have hframe (id : Nat) : t.conns id = s.conns id ∨ (t.conns id).closed = true := by
      have := hcl id
      split at this
      exacts [.inr this, .inl this]
    simp only [deactivate, hd, EStateM.bind_apply, ht, EStateM.get_apply, hds, List.nil_append,
      Function.update_same, ConnectionPool.deactivate, hl, hkept]
    -- the state after the loop stands for the pool before its last `if`
    have hr' : Refines t { q.closeAll [] ((q.deques d).filter fun id => !(q.conns id).inUse) with
        deques := Function.update q.deques d ((s.deques d).filter fun id => s.inUse id) } :=
      ⟨by simp [ConnectionPool.closeAll, hcs, hr.connections], by simp [hds, hr.deques],
        by simp [hu, hr.inUse], by simp [hclosed, hr.inUse, hr.closed, hr.deques]⟩
    split
    next he =>
      obtain ⟨t', ht', hr'', hcs'⟩ :=
        removeWith_of_empty hr' (by simpa [lookup, hcs] using hd) (by simpa [hds] using he)
      exact ⟨t', ht', hr'', hcs' ▸ hframe⟩
    next => exact ⟨t, rfl, hr', hframe⟩

/-- From a reachable pool of `Pool.Model`, `deactivate(address)` whose closes all return does what
the atomic `ConnectionPool.deactivate` does: it returns, and the pool it leaves stands for the
atomic step's. The nested `deactivate` of a failing `send_all` is the one way out of this. -/
theorem deactivate_refines {maxSize : Int} {p : ConnectionPool} (hp : p.Reachable maxSize)
    (hr : Refines s p) {a : Nat}
    (hc : ∀ d, s.lookup a = some d → ∀ id ∈ s.deques d, s.inUse id = false →
      ∃ c', Connection.close codec (s.conns id) = .ok () c') (fuel : Nat) :
    ∃ s', deactivate codec (fuel + 1) a s = .ok () s' ∧ Refines s' (p.deactivate a []) :=
  (deactivate_refines_of_nodup (ConnectionPool.dequesBounded_of_reachable hp).nodup hr hc fuel).imp
    fun _ h => ⟨h.1, h.2.1⟩

/-- The pool of `exists_reachable_oneIdle` with its connection in the state of
`Connection.sample`: `deactivate(7)` closes the idle connection and removes the address. -/
theorem deactivate_refines_oneIdle : ∃ p : ConnectionPool, p.Reachable 1 ∧
    ∃ s', deactivate Codec.sample 1 7 (ofPool p (fun _ => Connection.sample true [] []) fun _ => 7) =
      .ok () s' ∧ Refines s' (p.deactivate 7 []) := by
  obtain ⟨p, hp, -, -, -, -, -, hcl⟩ := exists_reachable_oneIdle
  exact ⟨p, hp, deactivate_refines hp (refines_ofPool _ hcl) (fun _ _ _ _ _ => close_sample) 0⟩

/-- The loop of `remove` over the popped deque `l`, when each `close()` returns, or raises
`OSError` once the address is gone: every connection of `l` ends as its own `close()` leaves
it, and nothing else changes. -/
theorem forM_closeQuietly (fuel : Nat) {l : List Nat} (hnd : l.Nodup)
    (hc : ∀ id ∈ l, ∃ c', Connection.close codec (t.conns id) = .ok () c' ∨
      Connection.close codec (t.conns id) = .error (.raised .ioError) c' ∧
        t.lookup (t.addressOf id) = none) :
    ∃ t', l.forM (closeQuietly (closeConnection codec (deactivate codec (fuel + 1)))) t =
        .ok () t' ∧
      t'.connections = t.connections ∧ t'.deques = t.deques ∧ t'.inUse = t.inUse ∧
      t'.addressOf = t.addressOf ∧ (∀ id ∉ l, t'.conns id = t.conns id) ∧
      ∀ id ∈ l, Connection.close codec (t.conns id) = .ok () (t'.conns id) ∨
        Connection.close codec (t.conns id) = .error (.raised .ioError) (t'.conns id) := by
  induction l generalizing t with
  | nil => exact ⟨t, rfl, rfl, rfl, rfl, rfl, fun _ _ => rfl, by simp⟩
  | cons x l ih =>
    obtain ⟨hxl, hnd⟩ := List.nodup_cons.mp hnd
    obtain ⟨c', hx⟩ := hc x (List.mem_cons_self x l)
    rw [List.forM.eq_2, EStateM.bind_apply_of_ok (closeQuietly_of_close hx)]
    obtain ⟨t', ht, hcs, hds, hu, hao, hout, hin⟩ := ih (t := t.setConn x c') hnd fun id hid => by
      simpa [Function.update_noteq (ne_of_mem_of_not_mem hid hxl)] using
        hc id (List.mem_cons_of_mem x hid)
    refine ⟨t', ht, hcs, hds, hu, hao, fun id hid => ?_, fun id hid => ?_⟩
    · simp only [List.mem_cons, not_or] at hid
      simp [hout id hid.2, hid.1]
    · rcases List.mem_cons.mp hid with rfl | hid
      · simpa [hout _ hxl] using hx.imp_right And.left
      · simpa [Function.update_noteq (ne_of_mem_of_not_mem hid hxl)] using hin id hid

/-- What `remove(address)` does when each `close()` of the popped deque returns, or raises
`OSError` on a connection of that address: it returns with the address popped, each connection of
the popped deque as its own `close()` left it, and nothing else changed. -/
theorem remove_spec {a : Nat} (hnd : ∀ d, s.lookup a = some d → (s.deques d).Nodup)
    (hc : ∀ d, s.lookup a = some d → ∀ id ∈ s.deques d, ∃ c',
      Connection.close codec (s.conns id) = .ok () c' ∨
        Connection.close codec (s.conns id) = .error (.raised .ioError) c' ∧ s.addressOf id = a)
    (fuel : Nat) :
    ∃ s', remove codec (fuel + 1) a s = .ok () s' ∧
      s'.connections = (s.lookup a).elim s.connections (fun _ => s.connections.filter (·.1 != a)) ∧
      s'.deques = s.deques ∧ s'.inUse = s.inUse ∧ s'.addressOf = s.addressOf ∧
      (∀ id, (∀ d, s.lookup a = some d → id ∉ s.deques d) → s'.conns id = s.conns id) ∧
      ∀ d, s.lookup a = some d → ∀ id ∈ s.deques d,
        Connection.close codec (s.conns id) = .ok () (s'.conns id) ∨
          Connection.close codec (s.conns id) = .error (.raised .ioError) (s'.conns id) := by
  cases hd : s.lookup a with
  | none => exact ⟨s, by simp [remove, removeWith, hd], rfl, rfl, rfl, rfl, fun _ _ => rfl, by simp⟩
  | some d =>
    -- the address is popped before the first `close()`, so a nested `deactivate` finds it gone
    have hgone : ({ s with connections := s.connections.filter (·.1 != a) } : PoolState).lookup a =
        none := by
      simp [lookup, ConnectionPool.lookup_filter]
    obtain ⟨t, ht, hcs, hds, hu, hao, hout, hin⟩ := forM_closeQuietly fuel
      (t := { s with connections := s.connections.filter (·.1 != a) }) (hnd d hd)
      fun id hid => (hc d hd id hid).imp fun _ h => h.imp_right fun h => ⟨h.1, by
        simpa [h.2] using hgone⟩
    refine ⟨t, by simpa [remove, removeWith, hd] using ht, hcs, hds, hu, hao,
      fun id hid => hout id (hid d rfl), fun d' hd' => ?_⟩
    cases hd'
    exact hin

theorem lookup_remove_spec (s : PoolState) (a b : Nat) :
    ((s.lookup a).elim s.connections fun _ => s.connections.filter (·.1 != a)).lookup b =
      if b = a then none else s.lookup b := by
  cases hd : s.lookup a with
  | none =>
    split
    · subst b; exact hd
    · rfl
  | some d => exact ConnectionPool.lookup_filter _ _ _

theorem Refines.lookup {q : ConnectionPool} (hr : Refines s q) (a : Nat) :
    s.lookup a = q.lookup a := by
  simp [PoolState.lookup, ConnectionPool.lookup, hr.connections]

/-- `remove(address)` whose closes all return does what the atomic `ConnectionPool.remove` does,
from any pool whose deques hold no connection twice; each connection is left as it was, or
closed. -/
theorem remove_refines_of_nodup {q : ConnectionPool} (hnd : ∀ d, (q.deques d).Nodup)
    (hr : Refines s q) {a : Nat}
    (hc : ∀ d, s.lookup a = some d → ∀ id ∈ s.deques d,
      ∃ c', Connection.close codec (s.conns id) = .ok () c') (fuel : Nat) :
    ∃ s', remove codec (fuel + 1) a s = .ok () s' ∧ Refines s' (q.remove a []) ∧
      ∀ id, s'.conns id = s.conns id ∨ (s'.conns id).closed = true := by
  obtain ⟨s', hrun, hcs, hds, hu, -, hout, hin⟩ := remove_spec (a := a)
    (fun d _ => hr.deques ▸ hnd d) (fun d hd id hid => (hc d hd id hid).imp fun _ => .inl) fuel
  have hclosed : ∀ d, s.lookup a = some d → ∀ id ∈ s.deques d, (s'.conns id).closed = true :=
    fun d hd id hid => by
      obtain ⟨c', hc'⟩ := hc d hd id hid
      rcases hin d hd id hid with h | h
      · exact Connection.closed_of_close codec h
      · cases hc'.symm.trans h
  have hl := hr.lookup a
  refine ⟨s', hrun, ?_, fun id => ?_⟩
  · cases hd : s.lookup a with
    | none =>
      simp only [hd, Option.elim] at hcs
      rw [show q.remove a [] = q by simp [ConnectionPool.remove, ← hl, hd]]
      exact ⟨hcs.trans hr.connections, hds.trans hr.deques, fun id => hu ▸ hr.inUse id,
        fun id => by rw [hout id (by simp [hd])]; exact hr.closed id⟩
    | some d =>
      simp only [hd, Option.elim] at hcs
      refine ⟨by simp [ConnectionPool.remove, ← hl, hd, ConnectionPool.closeAll, hcs,
          hr.connections], by simp [ConnectionPool.remove, ← hl, hd, ConnectionPool.closeAll, hds,
          hr.deques], by simp [ConnectionPool.remove, ← hl, hd, hu, hr.inUse], fun id => ?_⟩
      simp only [ConnectionPool.remove, ← hl, hd, ConnectionPool.closeAll_closed, hr.closed,
        ← hr.deques]
      by_cases hid : id ∈ s.deques d
      · simp [hid, hclosed d hd id hid]
      · simp [hid, hout id (by simp [hd, hid])]
  · by_cases hid : ∃ d, s.lookup a = some d ∧ id ∈ s.deques d
    · obtain ⟨d, hd, hid⟩ := hid
      exact .inr (hclosed d hd id hid)
    · exact .inl (hout id fun d hd h => hid ⟨d, hd, h⟩)

/-- From a reachable pool of `Pool.Model`, `remove(address)` whose closes all return does what the
atomic `ConnectionPool.remove` does. -/
theorem remove_refines {maxSize : Int} {p : ConnectionPool} (hp : p.Reachable maxSize)
    (hr : Refines s p) {a : Nat}
    (hc : ∀ d, s.lookup a = some d → ∀ id ∈ s.deques d,
      ∃ c', Connection.close codec (s.conns id) = .ok () c') (fuel : Nat) :
    ∃ s', remove codec (fuel + 1) a s = .ok () s' ∧ Refines s' (p.remove a []) :=
  (remove_refines_of_nodup (ConnectionPool.dequesBounded_of_reachable hp).nodup hr hc fuel).imp
    fun _ h => ⟨h.1, h.2.1⟩

theorem remove_refines_oneIdle : ∃ p : ConnectionPool, p.Reachable 1 ∧
    ∃ s', remove Codec.sample 1 7 (ofPool p (fun _ => Connection.sample true [] []) fun _ => 7) =
      .ok () s' ∧ Refines s' (p.remove 7 []) := by
  obtain ⟨p, hp, -, -, -, -, -, hcl⟩ := exists_reachable_oneIdle
  exact ⟨p, hp, remove_refines hp (refines_ofPool _ hcl) (fun _ _ _ _ => close_sample) 0⟩

/-! ## Re-entrant calls -/

/-- A pool with one address, `7`, whose deque holds two idle pooled connections of Bolt v3: `0`,
whose socket fails every `sendall`, and `1`. -/
def twoIdle : PoolState where
  connections := [(7, 0)]
  deques := fun _ => [0, 1]
  conns := fun id => if id = 0 then
      { Connection.sample true [] [] with
        wire := { reads := [], writeFails := fun _ => true, sent := [], socketClosed := false } }
    else Connection.sample true [] []
  inUse := fun _ => false
  addressOf := fun _ => 7

/-- `remove(address)` pops the address before it closes anything, so the `deactivate` that a
failing `GOODBYE` makes from `send_all` finds the address gone and returns, and the `OSError` is
passed over: when each `close()` returns or raises `OSError`, `remove` returns, with the address
gone and each connection of the popped deque as its own `close()` left it. -/
theorem remove_returns {a : Nat} (hnd : ∀ d, s.lookup a = some d → (s.deques d).Nodup)
    (ha : ∀ d, s.lookup a = some d → ∀ id ∈ s.deques d, s.addressOf id = a)
    (hc : ∀ d, s.lookup a = some d → ∀ id ∈ s.deques d, ∃ c',
      Connection.close codec (s.conns id) = .ok () c' ∨
        Connection.close codec (s.conns id) = .error (.raised .ioError) c') (fuel : Nat) :
    ∃ s', remove codec (fuel + 1) a s = .ok () s' ∧ s'.lookup a = none ∧
      ∀ d, s.lookup a = some d → ∀ id ∈ s.deques d,
        Connection.close codec (s.conns id) = .ok () (s'.conns id) ∨
          Connection.close codec (s.conns id) = .error (.raised .ioError) (s'.conns id) := by
  obtain ⟨s', hrun, hcs, -, -, -, -, hin⟩ := remove_spec hnd (fun d hd id hid =>
    (hc d hd id hid).imp fun _ h => h.imp_right fun h => ⟨h, ha d hd id hid⟩) fuel
  refine ⟨s', hrun, ?_, hin⟩
  rw [lookup, hcs, lookup_remove_spec, if_pos rfl]

/-- `remove(7)` on `twoIdle` returns, though the `GOODBYE` of connection `0` fails and its
`close()` calls `deactivate(7)`; connection `0` stays open. -/
theorem remove_returns_twoIdle :
    ∃ s', remove Codec.sample 1 7 twoIdle = .ok () s' ∧ s'.lookup 7 = none ∧
      (s'.conns 0).closed = false := by
  obtain ⟨c1, h1, hc1, -⟩ := closeConnection_of_close Codec.sample (c := twoIdle.conns 0)
    (Outbox.layout_init (by decide) (by decide)) (by decide) ⟨rfl, rfl, rfl⟩ (by decide) rfl rfl
  obtain ⟨o, h2⟩ := Connection.close_of_goodbyeSent Codec.sample (c := twoIdle.conns 1)
    (Outbox.layout_init (by decide) (by decide)) (by decide) ⟨rfl, rfl, rfl⟩ (by decide) rfl
  obtain ⟨s', hs', hl, hin⟩ := remove_returns (s := twoIdle) (a := 7)
    (fun _ _ => by simp [twoIdle]) (fun _ _ _ _ => rfl) (fun _ _ id hid => by
      simp only [twoIdle, List.mem_cons, List.mem_singleton, List.not_mem_nil, or_false] at hid
      rcases hid with rfl | rfl
      exacts [⟨c1, .inr h1⟩, ⟨_, .inl h2⟩]) 0
  refine ⟨s', hs', hl, ?_⟩
  rcases hin 0 rfl 0 (by simp [twoIdle]) with h | h
  · cases h1.symm.trans h
  · cases h1.symm.trans h
    exact hc1

variable (codec) in
/-- `deactivate(address)` on a deque holding two idle connections, the first pooled one of which
fails to send its `GOODBYE`. Its `close()` calls `deactivate(address)` again from `send_all`: the
nested call closes the second connection, empties the deque and removes the address. The `OSError`
then reaches the outer loop, which passes over it and goes on with its copy of the deque:
`connections.remove` of the second connection raises `ValueError`, which leaves `deactivate`. The
first connection keeps the state its failed `close()` left. -/
theorem deactivate_reentrant {s : PoolState} {a id1 id2 : Nat} {c1 c2 : Connection}
    (hd : s.lookup a = some d) (hq : s.deques d = [id1, id2]) (hne : id1 ≠ id2)
    (hi1 : s.inUse id1 = false) (hi2 : s.inUse id2 = false)
    (hp1 : (s.conns id1).pooled = true) (ha1 : s.addressOf id1 = a)
    (h1 : Connection.close codec (s.conns id1) = .error (.raised .ioError) c1)
    (h2 : Connection.close codec (s.conns id2) = .ok () c2) (fuel : Nat) :
    ∃ s', deactivate codec (fuel + 2) a s = .error (.raised .valueError) s' ∧
      s'.conns id1 = c1 ∧ s'.conns id2 = c2 ∧ s'.lookup a = none := by
  simp only [lookup] at hd ⊢
  -- the outer loop removes and closes `id1`; the nested call removes and closes `id2`, finds the
  -- deque empty and pops the address; the outer loop then meets `id2` again
  simp [deactivate, deactivateStep, lookup, hd, hq, hi1, hi2, dequeRemove, closeQuietly,
    closeConnection, h1, hp1, ha1, setConn, h2, hne, Function.update_noteq hne.symm, removeWith]
  exact fun _ _ _ h h' => h h'.symm

theorem deactivate_reentrant_twoIdle :
    ∃ s', deactivate Codec.sample 2 7 twoIdle = .error (.raised .valueError) s' ∧
      (s'.conns 0).closed = false := by
  obtain ⟨c1, h1, hc1, -⟩ := closeConnection_of_close Codec.sample (c := twoIdle.conns 0)
    (Outbox.layout_init (by decide) (by decide)) (by decide) ⟨rfl, rfl, rfl⟩ (by decide) rfl rfl
  obtain ⟨o, h2⟩ := Connection.close_of_goodbyeSent Codec.sample (c := twoIdle.conns 1)
    (Outbox.layout_init (by decide) (by decide)) (by decide) ⟨rfl, rfl, rfl⟩ (by decide) rfl
  obtain ⟨s', hs', hs1, -, -⟩ :=
    deactivate_reentrant Codec.sample (s := twoIdle) (a := 7) (d := 0) rfl rfl
      (by decide) rfl rfl rfl rfl h1 h2 0
  exact ⟨s', hs', hs1 ▸ hc1⟩

/-! ## What `deactivate` leaves alone -/

section Spares

variable {u : PoolState}

/-- What a run of the pool's methods keeps from `s` to `s'`: every `in_use`, the state of every
connection in use, and the deque of every address it has not dropped. -/
structure Spares (s s' : PoolState) : Prop where
  inUse : s'.inUse = s.inUse
  conns : ∀ id, s.inUse id = true → s'.conns id = s.conns id
  lookup : ∀ a d, s'.lookup a = some d → s.lookup a = some d

theorem Spares.refl (s : PoolState) : Spares s s :=
  ⟨rfl, fun _ _ => rfl, fun _ _ h => h⟩

theorem Spares.trans (h : Spares s t) (h' : Spares t u) : Spares s u :=
  ⟨h'.inUse.trans h.inUse, fun id hid => (h'.conns id (h.inUse ▸ hid)).trans (h.conns id hid),
    fun a d hd => h.lookup a d (h'.lookup a d hd)⟩

/-- Closing an idle connection spares the others. -/
theorem spares_setConn (h : s.inUse id = false) (c : Connection) : Spares s (s.setConn id c) :=
  ⟨rfl, fun x hx => Function.update_noteq (by rintro rfl; simp [h] at hx) _ _, fun _ _ h => h⟩

/-- A method every run of which spares the state it starts from. -/
def SparesAll {α : Type} (x : PoolM α) : Prop :=
  ∀ s, Spares s (x s).state

theorem SparesAll.bind {α β : Type} {x : PoolM α} {f : α → PoolM β} (hx : SparesAll x)
    (hf : ∀ a, SparesAll (f a)) : SparesAll (x >>= f) := fun s => by
  have h := hx s
  rw [EStateM.bind_apply]
  cases hs : x s with
  | ok a s' =>
    rw [hs] at h
    simpa using h.trans (hf a s')
  | error e s' =>
    rw [hs] at h
    simpa using h

theorem SparesAll.forM {β : Type} {l : List β} {f : β → PoolM PUnit} (h : ∀ b, SparesAll (f b)) :
    SparesAll (l.forM f) := by
  induction l with
  | nil => exact fun s => .refl s
  | cons b l ih => exact (h b).bind fun _ => ih

/-- `try: connection.close() except IOError: pass` ends in the state `close()` left. -/
theorem closeQuietly_state (close : Nat → PoolM Unit) (id : Nat) (s : PoolState) :
    (closeQuietly close id s).state = (close id s).state := by
  unfold closeQuietly
  rw [EStateM.tryCatch_apply]
  cases close id s with
  | ok => rfl
  | error e =>
    dsimp only
    split <;> rfl

/-- `close()` of an idle connection, with a `deactivate` that spares: the connection's own state
changes, and whatever the nested `deactivate` does. -/
theorem spares_closeQuietly (hD : ∀ a, SparesAll (D a)) (h : s.inUse id = false) :
    Spares s (closeQuietly (closeConnection codec D) id s).state := by
  rw [closeQuietly_state]
  unfold closeConnection
  split
  · exact spares_setConn h _
  · split
    · have := (spares_setConn h _).trans (hD (s.addressOf id) (s.setConn id ‹_›))
      rw [EStateM.bind_apply]
      cases hs : D (s.addressOf id) (s.setConn id ‹_›) <;> simpa [hs] using this
    · exact spares_setConn h _

theorem sparesAll_deactivateStep (hD : ∀ a, SparesAll (D a)) :
    SparesAll (deactivateStep codec D d id) := fun s => by
  simp only [deactivateStep, EStateM.bind_apply, EStateM.get_apply]
  cases hu : s.inUse id
  · simp only [Bool.not_false, if_true]
    by_cases hm : id ∈ s.deques d
    · rw [EStateM.bind_apply_of_ok (dequeRemove_of_mem hm)]
      have hrm : Spares s { s with deques := Function.update s.deques d ((s.deques d).erase id) } :=
        ⟨rfl, fun _ _ => rfl, fun _ _ h => h⟩
      exact hrm.trans (spares_closeQuietly hD hu)
    · rw [EStateM.bind_apply_of_error (dequeRemove_of_not_mem hm)]
      exact .refl s
  · simpa using Spares.refl s

/-- Every run of `deactivate`, nested calls and all, spares the pool it starts from. -/
theorem sparesAll_deactivate (fuel a : Nat) : SparesAll (deactivate codec fuel a) := by
  induction fuel generalizing a with
  | zero => exact fun s => .refl s
  | succ fuel ih =>
    intro s
    unfold deactivate
    cases hd : s.lookup a with
    | none => exact .refl s
    | some d =>
      have hstep : ∀ x, SparesAll (deactivateStep codec (deactivate codec fuel) d x) :=
        fun _ => sparesAll_deactivateStep ih
      have hloop := SparesAll.forM (l := s.deques d) hstep s
      simp only [EStateM.bind_apply]
      cases hx : (s.deques d).forM (deactivateStep codec (deactivate codec fuel) d) s with
      | error e t => simpa [hx] using hloop
      | ok _ t =>
        rw [hx] at hloop
        simp only [EStateM.get_apply]
        split
        · -- the deque is empty: `remove` finds the same deque, or nothing
          rename_i he
          simp only [EStateM.Result.state_ok] at hloop
          unfold removeWith
          cases hd' : t.lookup a with
          | none => exact hloop
          | some d' =>
            have hdd : d = d' := by simpa [hd] using hloop.lookup a d' hd'
            subst hdd
            simp only [List.isEmpty_iff] at he
            simp only [he, List.forM.eq_1, EStateM.pure_apply, EStateM.Result.state_ok]
            exact hloop.trans ⟨rfl, fun _ _ => rfl, fun b e h => by
              simp only [lookup, ConnectionPool.lookup_filter] at h ⊢
              split at h
              · cases h
              · exact h⟩
        · exact hloop

/-- Whatever each `close()` does, returning, raising, or calling the pool's `deactivate` back from
`send_all`, a run of `deactivate(address)` never changes a connection that is in use, nor any
`in_use`: it closes idle connections only, nested calls included. -/
theorem deactivate_spares_inUse (fuel a : Nat) (s : PoolState) :
    (deactivate codec fuel a s).state.inUse = s.inUse ∧
      ∀ id, s.inUse id = true → (deactivate codec fuel a s).state.conns id = s.conns id :=
  ⟨(sparesAll_deactivate fuel a s).inUse, (sparesAll_deactivate fuel a s).conns⟩

end Spares

end PoolState

end Neobolt
