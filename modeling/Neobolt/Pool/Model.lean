import Mathlib.Logic.Function.Basic
import Mathlib.Data.List.Nodup

/-!
# The connection pool

`AbstractConnectionPool` shared by threads. Every method takes the pool's lock, so a method, or
the part of `acquire_direct` between taking the lock and returning, raising or calling
`cond.wait`, is one atomic step. `acquire_direct` has three such parts: the check
`if self.closed()`, which takes and drops the lock, the body of `with self.lock` up to the first
`cond.wait`, and each return from `cond.wait` up to the next. Between its parts a call keeps the
deque `connections` it looked up, by reference.

A connection the connector produced is seen through what the pool reads of it: `in_use`,
`closed()`, `defunct()` and `timedout()`. The first changes only under the lock; the others change
when the connection's holder closes it, when `_set_defunct` runs, which also closes it, and as
time passes. The passage of time is a choice of each step that reads the clock, and so are what
the connector does (return a connection, which `timedout()` may already report, raise
`ServiceUnavailable`, or raise another error) and which `close()` calls the pool makes raise
`OSError` because their `GOODBYE` cannot be sent: such a connection stays open, and `remove` and
`deactivate` pass over the error.

A `close()` that raises inside `deactivate(address)` calls `deactivate(address)` again from
`send_all`. The nested call drops and closes the idle connections the outer one has not reached
yet, so `deactivate` leaves the pool as here, though it may then raise `ValueError` to its caller
(`PoolState.deactivate_reentrant`); inside `remove` and `close` the nested call finds the address
already gone.

## Main definitions

* `PooledConnection`, `ConnectionPool`: the state of the connections and of the pool.
* `ConnectorOutcome`: what `self.connector(address)` does.
* `ConnectionPool.acquirePass`: one pass of the `while True` loop of `acquire_direct`.
* `ConnectionPool.step`: every atomic step, of a thread or of the environment.
* `ConnectionPool.Reachable`: the states of every interleaving from a new pool.
-/

namespace Neobolt

/-- A connection the connector produced, as the pool sees it: its address, `in_use`, `closed()`,
`defunct()` and `timedout()`. -/
structure PooledConnection where
  /-- The address the connector connected to, its `unresolved_address`. -/
  address : Nat
  /-- `connection.in_use`. -/
  inUse : Bool
  /-- `connection.closed()`. -/
  closed : Bool
  /-- `connection.defunct()`. -/
  defunct : Bool
  /-- `connection.timedout()`. -/
  timedOut : Bool
  deriving DecidableEq, Repr, Inhabited

/-- A connection `acquire_direct` evicts: `closed() or defunct() or timedout()`. -/
def PooledConnection.stale (c : PooledConnection) : Bool :=
  c.closed || c.defunct || c.timedOut

/-- Where a thread is in a call of `acquire_direct`. -/
inductive Phase where
  /-- In no call of `acquire_direct`. -/
  | idle
  /-- Past `if self.closed()`, before `with self.lock`. -/
  | entered (address : Nat)
  /-- In `self.cond.wait`, with the deque `connections` the call looked up. -/
  | waiting (address deque : Nat)
  deriving DecidableEq, Repr

/-- A thread: where it is, and the connections `acquire_direct` returned to it that it has not
released. -/
structure Thread where
  /-- Where the thread is in `acquire_direct`. -/
  phase : Phase
  /-- The connections handed to it and not released, in the order it got them. -/
  held : List Nat

/-- The pool: `_closed`, the dictionary `connections` from an address to its deque, the deques
as objects (a call keeps a reference to one), the connections produced so far, numbered in order,
and the threads. -/
structure ConnectionPool where
  /-- `self._closed`. -/
  closed : Bool
  /-- `self.connections`, from an address to the name of its deque. -/
  connections : List (Nat × Nat)
  /-- The deque objects, by name. -/
  deques : Nat → List Nat
  /-- The name of the next deque `acquire_direct` creates. -/
  nextDeque : Nat
  /-- The connections the connector produced, by number. -/
  conns : Nat → PooledConnection
  /-- How many connections the connector has produced. -/
  produced : Nat
  /-- The threads that call the pool's methods. -/
  threads : Nat → Thread

/-- What `self.connector(address)` does, a choice of the environment. -/
inductive ConnectorOutcome where
  /-- It returns a new connection, which `timedout()` already reports when `timedOut`: with
  `max_connection_lifetime` `0`, or when the handshake outlasted it. -/
  | connects (timedOut : Bool)
  /-- It raises `ServiceUnavailable`; `acquire_direct` calls `remove(address)`, in which the
  `close()` of the connections of `fails` raises `OSError`. -/
  | unavailable (fails : List Nat)
  /-- It raises another error, such as the `AuthError` or `ProtocolError` of the handshake, which
  leaves `acquire_direct` as it is. -/
  | raises
  deriving DecidableEq, Repr

namespace ConnectionPool

/-- A new pool: no deque, no connection, every thread idle. -/
def init : ConnectionPool where
  closed := false
  connections := []
  deques := fun _ => []
  nextDeque := 0
  conns := fun _ => default
  produced := 0
  threads := fun _ => ⟨.idle, []⟩

variable (p : ConnectionPool)

/-- `self.connections[address]`, if present. -/
def lookup (address : Nat) : Option Nat :=
  p.connections.lookup address

/-- `try: connection.close() except IOError: pass` for each connection of `ids`: `close()` sets
`_closed`, except on the connections of `fails`, whose `GOODBYE` cannot be sent: their `close()`
raises `OSError` before `_closed = True`, and they stay open. -/
def closeAll (fails ids : List Nat) : ConnectionPool :=
  { p with conns := fun id =>
      if id ∈ ids ∧ id ∉ fails then { p.conns id with closed := true } else p.conns id }

/-- `remove(address)`: pop the address's deque and close its connections, the `close()` of those
of `fails` raising. The deque object keeps them. -/
def remove (address : Nat) (fails : List Nat) : ConnectionPool :=
  match p.lookup address with
  | none => p
  | some d =>
    { p.closeAll fails (p.deques d) with connections := p.connections.filter (·.1 != address) }

/-- `deactivate(address)`: drop the connections of the address not in use from its deque and close
them, the `close()` of those of `fails` raising; remove the address if nothing is left. -/
def deactivate (address : Nat) (fails : List Nat) : ConnectionPool :=
  match p.lookup address with
  | none => p
  | some d =>
    let kept := (p.deques d).filter fun id => (p.conns id).inUse
    let p' := { p.closeAll fails ((p.deques d).filter fun id => !(p.conns id).inUse) with
      deques := Function.update p.deques d kept }
    if kept.isEmpty then p'.remove address fails else p'

/-- `close()`: unless closed, set `_closed` and remove every address, the `close()` of the
connections of `fails` raising. -/
def close (fails : List Nat) : ConnectionPool :=
  if p.closed then p
  else (p.connections.map Prod.fst).foldl (fun q a => q.remove a fails) { p with closed := true }

/-- Set thread `i`. -/
def setThread (i : Nat) (t : Thread) : ConnectionPool :=
  { p with threads := Function.update p.threads i t }

/-- Set connection `id`. -/
def setConn (id : Nat) (c : PooledConnection) : ConnectionPool :=
  { p with conns := Function.update p.conns id c }

/-- `release(connection)` by thread `i`: `connection.in_use = False`. -/
def release (i id : Nat) : ConnectionPool :=
  (p.setConn id { p.conns id with inUse := false }).setThread i
    ⟨(p.threads i).phase, (p.threads i).held.erase id⟩

/-- The `for` loop of `acquire_direct` over `list(connections)`: the deque once the stale
connections it meets are removed, and the first connection not in use, if any. -/
def scan (conns : Nat → PooledConnection) : List Nat → List Nat × Option Nat
  | [] => ([], none)
  | id :: rest =>
    if (conns id).stale then scan conns rest
    else if !(conns id).inUse then (id :: rest, some id)
    else
      let r := scan conns rest
      (id :: r.1, r.2)

/-- One pass of the `while True` loop of `acquire_direct` by thread `i`, on the deque `d` it
looked up for `address`: take a free connection, or call the connector if the deque has room (on
`ServiceUnavailable` the address is removed; any other error just leaves), or else wait, unless
the acquisition timeout has `expired`. A call that returns or raises leaves thread `i` idle. -/
def acquirePass (maxSize : Int) (i address d : Nat) (connector : ConnectorOutcome)
    (expired : Bool) : ConnectionPool :=
  let held := (p.threads i).held
  let kept := (scan p.conns (p.deques d)).1
  let p' := { p with deques := Function.update p.deques d kept }
  match (scan p.conns (p.deques d)).2 with
  | some id => (p'.setConn id { p.conns id with inUse := true }).setThread i ⟨.idle, held ++ [id]⟩
  | none =>
    if maxSize = -1 ∨ (kept.length : Int) < maxSize then
      match connector with
      | .connects timedOut =>
        { p' with
          conns := Function.update p.conns p.produced ⟨address, true, false, false, timedOut⟩
          produced := p.produced + 1
          deques := Function.update p.deques d (kept ++ [p.produced])
          threads := Function.update p.threads i ⟨.idle, held ++ [p.produced]⟩ }
      | .unavailable fails => (p'.remove address fails).setThread i ⟨.idle, held⟩
      | .raises => p'.setThread i ⟨.idle, held⟩
    else if expired then p'.setThread i ⟨.idle, held⟩
    else p'.setThread i ⟨.waiting address d, held⟩

/-- The deque of `address`, as `acquire_direct` looks it up under the lock: a new one if the
address is not present. -/
def connectionsFor (address : Nat) : ConnectionPool × Nat :=
  match p.lookup address with
  | some d => (p, d)
  | none =>
    ({ p with connections := p.connections ++ [(address, p.nextDeque)], nextDeque := p.nextDeque + 1 },
      p.nextDeque)

/-! ## Small lemmas -/

variable {p}

theorem held_update (f : Nat → Thread) (i j : Nat) (t : Thread) :
    (Function.update f i t j).held = if j = i then t.held else (f j).held := by
  rw [Function.update_apply]
  split <;> rfl

@[simp]
theorem release_held (i id j : Nat) : ((p.release i id).threads j).held =
    if j = i then (p.threads i).held.erase id else (p.threads j).held :=
  held_update _ _ _ _

@[simp]
theorem release_inUse (i id x : Nat) :
    ((p.release i id).conns x).inUse = if x = id then false else (p.conns x).inUse := by
  simp only [release, setThread, setConn, Function.update_apply]
  split <;> rfl

@[simp]
theorem release_produced (i id : Nat) : (p.release i id).produced = p.produced := rfl

@[simp]
theorem release_deques (i id : Nat) : (p.release i id).deques = p.deques := rfl

@[simp]
theorem remove_deques (a : Nat) (fails : List Nat) : (p.remove a fails).deques = p.deques := by
  unfold remove; split <;> rfl

@[simp]
theorem remove_closed (a : Nat) (fails : List Nat) : (p.remove a fails).closed = p.closed := by
  unfold remove; split <;> rfl

@[simp]
theorem deactivate_closed (a : Nat) (fails : List Nat) :
    (p.deactivate a fails).closed = p.closed := by
  unfold deactivate; split
  · rfl
  · dsimp only; split <;> simp [closeAll]

theorem foldl_remove_closed (addresses fails : List Nat) (p : ConnectionPool) :
    (addresses.foldl (fun q a => q.remove a fails) p).closed = p.closed := by
  induction addresses generalizing p with
  | nil => rfl
  | cons a rest ih => rw [List.foldl_cons, ih, remove_closed]

@[simp]
theorem close_closed (fails : List Nat) : (p.close fails).closed = true := by
  unfold close; split
  · assumption
  · rw [foldl_remove_closed]

@[simp]
theorem remove_nextDeque (a : Nat) (fails : List Nat) :
    (p.remove a fails).nextDeque = p.nextDeque := by
  unfold remove; split <;> rfl

@[simp]
theorem deactivate_nextDeque (a : Nat) (fails : List Nat) :
    (p.deactivate a fails).nextDeque = p.nextDeque := by
  unfold deactivate; split
  · rfl
  · dsimp only; split <;> simp [closeAll]

@[simp]
theorem close_nextDeque (fails : List Nat) : (p.close fails).nextDeque = p.nextDeque := by
  unfold close; split
  · rfl
  · suffices ∀ (l : List Nat) (q : ConnectionPool),
        (l.foldl (fun q a => q.remove a fails) q).nextDeque = q.nextDeque from this _ _
    intro l
    induction l with
    | nil => exact fun _ => rfl
    | cons a rest ih => exact fun q => by rw [List.foldl_cons, ih, remove_nextDeque]

@[simp]
theorem closeAll_inUse (fails ids : List Nat) (x : Nat) :
    ((p.closeAll fails ids).conns x).inUse = (p.conns x).inUse := by
  simp only [closeAll]
  split <;> rfl

@[simp]
theorem closeAll_closed (fails ids : List Nat) (x : Nat) :
    ((p.closeAll fails ids).conns x).closed =
      (decide (x ∈ ids ∧ x ∉ fails) || (p.conns x).closed) := by
  simp only [closeAll]
  split <;> simp [*]

theorem lookup_filter (l : List (Nat × Nat)) (a b : Nat) :
    (l.filter (·.1 != a)).lookup b = if b = a then none else l.lookup b := by
  induction l with
  | nil => simp
  | cons kv l ih =>
    obtain ⟨k, v⟩ := kv
    by_cases hk : k = a
    · subst k
      rw [List.filter_cons_of_neg (by simp), ih]
      by_cases hb : b = a
      · simp [hb]
      · simp [hb, List.lookup_cons, beq_false_of_ne hb]
    · rw [List.filter_cons_of_pos (by simpa using hk)]
      by_cases hb : b = k
      · subst b
        simp [hk]
      · simp [List.lookup_cons, beq_false_of_ne hb, ih]

theorem lookup_remove (p : ConnectionPool) (a b : Nat) (fails : List Nat) :
    (p.remove a fails).lookup b = if b = a then none else p.lookup b := by
  unfold remove
  split
  · split
    · subst b; assumption
    · rfl
  · exact lookup_filter _ _ _

theorem lookup_of_lookup_remove {a b d : Nat} {fails : List Nat}
    (h : (p.remove a fails).lookup b = some d) : p.lookup b = some d := by
  rw [lookup_remove] at h
  split at h
  · cases h
  · exact h

theorem lookup_of_lookup_deactivate {a b d : Nat} {fails : List Nat}
    (h : (p.deactivate a fails).lookup b = some d) : p.lookup b = some d := by
  unfold deactivate at h
  split at h
  · exact h
  · dsimp only at h
    split at h
    · have h' := lookup_of_lookup_remove h
      exact h'
    · exact h

theorem lookup_of_lookup_close {b d : Nat} {fails : List Nat} (h : (p.close fails).lookup b = some d) :
    p.lookup b = some d := by
  unfold close at h
  split at h
  · exact h
  · suffices ∀ (l : List Nat) (q : ConnectionPool),
        (l.foldl (fun q a => q.remove a fails) q).lookup b = some d → q.lookup b = some d by
      have h' := this _ _ h
      exact h'
    intro l
    induction l with
    | nil => exact fun _ h => h
    | cons a rest ih => exact fun q h => lookup_of_lookup_remove (ih _ h)

@[simp]
theorem connectionsFor_conns (a : Nat) : (p.connectionsFor a).1.conns = p.conns := by
  unfold connectionsFor; split <;> rfl

@[simp]
theorem connectionsFor_deques (a : Nat) : (p.connectionsFor a).1.deques = p.deques := by
  unfold connectionsFor; split <;> rfl

@[simp]
theorem connectionsFor_produced (a : Nat) : (p.connectionsFor a).1.produced = p.produced := by
  unfold connectionsFor; split <;> rfl

theorem lookup_connectionsFor_self (p : ConnectionPool) (a : Nat) :
    (p.connectionsFor a).1.lookup a = some (p.connectionsFor a).2 := by
  unfold connectionsFor
  split
  · assumption
  · rename_i hl
    simp only [lookup] at hl ⊢
    simp [List.lookup_append, hl]

theorem lookup_connectionsFor_of_some {a b d : Nat} (h : p.lookup b = some d) :
    (p.connectionsFor a).1.lookup b = some d := by
  unfold connectionsFor
  split
  · exact h
  · simp only [lookup] at h ⊢
    simp [List.lookup_append, h]

variable {conns : Nat → PooledConnection} {q : List Nat} {id : Nat}

theorem scan_sublist (conns : Nat → PooledConnection) (q : List Nat) : (scan conns q).1.Sublist q := by
  induction q with
  | nil => exact .slnil
  | cons x rest ih =>
    unfold scan
    split
    · exact ih.cons x
    · split
      · exact .refl _
      · exact ih.cons₂ x

theorem scan_found (h : (scan conns q).2 = some id) :
    id ∈ q ∧ (conns id).inUse = false ∧ (conns id).stale = false := by
  induction q with
  | nil => simp [scan] at h
  | cons x rest ih =>
    unfold scan at h
    split at h
    · exact (ih h).imp_left (List.mem_cons_of_mem x)
    · split at h
      · cases h
        simp_all
      · exact (ih h).imp_left (List.mem_cons_of_mem x)

theorem stale_of_dropped (hq : id ∈ q) (hk : id ∉ (scan conns q).1) : (conns id).stale = true := by
  induction q with
  | nil => simp at hq
  | cons x rest ih =>
    unfold scan at hk
    rcases List.mem_cons.mp hq with rfl | hq
    · split at hk
      · assumption
      · split at hk <;> simp at hk
    · split at hk
      · exact ih hq hk
      · split at hk
        · simp [hq] at hk
        · exact ih hq fun h => hk (List.mem_cons_of_mem _ h)


end ConnectionPool

/-- An atomic step: a thread's call or part of a call, or a change of a connection that the pool
does not make. The clock, the connector and the `close()` calls that raise are the choices of the
steps that meet them. -/
inductive PoolStep where
  /-- Thread `i` calls `acquire_direct(address)`: `if self.closed()`. -/
  | acquire (i address : Nat)
  /-- Thread `i` takes the lock in `acquire_direct` and runs a pass of its loop. -/
  | lock (i : Nat) (connector : ConnectorOutcome) (expired : Bool)
  /-- Thread `i` returns from `cond.wait`: it raises if `late`, or runs a pass of the loop. -/
  | wake (i : Nat) (late : Bool) (connector : ConnectorOutcome) (expired : Bool)
  /-- Thread `i` calls `release(connection)`. -/
  | release (i id : Nat)
  /-- Thread `i` calls `deactivate(address)`; the `close()` of the connections of `fails` raises. -/
  | deactivate (i address : Nat) (fails : List Nat)
  /-- Thread `i` calls `remove(address)`; the `close()` of the connections of `fails` raises. -/
  | remove (i address : Nat) (fails : List Nat)
  /-- Thread `i` calls `close()`; the `close()` of the connections of `fails` raises. -/
  | close (i : Nat) (fails : List Nat)
  /-- The connection's holder closes it. -/
  | closeConnection (id : Nat)
  /-- The connection's `_set_defunct` runs, which closes it. -/
  | setDefunct (id : Nat)
  /-- The connection reaches its maximum lifetime. -/
  | timeOut (id : Nat)

/-- The connections whose `close()` raises in the `remove(address)` that follows a connector's
`ServiceUnavailable`. -/
def ConnectorOutcome.failedCloses : ConnectorOutcome → List Nat
  | .unavailable fails => fails
  | _ => []

/-- The connections whose `close()` a step lets raise: in its `deactivate`, `remove` or `close`,
or in the `remove(address)` that follows a connector's `ServiceUnavailable`. -/
def PoolStep.failedCloses : PoolStep → List Nat
  | .lock _ connector _ => connector.failedCloses
  | .wake _ _ connector _ => connector.failedCloses
  | .deactivate _ _ fails => fails
  | .remove _ _ fails => fails
  | .close _ fails => fails
  | _ => []

namespace ConnectionPool

variable (maxSize : Int)

/-- The step, if enabled: a thread's call starts from `idle`, and a thread releases only a
connection it holds. -/
def step (p : ConnectionPool) : PoolStep → Option ConnectionPool
  | .acquire i address =>
    if (p.threads i).phase = .idle then
      if p.closed then some p else some (p.setThread i ⟨.entered address, (p.threads i).held⟩)
    else none
  | .lock i connector expired =>
    match (p.threads i).phase with
    | .entered address =>
      some ((p.connectionsFor address).1.acquirePass maxSize i address (p.connectionsFor address).2
        connector expired)
    | _ => none
  | .wake i late connector expired =>
    match (p.threads i).phase with
    | .waiting address d =>
      if late then some (p.setThread i ⟨.idle, (p.threads i).held⟩)
      else some (p.acquirePass maxSize i address d connector expired)
    | _ => none
  | .release i id =>
    if (p.threads i).phase = .idle ∧ id ∈ (p.threads i).held then some (p.release i id) else none
  | .deactivate i address fails =>
    if (p.threads i).phase = .idle then some (p.deactivate address fails) else none
  | .remove i address fails =>
    if (p.threads i).phase = .idle then some (p.remove address fails) else none
  | .close i fails =>
    if (p.threads i).phase = .idle then some (p.close fails) else none
  | .closeConnection id =>
    if id < p.produced then some (p.setConn id { p.conns id with closed := true }) else none
  | .setDefunct id =>
    if id < p.produced then some (p.setConn id { p.conns id with defunct := true, closed := true })
    else none
  | .timeOut id =>
    if id < p.produced then some (p.setConn id { p.conns id with timedOut := true }) else none

variable {maxSize} {p q : ConnectionPool} {s : PoolStep}

/-- What a step can do: nothing; move a thread to another phase; run a pass of
`acquire_direct` on the deque it looks up or waits on; release a connection the thread holds;
run `deactivate`, `remove` or `close`; or change flags of a produced connection. -/
inductive Moves (maxSize : Int) (p : ConnectionPool) : ConnectionPool → Prop where
  | stay : Moves maxSize p p
  | phase (i : Nat) (ph : Phase) : Moves maxSize p (p.setThread i ⟨ph, (p.threads i).held⟩)
  | lock (i a : Nat) (cn : ConnectorOutcome) (ex : Bool) : (p.threads i).phase = .entered a →
      Moves maxSize p ((p.connectionsFor a).1.acquirePass maxSize i a (p.connectionsFor a).2 cn ex)
  | wake (i a d : Nat) (cn : ConnectorOutcome) (ex : Bool) : (p.threads i).phase = .waiting a d →
      Moves maxSize p (p.acquirePass maxSize i a d cn ex)
  | release (i id : Nat) : id ∈ (p.threads i).held → Moves maxSize p (p.release i id)
  | deactivate (a : Nat) (fails : List Nat) : Moves maxSize p (p.deactivate a fails)
  | remove (a : Nat) (fails : List Nat) : Moves maxSize p (p.remove a fails)
  | close (fails : List Nat) : Moves maxSize p (p.close fails)
  | setConn (id : Nat) (c : PooledConnection) : id < p.produced →
      (c = { p.conns id with closed := true } ∨ c = { p.conns id with defunct := true, closed := true } ∨
        c = { p.conns id with timedOut := true }) →
      Moves maxSize p (p.setConn id c)

theorem moves_of_step (hs : step maxSize p s = some q) : Moves maxSize p q := by
  cases s <;>
    simp only [ConnectionPool.step, Option.ite_none_right_eq_some, Option.some.injEq] at hs
  case acquire i address =>
    obtain ⟨-, hs⟩ := hs
    split_ifs at hs <;> cases hs
    exacts [.stay, .phase i _]
  case lock i connector expired =>
    split at hs <;> cases hs
    exact .lock i _ _ _ ‹_›
  case wake i late connector expired =>
    split at hs
    · split_ifs at hs <;> cases hs
      exacts [.phase i _, .wake i _ _ _ _ ‹_›]
    · cases hs
  case release i id => exact hs.2 ▸ .release i id hs.1.2
  case deactivate => exact hs.2 ▸ .deactivate _ _
  case remove => exact hs.2 ▸ .remove _ _
  case close => exact hs.2 ▸ .close _
  case closeConnection id => exact hs.2 ▸ .setConn id _ hs.1 (.inl rfl)
  case setDefunct id => exact hs.2 ▸ .setConn id _ hs.1 (.inr (.inl rfl))
  case timeOut id => exact hs.2 ▸ .setConn id _ hs.1 (.inr (.inr rfl))

variable (maxSize)

/-- The states of every interleaving of steps from a new pool. -/
inductive Reachable : ConnectionPool → Prop where
  | init : Reachable init
  | step {p p' : ConnectionPool} {s : PoolStep} : Reachable p → step maxSize p s = some p' →
      Reachable p'

/-- Run steps in order. -/
def run : ConnectionPool → List PoolStep → Option ConnectionPool
  | p, [] => some p
  | p, s :: rest => (step maxSize p s).bind (run · rest)

variable {maxSize}

/-- A run is its first step, then the rest of the run. -/
theorem run_cons_eq_some {p q : ConnectionPool} {s : PoolStep} {rest : List PoolStep} :
    run maxSize p (s :: rest) = some q ↔ ∃ p1, step maxSize p s = some p1 ∧ run maxSize p1 rest = some q :=
  Option.bind_eq_some

/-- What every step of a kind keeps, every run of such steps keeps. -/
theorem run_invariant_of {P : ConnectionPool → Prop} {Q : PoolStep → Prop}
    (hstep : ∀ p q s, Q s → P p → step maxSize p s = some q → P q) {p q : ConnectionPool}
    {l : List PoolStep} (hl : ∀ s ∈ l, Q s) (hp : P p) (hr : run maxSize p l = some q) : P q := by
  induction l generalizing p with
  | nil =>
    cases hr
    exact hp
  | cons s rest ih =>
    obtain ⟨p1, hs, hr1⟩ := run_cons_eq_some.mp hr
    exact ih (fun s' hs' => hl s' (List.mem_cons_of_mem s hs'))
      (hstep p p1 s (hl s (List.mem_cons_self s rest)) hp hs) hr1

/-- What every step keeps, every run keeps. -/
theorem run_invariant {P : ConnectionPool → Prop}
    (hstep : ∀ p q s, P p → step maxSize p s = some q → P q) {p q : ConnectionPool}
    {l : List PoolStep} (hp : P p) (hr : run maxSize p l = some q) : P q :=
  run_invariant_of (Q := fun _ => True) (fun p q s _ => hstep p q s) (fun _ _ => trivial) hp hr

theorem Reachable.run {p p' : ConnectionPool} {l : List PoolStep} (h : Reachable maxSize p)
    (hr : run maxSize p l = some p') : Reachable maxSize p' :=
  run_invariant (fun _ _ _ hp hs => hp.step hs) h hr

/-- `max_connection_pool_size = 1`. Thread 0 acquires connection 0; thread 1's `acquire_direct`
finds the deque full and waits; thread 2 closes the pool, which closes connection 0 and removes
its address; thread 0 releases connection 0, which wakes thread 1. Thread 1 evicts the closed
connection from the deque it kept, creates connection 1 on the closed pool, and returns it. -/
theorem acquire_after_close :
    ∃ p q, Reachable 1 p ∧ p.closed = true ∧ p.produced = 1 ∧ (p.threads 1).phase = .waiting 0 0 ∧
      run 1 p [.release 0 0, .wake 1 false (.connects false) false] = some q ∧
      q.closed = true ∧ q.produced = 2 ∧ (q.threads 1).held = [1] ∧ (q.conns 1).closed = false :=
  ⟨_, _, Reachable.init.run (l := [.acquire 0 0, .lock 0 (.connects false) false, .acquire 1 0,
    .lock 1 (.connects false) false, .close 2 []]) rfl, by decide, by decide, by decide, rfl,
    by decide, by decide, by decide, by decide⟩

/- `acquire_direct` reads `closed()` before it takes the lock: thread `0` passes it, thread `1`
closes the pool, and thread `0` then puts a new deque for address `7` and an open connection in
the closed pool, which a second `close()` leaves there. -/
example : (run 1 init [.acquire 0 7, .close 1 [], .lock 0 (.connects false) false, .close 1 []]).map
    (fun p => (p.closed, p.lookup 7, p.deques 0, (p.conns 0).closed)) =
      some (true, some 0, [0], false) := by
  rfl

end ConnectionPool

end Neobolt
