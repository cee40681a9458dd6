import Neobolt.Pool.Safety

/-!
# `in_use` and the connections threads hold

`acquire_direct` sets `in_use` on the connection it hands to a thread, and `release` clears it;
nothing else writes it. Over every interleaving, then, a connection is in use exactly when a thread
holds it, and `in_use_connection_count(address)` counts the connections of the address's deque
that threads hold.

## Main definitions

* `ConnectionPool.inUseConnectionCount`: `in_use_connection_count(address)`.
* `ConnectionPool.InUseHeld`: every connection in use is held by a thread.
* `ConnectionPool.Draws`: what a step may add to the deques and to a thread's hands.

## Main results

* `ConnectionPool.inUse_iff_held`: on every reachable pool, a connection is in use exactly when a
  thread holds it.
* `ConnectionPool.inUseConnectionCount_eq_held`: `in_use_connection_count` counts the connections
  of the deque that threads hold.
* `ConnectionPool.inUseConnectionCount_le`: it never exceeds `max_connection_pool_size`.
* `ConnectionPool.acquire_handsOut_fresh`: a connection handed to a thread is open and not
  defunct, and not timed out unless the step has just created it.
* `ConnectionPool.acquire_creates_only_if_busy`: a connection is created only when every live
  connection of the deque `acquire_direct` scans is in use, and the deque has room.
* `ConnectionPool.release_serves_waiter`: a `release` of a live connection of the deque a call
  waits on, then that call waking in time, hands the call a connection.
* `ConnectionPool.evicted_never_handed_out`: a connection in no deque stays out of every deque, and
  no thread that does not hold it gets it, whatever steps follow.
* `ConnectionPool.pool_keeps_live_connection`: a connection in the deque of its address stays there
  until it is closed or times out, in every interleaving in which no `close()` of it raises.
-/

namespace Neobolt

namespace ConnectionPool

/-- `in_use_connection_count(address)`: the connections of the address's deque whose `in_use` is
set, and `0` for an address not in the dictionary. The method reads without the lock; as it
changes nothing, it is a function of the state. -/
def inUseConnectionCount (p : ConnectionPool) (address : Nat) : Nat :=
  match p.lookup address with
  | none => 0
  | some d => (p.deques d).countP fun id => (p.conns id).inUse

/-- Every connection in use is held by a thread. -/
def InUseHeld (p : ConnectionPool) : Prop :=
  ∀ id, (p.conns id).inUse = true → ∃ i, id ∈ (p.threads i).held

variable {maxSize : Int} {p q : ConnectionPool} {s : PoolStep}

namespace InUseHeld

/-- A step after which every thread holds what it held, and every connection in use was in use or
is held. -/
theorem mono (h : InUseHeld p) (hheld : ∀ j, (p.threads j).held ⊆ (q.threads j).held)
    (hin : ∀ x, (q.conns x).inUse = true → (p.conns x).inUse = true ∨ ∃ j, x ∈ (q.threads j).held) :
    InUseHeld q := fun x hx =>
  (hin x hx).elim (fun hp => (h x hp).imp fun j hj => hheld j hj) id

theorem tidies (h : InUseHeld p) (ht : Tidies p q) : InUseHeld q :=
  h.mono (fun _ => ht.threads ▸ List.Subset.refl _) fun x hx => .inl (ht.inUse x ▸ hx)

theorem setThread (h : InUseHeld p) (i : Nat) (t : Thread) (ht : (p.threads i).held ⊆ t.held) :
    InUseHeld (p.setThread i t) :=
  h.mono (fun j => by
    rw [ConnectionPool.setThread, held_update]
    split
    · subst j; exact ht
    · exact List.Subset.refl _) fun _ hx => .inl hx

/-- A pass of `acquire_direct`: the connection it hands out is held by the thread. -/
theorem acquirePass (h : InUseHeld p) (maxSize : Int) (i a d : Nat) (cn : ConnectorOutcome) (ex : Bool) :
    InUseHeld (p.acquirePass maxSize i a d cn ex) := by
  have hs : InUseHeld { p with deques := Function.update p.deques d (scan p.conns (p.deques d)).1 } :=
    h.tidies (tidies_scan p d)
  rcases acquirePass_cases (p := p) maxSize i a d cn ex rfl with
    ⟨id, -, hq⟩ | ⟨fails, -, hq⟩ | ⟨t, -, -, hq⟩ | ⟨ph, hq⟩ <;> rw [hq]
  · -- a free connection from the deque
    refine hs.mono (fun j => ?_) fun x hx => ?_
    · rw [ConnectionPool.setThread, held_update]
      split
      · subst j; exact List.subset_append_left _ _
      · exact List.Subset.refl _
    · simp only [ConnectionPool.setThread, ConnectionPool.setConn, Function.update_apply] at hx ⊢
      split at hx
      · exact .inr ⟨i, by subst x; simp⟩
      · exact .inl hx
  · exact (hs.tidies (tidies_remove _ a fails)).setThread _ _
      (by rw [(tidies_remove _ a fails).threads]; exact List.Subset.refl _)
  · -- a new connection
    refine h.mono (fun j => ?_) fun x hx => ?_
    · rw [held_update]
      split
      · subst j; exact List.subset_append_left _ _
      · exact List.Subset.refl _
    · simp only [Function.update_apply] at hx ⊢
      split at hx
      · exact .inr ⟨i, by subst x; simp⟩
      · exact .inl hx
  · exact hs.setThread _ _ (List.Subset.refl _)

/-- `release` clears `in_use` of the connection it takes from the thread. -/
theorem release (h : InUseHeld p) (i id : Nat) : InUseHeld (p.release i id) := fun x hx => by
  rw [release_inUse] at hx
  split at hx
  · cases hx
  · obtain ⟨j, hj⟩ := h x hx
    refine ⟨j, ?_⟩
    rw [release_held]
    split
    · subst j; exact (List.mem_erase_of_ne ‹_›).mpr hj
    · exact hj

theorem step (h : InUseHeld p) (hs : step maxSize p s = some q) : InUseHeld q := by
  cases moves_of_step hs with
  | stay => exact h
  | phase i ph => exact h.setThread _ _ (List.Subset.refl _)
  | lock i a cn ex => exact (h.tidies (tidies_connectionsFor p a)).acquirePass maxSize i a _ cn ex
  | wake i a d cn ex => exact h.acquirePass maxSize i a d cn ex
  | release i id => exact h.release i id
  | deactivate a fails => exact h.tidies (tidies_deactivate p a fails)
  | remove a fails => exact h.tidies (tidies_remove p a fails)
  | close fails => exact h.tidies (tidies_close p fails)
  | setConn id c _ hc =>
    refine h.mono (fun _ => List.Subset.refl _) fun x hx => .inl ?_
    simp only [ConnectionPool.setConn, Function.update_apply] at hx
    split at hx
    · subst x
      rcases hc with rfl | rfl | rfl <;> exact hx
    · exact hx

end InUseHeld

/-! ## What `acquire_direct` hands out -/

/-- A pass of `acquire_direct` that hands thread `j` a connection `c` it did not hold: `c` is
open, not defunct, and now in use; it is timed out only if the pass has just created it. -/
theorem acquirePass_fresh {i a d j c : Nat} {cn : ConnectorOutcome} {ex : Bool}
    (hc : c ∈ ((p.acquirePass maxSize i a d cn ex).threads j).held) (hnew : c ∉ (p.threads j).held) :
    ((p.acquirePass maxSize i a d cn ex).conns c).closed = false ∧
      ((p.acquirePass maxSize i a d cn ex).conns c).defunct = false ∧
      ((p.acquirePass maxSize i a d cn ex).conns c).inUse = true ∧
      (((p.acquirePass maxSize i a d cn ex).conns c).timedOut = true →
        c = p.produced ∧ (p.acquirePass maxSize i a d cn ex).produced = p.produced + 1) := by
  -- a step that leaves thread `j`'s connections as they were hands it nothing
  have hkeep {q : ConnectionPool} (hq : (q.threads j).held = (p.threads j).held) :
      c ∉ (q.threads j).held := hq ▸ hnew
  rcases acquirePass_cases (p := p) maxSize i a d cn ex rfl with
    ⟨id, hf, hq⟩ | ⟨fails, -, hq⟩ | ⟨t, -, -, hq⟩ | ⟨ph, hq⟩ <;> rw [hq] at hc ⊢
  · -- a free connection from the deque, which the loop found live
    rw [ConnectionPool.setThread, held_update] at hc
    split at hc
    · subst j
      obtain rfl : c = id := by simpa [hnew] using hc
      obtain ⟨-, -, hst⟩ := scan_found hf
      simp only [PooledConnection.stale, Bool.or_eq_false_iff] at hst
      simp [ConnectionPool.setThread, ConnectionPool.setConn, hst]
    · exact absurd hc hnew
  · exact absurd hc (hkeep (by
      rw [ConnectionPool.setThread, held_update, (tidies_remove _ a fails).threads]; split <;> simp_all))
  · -- a new connection, timed out already when `max_connection_lifetime` has passed
    rw [held_update] at hc
    split at hc
    · subst j
      obtain rfl : c = p.produced := by simpa [hnew] using hc
      simp
    · exact absurd hc hnew
  · exact absurd hc (hkeep (by rw [ConnectionPool.setThread, held_update]; split <;> simp_all))

/-- Whatever state the pool is in, a step that hands a thread a connection it did not hold is a
pass of `acquire_direct`, and the connection is open, not defunct and in use: the `for` loop
evicts the stale connections it meets before it picks one. It may be timed out only if the step
has just created it: the connector's new connection is not checked. -/
theorem acquire_handsOut_fresh (hs : step maxSize p s = some q) {j c : Nat}
    (hc : c ∈ (q.threads j).held) (hnew : c ∉ (p.threads j).held) :
    (q.conns c).closed = false ∧ (q.conns c).defunct = false ∧ (q.conns c).inUse = true ∧
      ((q.conns c).timedOut = true → c = p.produced ∧ q.produced = p.produced + 1) := by
  have hkeep {q : ConnectionPool} (hq : (q.threads j).held = (p.threads j).held) :
      c ∉ (q.threads j).held := hq ▸ hnew
  cases moves_of_step hs with
  | stay => exact absurd hc hnew
  | phase i ph =>
    exact absurd hc (hkeep (by rw [ConnectionPool.setThread, held_update]; split <;> simp_all))
  | lock i a cn ex =>
    simpa only [(tidies_connectionsFor p a).produced] using
      acquirePass_fresh hc (by rwa [(tidies_connectionsFor p a).threads])
  | wake i a d cn ex => exact acquirePass_fresh hc hnew
  | release i id =>
    rw [release_held] at hc
    split at hc
    · subst j; exact absurd (List.mem_of_mem_erase hc) hnew
    · exact absurd hc hnew
  | deactivate a fails => exact absurd hc (hkeep (by rw [(tidies_deactivate p a fails).threads]))
  | remove a fails => exact absurd hc (hkeep (by rw [(tidies_remove p a fails).threads]))
  | close fails => exact absurd hc (hkeep (by rw [(tidies_close p fails).threads]))
  | setConn => exact absurd hc hnew

/-- Thread `0` takes the lock on a new pool and is handed connection `0`, which the connector
made with its lifetime already over. -/
theorem acquire_handsOut_fresh_first :
    ∃ q, step 1 (init.setThread 0 ⟨.entered 0, []⟩) (.lock 0 (.connects true) false) = some q ∧
      0 ∈ (q.threads 0).held ∧ 0 ∉ ((init.setThread 0 ⟨.entered 0, []⟩).threads 0).held ∧
      (q.conns 0).closed = false ∧ (q.conns 0).defunct = false ∧ (q.conns 0).inUse = true ∧
      ((q.conns 0).timedOut = true → 0 = (init.setThread 0 ⟨.entered 0, []⟩).produced ∧
        q.produced = (init.setThread 0 ⟨.entered 0, []⟩).produced + 1) :=
  ⟨_, rfl, by decide, by decide, acquire_handsOut_fresh
    (rfl : step 1 (init.setThread 0 ⟨.entered 0, []⟩) (.lock 0 (.connects true) false) = some _) (j := 0)
    (by decide) (by decide)⟩

/-! ## When `acquire_direct` creates a connection -/

/-- A `for` loop that finds no free connection keeps the live connections of the deque, all of
them in use. -/
theorem scan_of_none {conns : Nat → PooledConnection} {l : List Nat} (h : (scan conns l).2 = none) :
    (scan conns l).1 = l.filter (fun id => !(conns id).stale) ∧
      ∀ id ∈ l, (conns id).stale = false → (conns id).inUse = true := by
  induction l with
  | nil => exact ⟨rfl, by simp⟩
  | cons x rest ih =>
    cases hs : (conns x).stale <;> cases hu : (conns x).inUse <;>
      simp only [scan, hs, hu, Bool.false_eq_true, if_false, if_true, Bool.not_false,
        Bool.not_true] at h ⊢
    · cases h
    all_goals
      obtain ⟨h1, h2⟩ := ih h
      refine ⟨by simp [h1, List.filter_cons, hs], fun id hid hst => ?_⟩
      rcases List.mem_cons.mp hid with rfl | hid
      exacts [by simp_all, h2 id hid hst]

/-- A pass of `acquire_direct` that creates a connection found none free in its deque, and room:
the deque keeps its live connections and gains the new one, which goes to thread `i`. -/
theorem acquirePass_creates {i a d : Nat} {cn : ConnectorOutcome} {ex : Bool}
    (h : (p.acquirePass maxSize i a d cn ex).produced ≠ p.produced) :
    (p.acquirePass maxSize i a d cn ex).produced = p.produced + 1 ∧
      ((p.acquirePass maxSize i a d cn ex).threads i).held = (p.threads i).held ++ [p.produced] ∧
      (p.acquirePass maxSize i a d cn ex).deques d =
        (p.deques d).filter (fun id => !(p.conns id).stale) ++ [p.produced] ∧
      (∀ id ∈ p.deques d, (p.conns id).stale = false → (p.conns id).inUse = true) ∧
      (maxSize = -1 ∨ (((p.deques d).filter fun id => !(p.conns id).stale).length : Int) < maxSize) := by
  have hnone : (scan p.conns (p.deques d)).2 = none := by
    cases hf : (scan p.conns (p.deques d)).2 with
    | none => rfl
    | some id => exact absurd (by simp [acquirePass, hf, setThread, setConn]) h
  obtain ⟨hkept, hbusy⟩ := scan_of_none hnone
  rcases acquirePass_cases (p := p) maxSize i a d cn ex rfl with
    ⟨id, hf, hq⟩ | ⟨fails, -, hq⟩ | ⟨t, -, hroom, hq⟩ | ⟨ph, hq⟩ <;> rw [hq] at h ⊢
  · simp [hnone] at hf
  · exact absurd (tidies_remove _ a fails).produced h
  · exact ⟨rfl, by simp, by simp [hkept], hbusy, hkept ▸ hroom⟩
  · exact absurd rfl h

/-- Whatever state the pool is in, a step that creates a connection is a pass of `acquire_direct`
that found every live connection of the deque it scans in use, and the deque short of
`max_connection_pool_size`: the pool never opens a connection while a free one that it would hand
out is in that deque. The deque is the address's own for a call that takes the lock, and the one
it waited on for a call that wakes. -/
theorem acquire_creates_only_if_busy (hs : step maxSize p s = some q)
    (hnew : q.produced ≠ p.produced) :
    q.produced = p.produced + 1 ∧ ∃ i d,
      ((∃ a, (p.threads i).phase = .entered a ∧ (p.connectionsFor a).2 = d) ∨
        ∃ a, (p.threads i).phase = .waiting a d) ∧
      (q.threads i).held = (p.threads i).held ++ [p.produced] ∧
      q.deques d = (p.deques d).filter (fun id => !(p.conns id).stale) ++ [p.produced] ∧
      (∀ id ∈ p.deques d, (p.conns id).stale = false → (p.conns id).inUse = true) ∧
      (maxSize = -1 ∨ (((p.deques d).filter fun id => !(p.conns id).stale).length : Int) < maxSize) := by
  -- every other step leaves the count of produced connections alone
  have hkeep {q : ConnectionPool} (ht : Tidies p q) : q.produced = p.produced := ht.produced
  cases moves_of_step hs with
  | stay => exact absurd rfl hnew
  | phase i ph => exact absurd rfl hnew
  | lock i a cn ex =>
    have ht := tidies_connectionsFor p a
    obtain ⟨h1, h2, h3, h4, h5⟩ := acquirePass_creates (by rwa [ht.produced])
    simp only [connectionsFor_conns, connectionsFor_deques, connectionsFor_produced, ht.threads]
      at h1 h2 h3 h4 h5
    exact ⟨h1, i, _, .inl ⟨a, ‹_›, rfl⟩, h2, h3, h4, h5⟩
  | wake i a d cn ex =>
    obtain ⟨h1, h2, h3, h4, h5⟩ := acquirePass_creates hnew
    exact ⟨h1, i, d, .inr ⟨a, ‹_›⟩, h2, h3, h4, h5⟩
  | release i id => exact absurd (release_produced i id) hnew
  | deactivate a fails => exact absurd (hkeep (tidies_deactivate p a fails)) hnew
  | remove a fails => exact absurd (hkeep (tidies_remove p a fails)) hnew
  | close fails => exact absurd (hkeep (tidies_close p fails)) hnew
  | setConn => exact absurd rfl hnew

/-- Thread `0` takes the lock on a new pool, finds the deque of address `0` empty, and creates
connection `0`. -/
theorem acquire_creates_only_if_busy_first :
    ∃ p q : ConnectionPool, p = init.setThread 0 ⟨.entered 0, []⟩ ∧
      step 1 p (.lock 0 (.connects false) false) = some q ∧ q.produced ≠ p.produced ∧
      q.produced = p.produced + 1 ∧ ∃ i d,
        ((∃ a, (p.threads i).phase = .entered a ∧ (p.connectionsFor a).2 = d) ∨
          ∃ a, (p.threads i).phase = .waiting a d) ∧
        (q.threads i).held = (p.threads i).held ++ [p.produced] ∧
        q.deques d = (p.deques d).filter (fun id => !(p.conns id).stale) ++ [p.produced] ∧
        (∀ id ∈ p.deques d, (p.conns id).stale = false → (p.conns id).inUse = true) ∧
        ((1 : Int) = -1 ∨ (((p.deques d).filter fun id => !(p.conns id).stale).length : Int) < 1) :=
  ⟨_, _, rfl, rfl, by decide, acquire_creates_only_if_busy
    (rfl : step 1 (init.setThread 0 ⟨.entered 0, []⟩) (.lock 0 (.connects false) false) = some _) (by decide)⟩

/-! ## A released connection goes to a waiting call -/

/-- A pass whose `for` loop finds connection `c` free hands it to its thread. -/
theorem acquirePass_of_found {i a d c : Nat} {cn : ConnectorOutcome} {ex : Bool}
    (hf : (scan p.conns (p.deques d)).2 = some c) :
    p.acquirePass maxSize i a d cn ex =
      ({ p with deques := Function.update p.deques d (scan p.conns (p.deques d)).1 }.setConn c
        { p.conns c with inUse := true }).setThread i ⟨.idle, (p.threads i).held ++ [c]⟩ := by
  unfold acquirePass
  simp only [hf]

/-- From any state, `release(connection)` of a live connection of the deque a call of
`acquire_direct` waits on, followed by that call waking within its timeout (`cond.notify_all()`,
then `cond.wait` returning), hands the call a free, live connection of that deque: the released one,
or one the `for` loop meets before it. -/
theorem release_serves_waiter {i j a d id : Nat} (hw : (p.threads i).phase = .waiting a d)
    (hj : (p.threads j).phase = .idle) (hheld : id ∈ (p.threads j).held) (hid : id ∈ p.deques d)
    (hst : (p.conns id).stale = false) (cn : ConnectorOutcome) (ex : Bool) :
    ∃ q c, run maxSize p [.release j id, .wake i false cn ex] = some q ∧
      q.threads i = ⟨.idle, (p.threads i).held ++ [c]⟩ ∧ c ∈ p.deques d ∧
      (q.conns c).stale = false ∧ (q.conns c).inUse = true := by
  have hij : i ≠ j := fun h => by rw [h, hj] at hw; cases hw
  have ht : (p.release j id).threads i = p.threads i := by
    simp [ConnectionPool.release, ConnectionPool.setThread, ConnectionPool.setConn,
      Function.update_noteq hij]
  -- the released connection is free and live, so the `for` loop of the woken call finds one
  obtain ⟨c, hf⟩ : ∃ c, (scan (p.release j id).conns ((p.release j id).deques d)).2 = some c := by
    cases hsc : (scan (p.release j id).conns ((p.release j id).deques d)).2 with
    | some c => exact ⟨c, rfl⟩
    | none =>
      have h := (scan_of_none hsc).2 id (by simpa using hid)
        (by simpa [ConnectionPool.release, ConnectionPool.setThread, ConnectionPool.setConn,
          PooledConnection.stale] using hst)
      simp [release_inUse] at h
  obtain ⟨hmem, -, hst'⟩ := scan_found hf
  refine ⟨(p.release j id).acquirePass maxSize i a d cn ex, c, by simp [run, step, hj, hheld, ht, hw],
    ?_, by simpa using hmem, ?_⟩
  all_goals rw [acquirePass_of_found hf]
  · simp [ConnectionPool.setThread, ht]
  · simpa [ConnectionPool.setThread, ConnectionPool.setConn, PooledConnection.stale] using hst'

/-- `max_connection_pool_size = 1`: thread `0` holds connection `0` of address `7` and thread `1`
waits; thread `0` releases it and thread `1` wakes and gets it. -/
theorem release_serves_waiter_full : ∃ p : ConnectionPool,
    run 1 init [.acquire 0 7, .lock 0 (.connects false) false, .acquire 1 7, .lock 1 (.connects false) false] = some p ∧
    (p.threads 1).phase = .waiting 7 0 ∧ (p.threads 0).phase = .idle ∧ 0 ∈ (p.threads 0).held ∧
    0 ∈ p.deques 0 ∧ (p.conns 0).stale = false ∧
    ∃ q c, run 1 p [.release 0 0, .wake 1 false (.connects false) false] = some q ∧
      q.threads 1 = ⟨.idle, (p.threads 1).held ++ [c]⟩ ∧ c ∈ p.deques 0 ∧
      (q.conns c).stale = false ∧ (q.conns c).inUse = true := by
  obtain ⟨p, hrun⟩ : ∃ p, run 1 init [.acquire 0 7, .lock 0 (.connects false) false, .acquire 1 7,
    .lock 1 (.connects false) false] = some p := ⟨_, rfl⟩
  have hw : (p.threads 1).phase = .waiting 7 0 := by cases hrun; rfl
  have hj : (p.threads 0).phase = .idle := by cases hrun; rfl
  have hheld : 0 ∈ (p.threads 0).held := by cases hrun; decide
  have hid : 0 ∈ p.deques 0 := by cases hrun; decide
  have hst : (p.conns 0).stale = false := by cases hrun; rfl
  exact ⟨p, hrun, hw, hj, hheld, hid, hst, release_serves_waiter hw hj hheld hid hst (.connects false) false⟩

/-! ## A connection out of every deque stays out -/

/-- What a step may add to the deques and to a thread's hands: a connection already in a deque, or
the one it creates; and the count of produced connections never goes down. -/
structure Draws (p q : ConnectionPool) : Prop where
  produced : p.produced ≤ q.produced
  deques : ∀ d c, c ∈ q.deques d → c ∈ p.deques d ∨ c = p.produced
  held : ∀ j c, c ∈ (q.threads j).held → c ∉ (p.threads j).held → (∃ d, c ∈ p.deques d) ∨
    c = p.produced

/-- A step that adds nothing to the deques or to any thread's hands. -/
theorem draws_of_sublist (hpr : q.produced = p.produced) (hd : ∀ d, (q.deques d).Sublist (p.deques d))
    (hh : ∀ j, (q.threads j).held ⊆ (p.threads j).held) : Draws p q :=
  ⟨hpr.ge, fun d _ hc => .inl ((hd d).subset hc), fun j _ hc hn => absurd (hh j hc) hn⟩

theorem draws_of_tidies (ht : Tidies p q) : Draws p q :=
  draws_of_sublist ht.produced ht.deques fun _ => by rw [ht.threads]; exact List.Subset.refl _

/-- The steps from a state with the same deques, count and threads. -/
theorem Draws.of_same {r : ConnectionPool} (h : Draws r q) (hpr : r.produced = p.produced)
    (hd : r.deques = p.deques) (ht : r.threads = p.threads) : Draws p q := by
  obtain ⟨h1, h2, h3⟩ := h
  rw [hpr] at h1
  rw [hd, hpr] at h2
  rw [ht, hd, hpr] at h3
  exact ⟨h1, h2, h3⟩

theorem Draws.setPhase (h : Draws p q) (i : Nat) (ph : Phase) :
    Draws p (q.setThread i ⟨ph, (p.threads i).held⟩) :=
  ⟨h.produced, h.deques, fun j c hc hn => by
    rw [setThread, held_update] at hc
    split at hc
    · exact absurd (‹j = i› ▸ hc) hn
    · exact h.held j c hc hn⟩

/-- A pass of `acquire_direct` hands its thread a connection of the deque it scans, or the one it
creates, which is also the only connection it adds to a deque. -/
theorem draws_acquirePass (i a d : Nat) (cn : ConnectorOutcome) (ex : Bool) : Draws p (p.acquirePass maxSize i a d cn ex) := by
  have hs := tidies_scan p d
  rcases acquirePass_cases (p := p) maxSize i a d cn ex rfl with
    ⟨id, hf, hq⟩ | ⟨fails, -, hq⟩ | ⟨t, -, -, hq⟩ | ⟨ph, hq⟩ <;> rw [hq]
  · -- a free connection from the deque
    refine ⟨le_rfl, (draws_of_tidies hs).deques, fun j c hc hn => ?_⟩
    simp only [setThread, held_update, setConn] at hc
    split at hc
    · subst j
      obtain rfl : c = id := by simpa [hn] using hc
      exact .inl ⟨d, (scan_found hf).1⟩
    · exact absurd hc hn
  · have ht := hs.trans (tidies_remove _ a fails)
    exact (draws_of_tidies ht).setPhase i .idle
  · -- a new connection
    refine ⟨Nat.le_succ _, fun d' c hc => ?_, fun j c hc hn => .inr ?_⟩
    · simp only [Function.update_apply] at hc
      split at hc
      · rcases List.mem_append.mp hc with hc | hc
        · exact .inl (‹d' = d› ▸ (scan_sublist _ _).subset hc)
        · exact .inr (List.mem_singleton.mp hc)
      · exact .inl hc
    · simp only [held_update] at hc
      split at hc
      · simpa [‹j = i› ▸ hn] using hc
      · exact absurd hc hn
  · exact (draws_of_tidies hs).setPhase i ph

theorem draws_of_step (hs : step maxSize p s = some q) : Draws p q := by
  cases moves_of_step hs with
  | stay => exact draws_of_tidies (.refl p)
  | phase i ph => exact (draws_of_tidies (.refl p)).setPhase i ph
  | lock i a cn ex =>
    exact (draws_acquirePass i a _ cn ex).of_same (connectionsFor_produced a) (connectionsFor_deques a)
      (tidies_connectionsFor p a).threads
  | wake i a d cn ex => exact draws_acquirePass i a d cn ex
  | release i id =>
    refine draws_of_sublist rfl (fun _ => .refl _) fun j c hc => ?_
    rw [release_held] at hc
    split at hc
    · exact ‹j = i› ▸ List.mem_of_mem_erase hc
    · exact hc
  | deactivate a fails => exact draws_of_tidies (tidies_deactivate p a fails)
  | remove a fails => exact draws_of_tidies (tidies_remove p a fails)
  | close fails => exact draws_of_tidies (tidies_close p fails)
  | setConn id c => exact draws_of_sublist rfl (fun _ => .refl _) fun _ => List.Subset.refl _

/-- Whatever state the pool is in and whatever steps follow, a produced connection that is in no
deque (dropped by the `for` loop of `acquire_direct`, by `deactivate`, or left in the deque object
of a removed address and then dropped) is never put in a deque again, and no thread that does not
hold it is handed it: `release` does not give a connection back to its deque, and `acquire_direct`
only hands out connections of a deque or a new one. -/
theorem evicted_never_handed_out {id : Nat} (hp : id < p.produced) (hd : ∀ d, id ∉ p.deques d)
    {l : List PoolStep} (hr : run maxSize p l = some q) :
    (∀ d, id ∉ q.deques d) ∧ ∀ j, id ∈ (q.threads j).held → id ∈ (p.threads j).held := by
  -- one step keeps the connection out of every deque, and hands it to no new thread
  have hstep (r r' : ConnectionPool) (s : PoolStep)
      (h : id < r.produced ∧ (∀ d, id ∉ r.deques d) ∧
        ∀ j, id ∈ (r.threads j).held → id ∈ (p.threads j).held)
      (hs : step maxSize r s = some r') :
      id < r'.produced ∧ (∀ d, id ∉ r'.deques d) ∧
        ∀ j, id ∈ (r'.threads j).held → id ∈ (p.threads j).held := by
    obtain ⟨hlt, hout, hheld⟩ := h
    have hdr := draws_of_step hs
    refine ⟨lt_of_lt_of_le hlt hdr.produced, fun d hc => ?_, fun j hj => hheld j ?_⟩
    · exact (hdr.deques d id hc).elim (hout d) (ne_of_lt hlt)
    · by_contra hn
      rcases hdr.held j id hj hn with ⟨d, hc⟩ | he
      exacts [hout d hc, ne_of_lt hlt he]
  exact (run_invariant hstep ⟨hp, hd, fun _ h => h⟩ hr).2

/-- `max_connection_pool_size = 1`: connection `0` to address `7` times out in thread `0`'s hands,
and thread `1`'s `acquire_direct` evicts it and creates connection `1`. Both threads release, and thread `0`'s next
`acquire_direct` gets connection `1`, never `0` again. -/
theorem evicted_never_handed_out_timedOut : ∃ p q : ConnectionPool,
    run 1 init [.acquire 0 7, .lock 0 (.connects false) false, .timeOut 0, .acquire 1 7, .lock 1 (.connects false) false] =
      some p ∧
    run 1 p [.release 0 0, .release 1 1, .acquire 0 7, .lock 0 (.connects false) false] = some q ∧
    (q.threads 0).held = [1] ∧ 0 < p.produced ∧ (∀ d, 0 ∉ p.deques d) ∧
    (∀ d, 0 ∉ q.deques d) ∧ ∀ j, 0 ∈ (q.threads j).held → 0 ∈ (p.threads j).held := by
  obtain ⟨p, hp⟩ : ∃ p, run 1 init [.acquire 0 7, .lock 0 (.connects false) false, .timeOut 0, .acquire 1 7,
    .lock 1 (.connects false) false] = some p := ⟨_, rfl⟩
  obtain ⟨q, hq⟩ : ∃ q, run 1 p [.release 0 0, .release 1 1, .acquire 0 7, .lock 0 (.connects false) false] =
    some q := by cases hp; exact ⟨_, rfl⟩
  have h0 : 0 < p.produced := by cases hp; decide
  have hd : ∀ d, 0 ∉ p.deques d := by
    cases hp
    intro d
    rcases Nat.eq_zero_or_pos d with rfl | hd
    · decide
    · simp [acquirePass, scan, connectionsFor, lookup, init, setThread, setConn, Function.update_apply,
        PooledConnection.stale, hd.ne']
  exact ⟨p, q, hp, hq, by cases hp; cases hq; rfl, h0, hd, evicted_never_handed_out h0 hd hq⟩

/-! ## A connection in its deque stays until it is closed or times out -/

theorem trackedAt_run {id : Nat} (h : TrackedAt p id) (hdef : DefunctClosed p) (hlt : id < p.produced)
    {l : List PoolStep} (hf : ∀ s ∈ l, id ∉ s.failedCloses) (hr : run maxSize p l = some q) :
    TrackedAt q id :=
  (run_invariant_of (P := fun r => TrackedAt r id ∧ DefunctClosed r ∧ id < r.produced)
    (fun _ _ _ hs' ⟨h1, h2, h3⟩ hs =>
      ⟨h1.step h2 h3 hs' hs, h2.step hs, lt_of_lt_of_le h3 (draws_of_step hs).produced⟩)
    hf ⟨h, hdef, hlt⟩ hr).1

/-- In every interleaving from a reachable pool in which no `close()` of the connection raises, a
connection in the deque `connections[address]` of its address stays in the deque of its address
until it is closed or times out: no step lets go of an open connection that has not timed out,
whether calls of `acquire_direct` wait on deques that `remove` drops or not. A `close()` whose
`GOODBYE` cannot be sent raises `OSError`, which `remove` and `deactivate` pass over: the connection
they drop then stays open. -/
theorem pool_keeps_live_connection (hp : Reachable maxSize p) {id d : Nat}
    (hd : p.lookup (p.conns id).address = some d) (hid : id ∈ p.deques d) {l : List PoolStep}
    (hf : ∀ s ∈ l, id ∉ s.failedCloses) (hr : run maxSize p l = some q) :
    (q.conns id).closed = true ∨ (q.conns id).timedOut = true ∨
      ∃ d', q.lookup (q.conns id).address = some d' ∧ id ∈ q.deques d' :=
  trackedAt_run (.inr (.inr ⟨d, hd, hid⟩)) (defunctClosed_of_reachable hp)
    ((exclusive_of_reachable hp).deque_lt d id hid) hf hr

/-- The idle connection `0` of address `7`: thread `1` acquires it, and `deactivate(7)` keeps it,
in use, in its deque. -/
theorem pool_keeps_live_connection_deactivate : ∃ p q : ConnectionPool, p.Reachable 1 ∧
    p.lookup (p.conns 0).address = some 0 ∧ 0 ∈ p.deques 0 ∧
    (∀ s ∈ [PoolStep.acquire 1 7, .lock 1 (.connects false) false, .deactivate 1 7 []],
      0 ∉ s.failedCloses) ∧
    run 1 p [.acquire 1 7, .lock 1 (.connects false) false, .deactivate 1 7 []] = some q ∧
    ((q.conns 0).closed = true ∨ (q.conns 0).timedOut = true ∨
      ∃ d', q.lookup (q.conns 0).address = some d' ∧ 0 ∈ q.deques d') := by
  obtain ⟨p, hrun⟩ : ∃ p, run 1 init [.acquire 0 7, .lock 0 (.connects false) false, .release 0 0] = some p :=
    ⟨_, rfl⟩
  obtain ⟨q, hq⟩ : ∃ q, run 1 p [.acquire 1 7, .lock 1 (.connects false) false, .deactivate 1 7 []] = some q := by
    cases hrun; exact ⟨_, rfl⟩
  have hp := Reachable.init.run hrun
  have hd : p.lookup (p.conns 0).address = some 0 := by cases hrun; rfl
  have hid : 0 ∈ p.deques 0 := by cases hrun; decide
  have hf : ∀ s ∈ [PoolStep.acquire 1 7, .lock 1 (.connects false) false, .deactivate 1 7 []],
      0 ∉ s.failedCloses := by decide
  exact ⟨p, q, hp, hd, hid, hf, hq, pool_keeps_live_connection hp hd hid hf hq⟩

theorem inUseHeld_of_reachable (h : Reachable maxSize p) : InUseHeld p := by
  induction h with
  | init => exact fun _ h => by simp [init] at h
  | step _ hs ih => exact ih.step hs

/-- In every interleaving of `acquire_direct`, `release`, `deactivate`, `remove` and `close`, and
any change of the connections' flags, a connection is in use exactly when a thread holds it: no
connection stays in use after its holder releases it, and none is in use without a holder. -/
theorem inUse_iff_held (h : Reachable maxSize p) (id : Nat) :
    (p.conns id).inUse = true ↔ ∃ i, id ∈ (p.threads i).held :=
  ⟨inUseHeld_of_reachable h id, fun ⟨i, hi⟩ => (exclusive_of_reachable h).inUse i id hi⟩

/-- Thread `0` acquires connection `0`, which is then in use and held. -/
theorem inUse_iff_held_acquired :
    ∃ p : ConnectionPool, p.Reachable 1 ∧ (p.conns 0).inUse = true ∧
      ((p.conns 0).inUse = true ↔ ∃ i, 0 ∈ (p.threads i).held) := by
  obtain ⟨p, hrun⟩ : ∃ p, run 1 init [.acquire 0 7, .lock 0 (.connects false) false] = some p := ⟨_, rfl⟩
  have hp := Reachable.init.run hrun
  refine ⟨p, hp, ?_, inUse_iff_held hp 0⟩
  cases hrun
  rfl

/-- On every reachable pool, `in_use_connection_count(address)` is the number of connections of the
address's deque that some thread holds, for any list `ts` of threads that takes in every thread
holding a connection. -/
theorem inUseConnectionCount_eq_held (h : Reachable maxSize p) {ts : List Nat}
    (hts : ∀ i, (p.threads i).held ≠ [] → i ∈ ts) (a : Nat) :
    p.inUseConnectionCount a =
      ((p.lookup a).elim [] p.deques).countP fun id => ts.any fun i => id ∈ (p.threads i).held := by
  unfold inUseConnectionCount
  cases p.lookup a with
  | none => rfl
  | some d =>
    refine List.countP_congr fun id _ => ?_
    simp only [List.any_eq_true, decide_eq_true_eq]
    exact ⟨fun hu => let ⟨i, hi⟩ := inUseHeld_of_reachable h id hu
        ⟨i, hts i (List.ne_nil_of_mem hi), hi⟩,
      fun ⟨i, _, hi⟩ => (exclusive_of_reachable h).inUse i id hi⟩

/-- Thread `0` acquires a connection to address `7`: one connection of `7` is in use, the one
thread `0` holds. -/
theorem inUseConnectionCount_eq_held_acquired :
    ∃ p : ConnectionPool, p.Reachable 1 ∧ p.inUseConnectionCount 7 = 1 ∧
      p.inUseConnectionCount 7 =
        ((p.lookup 7).elim [] p.deques).countP fun id => [0].any fun i => id ∈ (p.threads i).held := by
  obtain ⟨p, hrun⟩ : ∃ p, run 1 init [.acquire 0 7, .lock 0 (.connects false) false] = some p := ⟨_, rfl⟩
  have hp := Reachable.init.run hrun
  refine ⟨p, hp, by cases hrun; rfl, inUseConnectionCount_eq_held hp (fun i hi => ?_) 7⟩
  cases hrun
  by_contra h0
  simp [acquirePass, scan, connectionsFor, lookup, init, setThread, Function.update_apply] at h0 hi
  exact hi (by simp [h0])

/-- On every reachable pool, `in_use_connection_count(address)` is at most
`max_connection_pool_size` (unless that is `-1`): the connections it counts are in the address's
deque, which never holds more. -/
theorem inUseConnectionCount_le (h : Reachable maxSize p) (hm : maxSize ≠ -1) (a : Nat) :
    (p.inUseConnectionCount a : Int) ≤ max maxSize 0 := by
  unfold inUseConnectionCount
  cases p.lookup a with
  | none => simp
  | some d =>
    calc (((p.deques d).countP fun id => (p.conns id).inUse : Nat) : Int)
        ≤ (p.deques d).length := by exact_mod_cast List.countP_le_length _
      _ ≤ max maxSize 0 := (dequesBounded_of_reachable h).length_le hm d

/-- Thread `0` acquires a connection to address `7` in a pool of at most one connection: the one
connection in use is the bound. -/
theorem inUseConnectionCount_le_acquired : ∃ p : ConnectionPool, p.Reachable 1 ∧ (1 : Int) ≠ -1 ∧
    p.inUseConnectionCount 7 = 1 ∧ (p.inUseConnectionCount 7 : Int) ≤ max 1 0 := by
  obtain ⟨p, hrun⟩ : ∃ p, run 1 init [.acquire 0 7, .lock 0 (.connects false) false] = some p := ⟨_, rfl⟩
  have hp := Reachable.init.run hrun
  exact ⟨p, hp, by decide, by cases hrun; rfl, inUseConnectionCount_le hp (by decide) 7⟩

end ConnectionPool

end Neobolt
