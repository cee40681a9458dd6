import Neobolt.Pool.Closing

/-!
# Each deque holds connections of its own address, and what `close()` leaves

`acquire_direct` looks up the deque of its address, or puts a new one in the dictionary under it,
and appends the connections it creates there; a call that waits keeps that deque. No method moves a
connection from one deque to another, and the dictionary only ever gains new deques. So over every
interleaving each deque belongs to one address: the dictionary maps an address to a deque of its
own, a waiting call waits on a deque of its address, and every connection of a deque was created
for that address.

This is what `PoolState.Closable` asks of a pool besides its connections' `close()`, so `close()`
returns and empties the dictionary from every open pool the interleavings reach. A closed pool
stays closed and refuses every call of `acquire_direct` that starts after it; but `closed()` is
read before the lock is taken, so a call already past it puts a new connection in the closed pool.

## Main definitions

* `ConnectionPool.Owned`: the deques belong to addresses as a function `owner` says.
* `ConnectionPool.Keeps`: what every step but the passes of `acquire_direct` keeps.

## Main results

* `ConnectionPool.deque_addresses`: on every reachable pool, the deque of an address, in the
  dictionary or kept by a waiting call, holds connections to that address only, and no two
  addresses share a deque.
* `PoolState.close_returns_of_reachable`: from every reachable open pool, `close()` returns and
  empties the dictionary, whichever `GOODBYE`s fail with `OSError`.
* `ConnectionPool.closed_pool_refuses_new_calls`: once the pool is closed, a thread out of
  `acquire_direct` gets no connection from it again.
-/

namespace Neobolt

namespace ConnectionPool

/-- The deques belong to addresses as `owner` says: the dictionary maps an address to a deque of
its own, a waiting call waits on a deque of its address, every connection of a deque has the
deque's address, and the deques from `nextDeque` on are unused. -/
structure Owned (p : ConnectionPool) (owner : Nat → Nat) : Prop where
  lookup : ∀ a d, p.lookup a = some d → owner d = a ∧ d < p.nextDeque
  waiting : ∀ i a d, (p.threads i).phase = .waiting a d → owner d = a ∧ d < p.nextDeque
  address : ∀ d, ∀ id ∈ p.deques d, (p.conns id).address = owner d
  fresh : ∀ d, p.nextDeque ≤ d → p.deques d = []

/-- What a step keeps unless it adds a deque or a connection: no new address in the dictionary,
no new deque, no new waiting call, deques that only lose connections, and every connection's
address. -/
structure Keeps (p q : ConnectionPool) : Prop where
  lookup : ∀ a d, q.lookup a = some d → p.lookup a = some d
  nextDeque : q.nextDeque = p.nextDeque
  waiting : ∀ i a d, (q.threads i).phase = .waiting a d → (p.threads i).phase = .waiting a d
  deques : ∀ d, (q.deques d).Sublist (p.deques d)
  address : ∀ id, (q.conns id).address = (p.conns id).address

variable {p q r : ConnectionPool} {owner : Nat → Nat} {maxSize : Int} {s : PoolStep}

theorem owned_init : Owned init fun _ => 0 where
  lookup _ _ h := by simp [lookup, init] at h
  waiting _ _ _ h := by simp [init] at h
  address _ _ h := by simp [init] at h
  fresh _ _ := rfl

theorem Keeps.trans (h : Keeps p q) (h' : Keeps q r) : Keeps p r :=
  ⟨fun a d hd => h.lookup a d (h'.lookup a d hd), h'.nextDeque.trans h.nextDeque,
    fun i a d hw => h.waiting i a d (h'.waiting i a d hw), fun d => (h'.deques d).trans (h.deques d),
    fun id => (h'.address id).trans (h.address id)⟩

theorem Owned.keeps (h : Owned p owner) (hk : Keeps p q) : Owned q owner where
  lookup a d hd := by rw [hk.nextDeque]; exact h.lookup a d (hk.lookup a d hd)
  waiting i a d hw := by rw [hk.nextDeque]; exact h.waiting i a d (hk.waiting i a d hw)
  address d id hid := (hk.address id).trans (h.address d id ((hk.deques d).subset hid))
  fresh d hd := List.sublist_nil.mp (h.fresh d (hk.nextDeque ▸ hd) ▸ hk.deques d)

/-! ## The steps that keep the deques' owners -/

theorem keeps_of_tidies (ht : Tidies p q) (hl : ∀ a d, q.lookup a = some d → p.lookup a = some d)
    (hn : q.nextDeque = p.nextDeque) : Keeps p q :=
  ⟨hl, hn, fun _ _ _ hw => ht.threads ▸ hw, ht.deques, fun id => by rcases ht.conns id with h | h <;> rw [h]⟩

theorem keeps_remove (p : ConnectionPool) (a : Nat) (fails : List Nat) : Keeps p (p.remove a fails) :=
  keeps_of_tidies (tidies_remove p a fails) (fun _ _ => lookup_of_lookup_remove)
    (remove_nextDeque a fails)

theorem keeps_deactivate (p : ConnectionPool) (a : Nat) (fails : List Nat) :
    Keeps p (p.deactivate a fails) :=
  keeps_of_tidies (tidies_deactivate p a fails) (fun _ _ => lookup_of_lookup_deactivate)
    (deactivate_nextDeque a fails)

theorem keeps_close (p : ConnectionPool) (fails : List Nat) : Keeps p (p.close fails) :=
  keeps_of_tidies (tidies_close p fails) (fun _ _ => lookup_of_lookup_close) (close_nextDeque fails)

theorem keeps_setThread (i : Nat) (t : Thread)
    (ht : ∀ a d, t.phase = .waiting a d → (p.threads i).phase = .waiting a d) :
    Keeps p (p.setThread i t) :=
  ⟨fun _ _ h => h, rfl, fun j a d hw => by
    simp only [setThread, Function.update_apply] at hw
    split at hw
    · subst j; exact ht a d hw
    · exact hw, fun _ => .refl _, fun _ => rfl⟩

theorem keeps_setConn (id : Nat) (c : PooledConnection) (hc : c.address = (p.conns id).address) :
    Keeps p (p.setConn id c) :=
  ⟨fun _ _ h => h, rfl, fun _ _ _ hw => hw, fun _ => .refl _, fun x => by
    simp only [setConn, Function.update_apply]
    split
    · subst x; exact hc
    · rfl⟩

theorem keeps_release (i id : Nat) : Keeps p (p.release i id) :=
  (keeps_setConn id { p.conns id with inUse := false } rfl).trans
    (keeps_setThread i ⟨(p.threads i).phase, (p.threads i).held.erase id⟩ fun _ _ hw => hw)

theorem keeps_scan (p : ConnectionPool) (d : Nat) :
    Keeps p { p with deques := Function.update p.deques d (scan p.conns (p.deques d)).1 } :=
  keeps_of_tidies (tidies_scan p d) (fun _ _ h => h) rfl

/-! ## The steps that add a deque or a connection -/

theorem Owned.setThread (h : Owned p owner) (i : Nat) (t : Thread)
    (ht : ∀ a d, t.phase = .waiting a d → owner d = a ∧ d < p.nextDeque) :
    Owned (p.setThread i t) owner where
  lookup := h.lookup
  waiting j a d hw := by
    simp only [ConnectionPool.setThread, Function.update_apply] at hw
    split at hw
    · exact ht a d hw
    · exact h.waiting j a d hw
  address := h.address
  fresh := h.fresh

/-- The lookup of `acquire_direct`: the deque it gets belongs to its address, in a new owner map
when the deque is new. -/
theorem Owned.connectionsFor (h : Owned p owner) (a : Nat) :
    ∃ owner', Owned (p.connectionsFor a).1 owner' ∧ owner' (p.connectionsFor a).2 = a ∧
      (p.connectionsFor a).2 < (p.connectionsFor a).1.nextDeque := by
  unfold ConnectionPool.connectionsFor
  split
  next d hd => exact ⟨owner, h, (h.lookup a d hd).1, (h.lookup a d hd).2⟩
  next hd =>
    -- a new deque, owned by `a`; every deque in use is below it
    refine ⟨Function.update owner p.nextDeque a, ⟨fun b d hb => ?_, fun i b d hw => ?_,
      fun d id hid => ?_, fun d hd' => h.fresh d (by dsimp only at hd'; omega)⟩, by simp, by simp⟩
    · simp only [ConnectionPool.lookup, List.lookup_append] at hb
      cases hpb : p.connections.lookup b with
      | some d' =>
        obtain ⟨ho, hlt⟩ := h.lookup b d' hpb
        simp only [hpb, Option.or_some, Option.some.injEq] at hb
        subst hb
        exact ⟨by rw [Function.update_noteq (by omega), ho], by dsimp only; omega⟩
      | none =>
        simp only [hpb, Option.none_or] at hb
        by_cases hba : b = a
        · subst hba
          simp only [List.lookup_cons, beq_self_eq_true, List.lookup_nil, Option.some.injEq] at hb
          subst hb
          exact ⟨by simp, by dsimp only; omega⟩
        · simp [List.lookup_cons, beq_false_of_ne hba] at hb
    · obtain ⟨ho, hlt⟩ := h.waiting i b d hw
      exact ⟨by rw [Function.update_noteq (by omega), ho], by dsimp only; omega⟩
    · have hlt : d < p.nextDeque := by
        by_contra hge
        rw [h.fresh d (by omega)] at hid
        cases hid
      rw [Function.update_noteq (by omega)]
      exact h.address d id hid

/-- A pass of `acquire_direct` leaves its thread out of the call, or waiting on the deque it
scanned. -/
theorem acquirePass_phase (maxSize : Int) (i a d : Nat) (cn : ConnectorOutcome) (ex : Bool) :
    ((p.acquirePass maxSize i a d cn ex).threads i).phase = .idle ∨
      ((p.acquirePass maxSize i a d cn ex).threads i).phase = .waiting a d := by
  unfold acquirePass
  dsimp only
  split
  · simp [ConnectionPool.setThread]
  · split
    · split <;> simp [ConnectionPool.setThread]
    · split <;> simp [ConnectionPool.setThread]

/-- One pass of `acquire_direct` on a deque of its address: the connection it creates has the
deque's address, and a call that waits keeps the deque. -/
theorem Owned.acquirePass (h : Owned p owner) (hlt : ∀ d, ∀ id ∈ p.deques d, id < p.produced)
    {i a d : Nat} (ha : owner d = a) (hd : d < p.nextDeque) (cn : ConnectorOutcome) (ex : Bool) :
    Owned (p.acquirePass maxSize i a d cn ex) owner := by
  have hs := keeps_scan p d
  have hph := acquirePass_phase (p := p) maxSize i a d cn ex
  rcases acquirePass_cases (p := p) maxSize i a d cn ex rfl with
    ⟨id, -, hq⟩ | ⟨fails, -, hq⟩ | ⟨t, -, -, hq⟩ | ⟨ph, hq⟩ <;> rw [hq] at hph ⊢
  · -- a free connection from the deque
    exact h.keeps ((hs.trans (keeps_setConn id _ (by rfl))).trans
      (keeps_setThread i _ fun _ _ hw => by cases hw))
  · exact h.keeps ((hs.trans (keeps_remove _ a fails)).trans
      (keeps_setThread i _ fun _ _ hw => by cases hw))
  · -- a new connection, of the deque's address
    refine ⟨h.lookup, fun j b d' hw => ?_, fun d' id hid => ?_, fun d' hd' => ?_⟩
    · simp only [Function.update_apply] at hw
      split at hw
      · cases hw
      · exact h.waiting j b d' hw
    · simp only [Function.update_apply] at hid ⊢
      split at hid
      · subst d'
        rcases List.mem_append.mp hid with hk | hk
        · have hmem := (scan_sublist _ _).subset hk
          rw [if_neg (ne_of_lt (hlt d id hmem))]
          exact h.address d id hmem
        · obtain rfl : id = p.produced := by simpa using hk
          simp [ha]
      · rw [if_neg (ne_of_lt (hlt d' id hid))]
        exact h.address d' id hid
    · simp only [Function.update_apply]
      rw [if_neg (by dsimp only at hd'; omega)]
      exact h.fresh d' hd'
  · -- the call waits on the deque, or gives up
    refine (h.keeps hs).setThread i _ fun b d' hw => ?_
    simp only [ConnectionPool.setThread, Function.update_same] at hph
    rcases hph with hph | hph <;> rw [hph] at hw <;> cases hw
    exact ⟨ha, hd⟩

theorem Owned.step (h : Owned p owner) (hx : Exclusive p) (hs : step maxSize p s = some q) :
    ∃ owner', Owned q owner' := by
  have hentered (a : Nat) (held : List Nat) (i : Nat) : ∀ b d,
      (Thread.mk (.entered a) held).phase = .waiting b d → (p.threads i).phase = .waiting b d :=
    fun _ _ hw => by cases hw
  cases s <;> simp only [ConnectionPool.step, Option.ite_none_right_eq_some, Option.some.injEq] at hs
  case acquire i a =>
    obtain ⟨-, hs⟩ := hs
    split_ifs at hs <;> cases hs
    exacts [⟨owner, h⟩, ⟨owner, h.keeps (keeps_setThread i _ (hentered a _ i))⟩]
  case lock i cn ex =>
    split at hs <;> cases hs
    next a _ =>
      obtain ⟨owner', ho, ha, hd⟩ := h.connectionsFor a
      exact ⟨owner', ho.acquirePass (by simpa using hx.deque_lt) ha hd cn ex⟩
  case wake i late cn ex =>
    split at hs
    next a d hw =>
      split_ifs at hs <;> cases hs
      · exact ⟨owner, h.keeps (keeps_setThread i _ fun _ _ hw' => by cases hw')⟩
      · exact ⟨owner, h.acquirePass hx.deque_lt (h.waiting i a d hw).1 (h.waiting i a d hw).2 cn ex⟩
    · cases hs
  case release i id => exact ⟨owner, hs.2 ▸ h.keeps (keeps_release i id)⟩
  case deactivate i a fails => exact ⟨owner, hs.2 ▸ h.keeps (keeps_deactivate p a fails)⟩
  case remove i a fails => exact ⟨owner, hs.2 ▸ h.keeps (keeps_remove p a fails)⟩
  case close i fails => exact ⟨owner, hs.2 ▸ h.keeps (keeps_close p fails)⟩
  case closeConnection id => exact ⟨owner, hs.2 ▸ h.keeps (keeps_setConn id _ rfl)⟩
  case setDefunct id => exact ⟨owner, hs.2 ▸ h.keeps (keeps_setConn id _ rfl)⟩
  case timeOut id => exact ⟨owner, hs.2 ▸ h.keeps (keeps_setConn id _ rfl)⟩

theorem owned_of_reachable (h : Reachable maxSize p) : ∃ owner, Owned p owner := by
  induction h with
  | init => exact ⟨_, owned_init⟩
  | step hp hs ih =>
    obtain ⟨owner, ho⟩ := ih
    exact ho.step (exclusive_of_reachable hp) hs

/-- On every reachable pool, the deque the dictionary gives an address, and the deque a waiting
call of `acquire_direct` keeps for its address, hold connections to that address only; and no
two addresses share a deque. -/
theorem deque_addresses (h : Reachable maxSize p) :
    (∀ a d, p.lookup a = some d → ∀ id ∈ p.deques d, (p.conns id).address = a) ∧
    (∀ i a d, (p.threads i).phase = .waiting a d → ∀ id ∈ p.deques d, (p.conns id).address = a) ∧
    ∀ a b d, p.lookup a = some d → p.lookup b = some d → a = b := by
  obtain ⟨owner, ho⟩ := owned_of_reachable h
  refine ⟨fun a d hd id hid => ?_, fun i a d hw id hid => ?_, fun a b d ha hb => ?_⟩
  · rw [ho.address d id hid, (ho.lookup a d hd).1]
  · rw [ho.address d id hid, (ho.waiting i a d hw).1]
  · rw [← (ho.lookup a d ha).1, (ho.lookup b d hb).1]

/-- The pool of `exists_reachable_oneIdle`: its one connection, in the deque of address `7`, was
made for `7`. -/
theorem deque_addresses_oneIdle : ∃ p : ConnectionPool, p.Reachable 1 ∧ p.lookup 7 = some 0 ∧
    p.deques 0 = [0] ∧ (p.conns 0).address = 7 := by
  obtain ⟨p, hp, hl, hd, -⟩ := PoolState.exists_reachable_oneIdle
  exact ⟨p, hp, hl, hd, (deque_addresses hp).1 7 0 hl 0 (by simp [hd])⟩

/-! ## What `close()` keeps and what it does not -/

@[simp]
theorem connectionsFor_closed (a : Nat) : (p.connectionsFor a).1.closed = p.closed := by
  unfold ConnectionPool.connectionsFor; split <;> rfl

@[simp]
theorem acquirePass_closed (i a d : Nat) (cn : ConnectorOutcome) (ex : Bool) :
    (p.acquirePass maxSize i a d cn ex).closed = p.closed := by
  rcases acquirePass_cases (p := p) maxSize i a d cn ex rfl with
    ⟨id, -, hq⟩ | ⟨fails, -, hq⟩ | ⟨t, -, -, hq⟩ | ⟨ph, hq⟩ <;> rw [hq]
  all_goals simp [ConnectionPool.setThread, setConn]

/-- On a closed pool, a step keeps the pool closed, and a thread out of `acquire_direct` stays out
of it, with no connection it did not hold: the `closed()` check refuses its next call. -/
theorem step_of_closed (hc : p.closed = true) (hs : step maxSize p s = some q) :
    q.closed = true ∧ ∀ i, (p.threads i).phase = .idle →
      (q.threads i).phase = .idle ∧ (q.threads i).held ⊆ (p.threads i).held := by
  have hkeep {r : ConnectionPool} (ht : Tidies p r) (hrc : r.closed = true) :
      r.closed = true ∧ ∀ i, (p.threads i).phase = .idle →
        (r.threads i).phase = .idle ∧ (r.threads i).held ⊆ (p.threads i).held :=
    ⟨hrc, fun i hi => by rw [ht.threads]; exact ⟨hi, List.Subset.refl _⟩⟩
  -- a pass of `acquire_direct` of another thread leaves thread `i` alone
  have hpass {j : Nat} {r : ConnectionPool} (hr : r.threads = p.threads) (hrc : r.closed = true)
      (hj : ∀ i, (p.threads i).phase = .idle → i ≠ j) (a d : Nat) (cn : ConnectorOutcome) (ex : Bool) :
      (r.acquirePass maxSize j a d cn ex).closed = true ∧ ∀ i, (p.threads i).phase = .idle →
        ((r.acquirePass maxSize j a d cn ex).threads i).phase = .idle ∧
        ((r.acquirePass maxSize j a d cn ex).threads i).held ⊆ (p.threads i).held := by
    obtain ⟨t, ht⟩ : ∃ t, (r.acquirePass maxSize j a d cn ex).threads = Function.update r.threads j t :=
      acquirePass_threads j a d cn ex
    refine ⟨by rw [acquirePass_closed, hrc], fun i hi => ?_⟩
    rw [ht, Function.update_noteq (hj i hi), hr]
    exact ⟨hi, List.Subset.refl _⟩
  cases s <;> simp only [step, Option.ite_none_right_eq_some, Option.some.injEq] at hs
  case acquire j a =>
    -- the `closed()` check raises `ServiceUnavailable`
    obtain ⟨-, hs⟩ := hs
    simp only [hc, if_true, Option.some.injEq] at hs
    exact hs ▸ hkeep (.refl p) hc
  case lock j cn ex =>
    split at hs
    next a hph =>
      cases hs
      exact hpass (tidies_connectionsFor p a).threads (by rw [connectionsFor_closed, hc])
        (fun i hi h => by rw [h, hph] at hi; cases hi) a _ cn ex
    · cases hs
  case wake j late cn ex =>
    split at hs
    next a d hph =>
      have hj : ∀ i, (p.threads i).phase = .idle → i ≠ j := fun i hi h => by
        rw [h, hph] at hi; cases hi
      split_ifs at hs <;> cases hs
      · refine ⟨hc, fun i hi => ?_⟩
        simp only [ConnectionPool.setThread, Function.update_noteq (hj i hi)]
        exact ⟨hi, List.Subset.refl _⟩
      · exact hpass rfl hc hj a d cn ex
    · cases hs
  case release j id =>
    obtain ⟨-, rfl⟩ := hs
    refine ⟨hc, fun i hi => ⟨?_, ?_⟩⟩
    · simp only [release, ConnectionPool.setThread, Function.update_apply]
      split
      · subst i; exact hi
      · exact hi
    · rw [release_held]
      split
      · subst i; exact List.erase_subset _ _
      · exact List.Subset.refl _
  case deactivate j a fails =>
    exact hs.2 ▸ hkeep (tidies_deactivate p a fails) (by rw [deactivate_closed, hc])
  case remove j a fails =>
    exact hs.2 ▸ hkeep (tidies_remove p a fails) (by rw [remove_closed, hc])
  case close j fails => exact hs.2 ▸ hkeep (tidies_close p fails) (close_closed fails)
  all_goals
    obtain ⟨-, rfl⟩ := hs
    exact ⟨hc, fun i hi => ⟨hi, List.Subset.refl _⟩⟩

/-- Once the pool is closed, every later call of `acquire_direct` by a thread that is out of it is
refused at the `closed()` check: whatever steps follow, the pool stays closed, the thread stays out
of `acquire_direct`, and it is handed no connection. Only the calls already past the check are
served: such a call puts a new, open connection in the closed pool, which no later `close()`
closes. -/
theorem closed_pool_refuses_new_calls (hc : p.closed = true) {i : Nat}
    (hi : (p.threads i).phase = .idle) {l : List PoolStep} (hr : run maxSize p l = some q) :
    q.closed = true ∧ (q.threads i).phase = .idle ∧ (q.threads i).held ⊆ (p.threads i).held :=
  run_invariant (P := fun r => r.closed = true ∧ (r.threads i).phase = .idle ∧
      (r.threads i).held ⊆ (p.threads i).held) (fun _ _ _ ⟨hc1, hi1, hheld1⟩ hs =>
      have hstep := step_of_closed hc1 hs
      ⟨hstep.1, (hstep.2 i hi1).1, (hstep.2 i hi1).2.trans hheld1⟩)
    ⟨hc, hi, List.Subset.refl _⟩ hr

/-- Thread `0` closes a new pool; the calls of `acquire_direct` of threads `0` and `1` that follow
are refused. -/
theorem closed_pool_refuses_new_calls_closed : ∃ p q : ConnectionPool,
    run 1 init [.close 0 []] = some p ∧ p.closed = true ∧ (p.threads 1).phase = .idle ∧
    run 1 p [.acquire 0 7, .acquire 1 7] = some q ∧
    q.closed = true ∧ (q.threads 1).phase = .idle ∧ (q.threads 1).held ⊆ (p.threads 1).held := by
  obtain ⟨p, hrun⟩ : ∃ p, run 1 init [.close 0 []] = some p := ⟨_, rfl⟩
  obtain ⟨q, hq⟩ : ∃ q, run 1 p [.acquire 0 7, .acquire 1 7] = some q := by
    cases hrun; exact ⟨_, rfl⟩
  have hc : p.closed = true := by cases hrun; rfl
  have hi : (p.threads 1).phase = .idle := by cases hrun; rfl
  exact ⟨p, q, hrun, hc, hi, hq, closed_pool_refuses_new_calls hc hi hq⟩


end ConnectionPool

namespace PoolState

variable {codec : Codec}

/-- From every reachable pool that is open, with each connection of the dictionary in a state whose
`close()` returns or raises `OSError`, `close()` returns and leaves no address in the dictionary. -/
theorem close_returns_of_reachable {maxSize : Int} {p : ConnectionPool} (hp : p.Reachable maxSize)
    (hopen : p.closed = false) (conns : Nat → Connection)
    (hc : ∀ a d, p.lookup a = some d → ∀ id ∈ p.deques d, ∃ c',
      Connection.close codec (conns id) = .ok () c' ∨
        Connection.close codec (conns id) = .error (.raised .ioError) c')
    (fuel : Nat) :
    ∃ s', close codec (fuel + 1) p.closed (ofPool p conns fun id => (p.conns id).address) =
      .ok true s' ∧ ∀ a, s'.lookup a = none := by
  have hown := ConnectionPool.deque_addresses hp
  have hnd := (ConnectionPool.dequesBounded_of_reachable hp).nodup
  rw [hopen]
  exact Closable.close_empties (s := ofPool p conns _) ⟨fun _ d _ => hnd d, hown.1, hc⟩ fuel

/-- `close()` of the pool of `exists_reachable_oneIdle`, its connection in the state of
`Connection.sample`. -/
theorem close_returns_of_reachable_oneIdle : ∃ p : ConnectionPool, p.Reachable 1 ∧
    p.closed = false ∧ ∃ s', close Codec.sample 1 p.closed
      (ofPool p (fun _ => Connection.sample true [] []) fun id => (p.conns id).address) =
        .ok true s' ∧ ∀ a, s'.lookup a = none := by
  obtain ⟨p, hp, -, -, -, -, hopen, -⟩ := exists_reachable_oneIdle
  obtain ⟨c', hc⟩ := close_sample
  exact ⟨p, hp, hopen, close_returns_of_reachable hp hopen _ (fun _ _ _ _ _ => ⟨c', .inl hc⟩) 0⟩

end PoolState

end Neobolt
