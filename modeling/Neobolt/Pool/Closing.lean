import Neobolt.Pool.Reentry

/-!
# Closing the pool

`close()` sets `_closed` and calls `remove(address)` for each address of `list(self.connections)`,
a copy of the dictionary's keys taken before the loop. Each `remove` closes the connections of the
deque it pops through `Connection.close`, whose failing `GOODBYE` calls the pool's `deactivate`
back from `send_all`. `PoolState` does not hold `_closed`: `PoolState.close` takes its value and
returns the new one.

## Main results

* `PoolState.close_refines`: when no `close()` raises, `close()` does what the atomic
  `ConnectionPool.close` of `Pool.Model` does, from any reachable pool.
* `PoolState.close_returns`: however many `GOODBYE`s fail, `close()` returns with every address
  removed, since each nested `deactivate` finds its address already popped.
-/

namespace Neobolt

namespace PoolState

variable (codec : Codec)

/-- `close()`: unless `_closed` is set, set it and `remove` each address of
`list(self.connections)`. `PoolState` does not hold `_closed`: its value is passed in, and the new
value returned. -/
def close (fuel : Nat) (closed : Bool) : PoolM Bool := do
  if closed then return true
  let s ← get
  (s.connections.map Prod.fst).forM (remove codec fuel)
  return true

variable {codec} {s t : PoolState}

theorem close_of_open (fuel : Nat) (s : PoolState) :
    close codec fuel false s =
      ((s.connections.map Prod.fst).forM (remove codec fuel) >>= fun _ => pure true) s := by
  simp [close, EStateM.bind_apply, EStateM.get_apply]

/-! ## When no `close()` raises -/

/-- The loop of `close()` over the addresses `l`, when no `close()` raises: each `remove` does what
`ConnectionPool.remove` does, and the connections it leaves closed close again without a word. -/
theorem forM_remove_refines {fuel : Nat} {q : ConnectionPool} (hnd : ∀ d, (q.deques d).Nodup)
    {l : List Nat} (hr : Refines t q)
    (hc : ∀ a ∈ l, ∀ d, t.lookup a = some d → ∀ id ∈ t.deques d,
      ∃ c', Connection.close codec (t.conns id) = .ok () c') :
    ∃ t', l.forM (remove codec (fuel + 1)) t = .ok () t' ∧
      Refines t' (l.foldl (fun q a => q.remove a []) q) ∧
      ∀ id, t'.conns id = t.conns id ∨ (t'.conns id).closed = true := by
  induction l generalizing t q with
  | nil => exact ⟨t, rfl, hr, fun _ => .inl rfl⟩
  | cons a l ih =>
    obtain ⟨t1, h1, hr1, hconns⟩ :=
      remove_refines_of_nodup hnd hr (hc a (List.mem_cons_self a l)) fuel
    obtain ⟨t', h', hr', hconns'⟩ := ih (q := q.remove a []) (by simpa using hnd) hr1
      fun b hb d hd id hid => by
        -- the later addresses keep their deques, whose connections are as before or closed
        have hd' : t.lookup b = some d := by
          rw [hr1.lookup, ConnectionPool.lookup_remove] at hd
          split at hd
          · cases hd
          · rwa [hr.lookup]
        have hid' : id ∈ t.deques d := by
          rwa [hr1.deques, ConnectionPool.remove_deques, ← hr.deques] at hid
        rcases hconns id with h | h
        · rw [h]
          exact hc b (List.mem_cons_of_mem a hb) d hd' id hid'
        · exact ⟨_, Connection.close_of_closed codec h⟩
    refine ⟨t', by rw [List.forM.eq_2, EStateM.bind_apply_of_ok h1, h'], hr', fun id => ?_⟩
    rcases hconns' id with h | h
    · exact h ▸ hconns id
    · exact .inr h

/-- `close()` whose connections' `close()` all return does what the atomic `ConnectionPool.close`
does, on a pool whose deques hold distinct connections; each connection is as it was, or
closed. -/
theorem close_refines_of_nodup {q : ConnectionPool} (hnd : ∀ d, (q.deques d).Nodup)
    (hr : Refines s q)
    (hc : ∀ a d, s.lookup a = some d → ∀ id ∈ s.deques d,
      ∃ c', Connection.close codec (s.conns id) = .ok () c') (fuel : Nat) :
    ∃ s', close codec (fuel + 1) q.closed s = .ok true s' ∧ Refines s' (q.close []) ∧
      ∀ id, s'.conns id = s.conns id ∨ (s'.conns id).closed = true := by
  cases hcl : q.closed
  · obtain ⟨s', h, hr', hconns⟩ := forM_remove_refines (q := { q with closed := true }) hnd
      (l := s.connections.map Prod.fst) ⟨hr.connections, hr.deques, hr.inUse, hr.closed⟩
      fun a _ => hc a
    refine ⟨s', by rw [close_of_open, EStateM.bind_apply_of_ok h]; rfl, ?_, hconns⟩
    simpa [ConnectionPool.close, hcl, hr.connections] using hr'
  · exact ⟨s, rfl, by simpa [ConnectionPool.close, hcl] using hr, fun _ => .inl rfl⟩

/-- From a reachable pool of `Pool.Model`, `close()` whose connections' `close()` all return does
what the atomic `ConnectionPool.close` does: it returns, and the pool it leaves stands for the
atomic step's. -/
theorem close_refines {maxSize : Int} {p : ConnectionPool} (hp : p.Reachable maxSize)
    (hr : Refines s p)
    (hc : ∀ a d, s.lookup a = some d → ∀ id ∈ s.deques d,
      ∃ c', Connection.close codec (s.conns id) = .ok () c') (fuel : Nat) :
    ∃ s', close codec (fuel + 1) p.closed s = .ok true s' ∧ Refines s' (p.close []) :=
  (close_refines_of_nodup (ConnectionPool.dequesBounded_of_reachable hp).nodup hr hc fuel).imp
    fun _ h => ⟨h.1, h.2.1⟩

theorem close_refines_oneIdle : ∃ p : ConnectionPool, p.Reachable 1 ∧
    ∃ s', close Codec.sample 1 p.closed
      (ofPool p (fun _ => Connection.sample true [] []) fun _ => 7) = .ok true s' ∧
      Refines s' (p.close []) := by
  obtain ⟨p, hp, -, -, -, -, -, hcl⟩ := exists_reachable_oneIdle
  exact ⟨p, hp, close_refines hp (refines_ofPool _ hcl) (fun _ _ _ _ _ => close_sample) 0⟩

/-! ## When `GOODBYE`s fail -/

variable (codec) in
/-- Every deque of the dictionary holds distinct connections of its own address, and the `close()`
of each returns or raises `OSError`. -/
structure Closable (s : PoolState) : Prop where
  nodup : ∀ a d, s.lookup a = some d → (s.deques d).Nodup
  address : ∀ a d, s.lookup a = some d → ∀ id ∈ s.deques d, s.addressOf id = a
  closes : ∀ a d, s.lookup a = some d → ∀ id ∈ s.deques d, ∃ c',
    Connection.close codec (s.conns id) = .ok () c' ∨
      Connection.close codec (s.conns id) = .error (.raised .ioError) c'

/-- `remove(address)` on a closable pool returns, pops the address, and leaves the pool closable:
the connections it closes are those of the popped deque, which no other address holds. -/
theorem Closable.remove (h : Closable codec s) (fuel a : Nat) :
    ∃ s', remove codec (fuel + 1) a s = .ok () s' ∧
      (∀ b, s'.lookup b = if b = a then none else s.lookup b) ∧ Closable codec s' := by
  obtain ⟨s', hrun, hcs, hds, -, hao, hout, -⟩ := remove_spec (a := a) (h.nodup a)
    (fun d hd id hid => (h.closes a d hd id hid).imp fun _ h' =>
      h'.imp_right fun h' => ⟨h', h.address a d hd id hid⟩) fuel
  have hl (b : Nat) : s'.lookup b = if b = a then none else s.lookup b := by
    rw [lookup, hcs, lookup_remove_spec]
  -- an address still present is another one, with the deque it had
  have hother {b d : Nat} (hd : s'.lookup b = some d) : b ≠ a ∧ s.lookup b = some d := by
    rw [hl] at hd
    split at hd
    · cases hd
    · exact ⟨‹_›, hd⟩
  refine ⟨s', hrun, hl, ⟨fun b d hd => ?_, fun b d hd id hid => ?_, fun b d hd id hid => ?_⟩⟩
  · exact hds ▸ h.nodup b d (hother hd).2
  · rw [hao]
    exact h.address b d (hother hd).2 id (hds ▸ hid)
  · obtain ⟨hb, hd⟩ := hother hd
    rw [hds] at hid
    rw [hout id fun d' hd' hid' => hb ((h.address b d hd id hid).symm.trans
      (h.address a d' hd' id hid'))]
    exact h.closes b d hd id hid

/-- The loop of `close()` over the addresses `l` on a closable pool returns, with the addresses of
`l` removed and the others as they were. -/
theorem Closable.forM_remove (h : Closable codec t) (fuel : Nat) (l : List Nat) :
    ∃ t', l.forM (PoolState.remove codec (fuel + 1)) t = .ok () t' ∧
      ∀ b, t'.lookup b = if b ∈ l then none else t.lookup b := by
  induction l generalizing t with
  | nil => exact ⟨t, rfl, by simp⟩
  | cons a l ih =>
    obtain ⟨t1, h1, hl1, hc1⟩ := h.remove fuel a
    obtain ⟨t', h', hl'⟩ := ih hc1
    refine ⟨t', by rw [List.forM.eq_2, EStateM.bind_apply_of_ok h1, h'], fun b => ?_⟩
    rw [hl', hl1]
    by_cases hb : b = a <;> simp [hb]

theorem mem_keys_of_lookup {l : List (Nat × Nat)} {b d : Nat} (h : l.lookup b = some d) :
    b ∈ l.map Prod.fst := by
  induction l with
  | nil => cases h
  | cons kv l ih =>
    by_cases hb : b = kv.1
    · simp [hb]
    · rw [List.lookup_cons, beq_false_of_ne hb] at h
      exact List.mem_cons_of_mem _ (ih h)

/-- The body of `close()` on a closable pool returns and pops every address. -/
theorem Closable.close_empties (h : Closable codec s) (fuel : Nat) :
    ∃ s', close codec (fuel + 1) false s = .ok true s' ∧ ∀ a, s'.lookup a = none := by
  obtain ⟨s', hrun, hl⟩ := h.forM_remove fuel (s.connections.map Prod.fst)
  refine ⟨s', by rw [close_of_open, EStateM.bind_apply_of_ok hrun]; rfl, fun a => ?_⟩
  rw [hl]
  split
  · rfl
  · cases hd : s.lookup a with
    | none => rfl
    | some d => exact absurd (mem_keys_of_lookup hd) ‹_›

/-- However many `GOODBYE`s fail, `close()` of an open pool returns and leaves no address in the
dictionary: `remove` pops each address before it closes the address's connections, so the
`deactivate` that a failing `send_all` calls finds the address gone, and the `OSError` is passed
over. Connections whose `GOODBYE` failed stay open. -/
theorem close_returns (h : Closable codec s) (fuel : Nat) :
    ∃ s', close codec (fuel + 1) false s = .ok true s' ∧ ∀ a, s'.lookup a = none :=
  h.close_empties fuel

/-- `close()` of `twoIdle` returns and empties the dictionary, though the `GOODBYE` of connection
`0` fails: its nested `deactivate(7)` finds the address popped. -/
theorem close_returns_twoIdle :
    ∃ s', close Codec.sample 1 false twoIdle = .ok true s' ∧ ∀ a, s'.lookup a = none := by
  obtain ⟨c1, h1, -, -⟩ := closeConnection_of_close Codec.sample (c := twoIdle.conns 0)
    (Outbox.layout_init (by decide) (by decide)) (by decide) ⟨rfl, rfl, rfl⟩ (by decide) rfl rfl
  obtain ⟨o, h2⟩ := Connection.close_of_goodbyeSent Codec.sample (c := twoIdle.conns 1)
    (Outbox.layout_init (by decide) (by decide)) (by decide) ⟨rfl, rfl, rfl⟩ (by decide) rfl
  have hkey {a d : Nat} (hd : twoIdle.lookup a = some d) : a = 7 := by
    by_contra ha
    simp [twoIdle, lookup, List.lookup_cons, beq_false_of_ne ha] at hd
  refine close_returns ⟨fun _ _ _ => by simp [twoIdle], fun _ _ hd _ _ => (hkey hd).symm,
    fun _ _ _ id hid => ?_⟩ 0
  simp only [twoIdle, List.mem_cons, List.mem_singleton, List.not_mem_nil, or_false] at hid
  rcases hid with rfl | rfl
  exacts [⟨c1, .inr h1⟩, ⟨_, .inl h2⟩]

end PoolState

end Neobolt
