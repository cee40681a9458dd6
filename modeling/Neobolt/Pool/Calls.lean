import Neobolt.Pool.Closing

/-!
# Runs of pool calls

A thread out of `acquire_direct` calls `deactivate`, `remove` and `close` in turn.
`PoolState.runCalls` runs the calls on the connections' own states, with the nested `deactivate`
that a failing `GOODBYE` makes; `Pool.Model` runs the same calls as atomic steps of the thread.
When every open connection's `close()` returns, the two runs agree after every call, so that what
`Pool.Safety` and `Pool.Holding` prove of the atomic pool holds of the pool the run leaves.

## Main definitions

* `PoolCall`, `PoolCall.toStep`: a call of `deactivate`, `remove` or `close`, and its step.
* `PoolState.runCalls`: the calls in turn, threading `_closed` through `close()`.
* `PoolState.ClosesCleanly`: every open connection's `close()` returns.

## Main results

* `PoolState.runCalls_refines`: from a reachable pool, a run of calls on the connections' own
  states returns, and stands for the run of the same calls as steps of `Pool.Model`.
-/

namespace Neobolt

/-- A call of a pool method that closes connections. -/
inductive PoolCall where
  | deactivate (address : Nat)
  | remove (address : Nat)
  | close

/-- The call as a step of thread `i` of `Pool.Model`. -/
def PoolCall.toStep (i : Nat) : PoolCall → PoolStep
  | .deactivate a => .deactivate i a []
  | .remove a => .remove i a []
  | .close => .close i []

namespace PoolState

variable (codec : Codec)

/-- Run the calls in turn, each with `fuel` levels of nesting; `closed` is `_closed`, which
`close()` reads and sets. -/
def runCalls (fuel : Nat) : List PoolCall → Bool → PoolM Bool
  | [], closed => pure closed
  | .deactivate a :: calls, closed => do
    deactivate codec fuel a
    runCalls fuel calls closed
  | .remove a :: calls, closed => do
    remove codec fuel a
    runCalls fuel calls closed
  | .close :: calls, closed => do
    let closed ← close codec fuel closed
    runCalls fuel calls closed

/-- Every open connection's `close()` returns. -/
def ClosesCleanly (s : PoolState) : Prop :=
  ∀ id, (s.conns id).closed = false → ∃ c', Connection.close codec (s.conns id) = .ok () c'

variable {codec} {s : PoolState}

/-- A run is its first call, then the rest from the `_closed` that call leaves. -/
theorem runCalls_cons (fuel : Nat) (call : PoolCall) (calls : List PoolCall) (closed : Bool) :
    runCalls codec fuel (call :: calls) closed =
      runCalls codec fuel [call] closed >>= runCalls codec fuel calls := by
  cases call <;> simp [runCalls]

theorem ClosesCleanly.close (h : ClosesCleanly codec s) (id : Nat) :
    ∃ c', Connection.close codec (s.conns id) = .ok () c' := by
  cases hc : (s.conns id).closed
  · exact h id hc
  · exact ⟨_, Connection.close_of_closed codec hc⟩

/-- A call that leaves each connection as it was, or closed, keeps every open connection's
`close()` returning. -/
theorem ClosesCleanly.frame (h : ClosesCleanly codec s) {s' : PoolState}
    (hf : ∀ id, s'.conns id = s.conns id ∨ (s'.conns id).closed = true) :
    ClosesCleanly codec s' := fun id hid => by
  rcases hf id with he | he
  · rw [he] at hid ⊢
    exact h id hid
  · simp [he] at hid

/-- One call: the concrete call returns, and the pool it leaves stands for the thread's step, with
the connections as they were or closed. -/
theorem call_refines {maxSize : Int} {p : ConnectionPool} (hp : p.Reachable maxSize)
    (hr : Refines s p) {i : Nat} (hi : (p.threads i).phase = .idle) (hc : ClosesCleanly codec s)
    (call : PoolCall) (fuel : Nat) :
    ∃ q s', ConnectionPool.step maxSize p (call.toStep i) = some q ∧
      runCalls codec (fuel + 1) [call] p.closed s = .ok q.closed s' ∧ Refines s' q ∧
      ∀ id, s'.conns id = s.conns id ∨ (s'.conns id).closed = true := by
  have hnd := (ConnectionPool.dequesBounded_of_reachable hp).nodup
  cases call with
  | deactivate a =>
    obtain ⟨s', h, hr', hf⟩ := deactivate_refines_of_nodup hnd hr (a := a)
      (fun _ _ id _ _ => hc.close id) fuel
    exact ⟨_, s', by simp [PoolCall.toStep, ConnectionPool.step, hi],
      by simp [runCalls, EStateM.bind_apply, h, EStateM.pure_apply], hr', hf⟩
  | remove a =>
    obtain ⟨s', h, hr', hf⟩ := remove_refines_of_nodup hnd hr (a := a) (fun _ _ id _ => hc.close id) fuel
    exact ⟨_, s', by simp [PoolCall.toStep, ConnectionPool.step, hi],
      by simp [runCalls, EStateM.bind_apply, h, EStateM.pure_apply], hr', hf⟩
  | close =>
    obtain ⟨s', h, hr', hf⟩ := close_refines_of_nodup hnd hr (fun _ _ _ id _ => hc.close id) fuel
    exact ⟨_, s', by simp [PoolCall.toStep, ConnectionPool.step, hi],
      by simp [runCalls, EStateM.bind_apply, h, EStateM.pure_apply], hr', hf⟩

/-- From a reachable pool of `Pool.Model` whose open connections all close cleanly, a thread out of
`acquire_direct` that calls `deactivate`, `remove` and `close` in any order and number gets each
call back, and the pool the run leaves stands for the pool of the same calls made as atomic steps
of `Pool.Model`: the re-entrant calls of the code add nothing to the atomic model's run. -/
theorem runCalls_refines {maxSize : Int} {p : ConnectionPool} (hp : p.Reachable maxSize)
    (hr : Refines s p) {i : Nat} (hi : (p.threads i).phase = .idle) (hc : ClosesCleanly codec s)
    (calls : List PoolCall) (fuel : Nat) :
    ∃ q s', ConnectionPool.run maxSize p (calls.map (PoolCall.toStep i)) = some q ∧
      runCalls codec (fuel + 1) calls p.closed s = .ok q.closed s' ∧ Refines s' q := by
  induction calls generalizing p s with
  | nil => exact ⟨p, s, rfl, rfl, hr⟩
  | cons call calls ih =>
    obtain ⟨q1, s1, hs, h1, hr1, hf⟩ := call_refines hp hr hi hc call fuel
    -- the call leaves thread `i` out of `acquire_direct`
    have hi1 : (q1.threads i).phase = .idle := by
      cases call <;> simp only [PoolCall.toStep, ConnectionPool.step, hi, if_true,
        Option.some.injEq] at hs <;> subst hs
      · rwa [(ConnectionPool.tidies_deactivate p _ _).threads]
      · rwa [(ConnectionPool.tidies_remove p _ _).threads]
      · rwa [(ConnectionPool.tidies_close p _).threads]
    obtain ⟨q, s', hq, h', hr'⟩ := ih (hp.step hs) hr1 hi1 (hc.frame hf)
    exact ⟨q, s', by simp [ConnectionPool.run, hs, hq],
      by rw [runCalls_cons, EStateM.bind_apply_of_ok h1, h'], hr'⟩

/-- Thread `0` of the pool of `exists_reachable_oneIdle`, with its connection in the state of
`Connection.sample`, calls `deactivate(7)`, `remove(7)` and `close()`. -/
theorem runCalls_refines_oneIdle : ∃ p : ConnectionPool, p.Reachable 1 ∧ ∃ q s',
    ConnectionPool.run 1 p ([.deactivate 7, .remove 7, .close].map (PoolCall.toStep 0)) = some q ∧
    runCalls Codec.sample 1 [.deactivate 7, .remove 7, .close] p.closed
      (ofPool p (fun _ => Connection.sample true [] []) fun _ => 7) = .ok q.closed s' ∧
    Refines s' q := by
  obtain ⟨p, hp, -, -, -, hi, -, hcl⟩ := exists_reachable_oneIdle
  exact ⟨p, hp, runCalls_refines hp (refines_ofPool _ hcl) hi (fun _ _ => close_sample) _ 0⟩

end PoolState

end Neobolt
