import Neobolt.Pool.Model

/-!
# Safety of the connection pool

Three invariants over every interleaving. `Exclusive`: each connection is held by at most one
thread, so `acquire_direct` never hands out a held connection. `DequesBounded`: no deque holds
more than `max_connection_pool_size` connections. `Tracked`: every connection the connector
produced is in the deque of its address, closed, or timed out; it holds as long as no address is
removed while a call of `acquire_direct` waits on its deque, since that call keeps and fills the
deque it looked up, and as long as every `close()` the pool makes returns, since `remove` and
`deactivate` drop a connection whose `close()` raises and leave it open. Each step that lets the
connection's `close()` return keeps a connection already produced so (`TrackedAt.step`) in every
interleaving: only a connection created on a dropped deque escapes.

## Main definitions

* `ConnectionPool.Tidies`: what `remove`, `deactivate` and `close` may change.
* `ConnectionPool.Exclusive`, `ConnectionPool.DequesBounded`, `ConnectionPool.Tracked`: the
  invariants.
* `ConnectionPool.TrackedAt`, `ConnectionPool.DefunctClosed`: one connection is tracked; every
  defunct connection is closed.
* `ConnectionPool.ReachableKeeping`: the interleavings in which every waiting call keeps its deque
  and every `close()` returns.

## Main results

* `ConnectionPool.acquire_exclusive`: a connection is handed out only while no thread holds it.
* `ConnectionPool.pool_tracks_connections`: every connection is tracked, and the deques are
  bounded.
* `ConnectionPool.pool_leaves_open_connections`: a timed-out connection, and one whose `close()`
  raises, leave their deque unclosed.
-/

namespace Neobolt

namespace ConnectionPool

/-- What `remove`, `deactivate` and `close` may change: they close connections, drop addresses
from the dictionary, and drop connections from deques. -/
structure Tidies (p p' : ConnectionPool) : Prop where
  threads : p'.threads = p.threads
  produced : p'.produced = p.produced
  conns : ∀ id, p'.conns id = p.conns id ∨ p'.conns id = { p.conns id with closed := true }
  deques : ∀ d, (p'.deques d).Sublist (p.deques d)

variable {p p' p'' : ConnectionPool}

theorem Tidies.refl (p : ConnectionPool) : Tidies p p :=
  ⟨rfl, rfl, fun _ => .inl rfl, fun _ => .refl _⟩

theorem Tidies.trans (h : Tidies p p') (h' : Tidies p' p'') : Tidies p p'' := by
  refine ⟨h'.threads.trans h.threads, h'.produced.trans h.produced, fun id => ?_,
    fun d => (h'.deques d).trans (h.deques d)⟩
  rcases h.conns id with h1 | h1 <;> rcases h'.conns id with h2 | h2 <;> simp [h1, h2]

theorem Tidies.inUse (h : Tidies p p') (id : Nat) : (p'.conns id).inUse = (p.conns id).inUse := by
  rcases h.conns id with h1 | h1 <;> rw [h1]

theorem tidies_closeAll (p : ConnectionPool) (fails ids : List Nat) :
    Tidies p (p.closeAll fails ids) := by
  refine ⟨rfl, rfl, fun id => ?_, fun _ => .refl _⟩
  simp only [closeAll]
  split
  exacts [.inr rfl, .inl rfl]

theorem tidies_remove (p : ConnectionPool) (address : Nat) (fails : List Nat) :
    Tidies p (p.remove address fails) := by
  unfold remove
  split
  · exact .refl p
  · exact ⟨rfl, rfl, (tidies_closeAll _ _ _).conns, fun _ => .refl _⟩

theorem tidies_deactivate (p : ConnectionPool) (address : Nat) (fails : List Nat) :
    Tidies p (p.deactivate address fails) := by
  unfold deactivate
  split
  · exact .refl p
  · rename_i d _
    have h : Tidies p { p.closeAll fails ((p.deques d).filter fun id => !(p.conns id).inUse) with
        deques := Function.update p.deques d ((p.deques d).filter fun id => (p.conns id).inUse) } :=
      ⟨rfl, rfl, (tidies_closeAll _ _ _).conns, fun d' => by
        by_cases hd : d' = d
        · subst hd; simp
        · simp [hd]⟩
    dsimp only
    split
    · exact h.trans (tidies_remove _ _ _)
    · exact h

theorem tidies_foldl_remove (addresses fails : List Nat) (p : ConnectionPool) :
    Tidies p (addresses.foldl (fun q a => q.remove a fails) p) := by
  induction addresses generalizing p with
  | nil => exact .refl p
  | cons a rest ih => exact (tidies_remove p a fails).trans (ih _)

theorem tidies_close (p : ConnectionPool) (fails : List Nat) : Tidies p (p.close fails) := by
  unfold close
  split
  · exact .refl p
  · exact (⟨rfl, rfl, fun _ => .inl rfl, fun _ => .refl _⟩ : Tidies p { p with closed := true }).trans
      (tidies_foldl_remove _ _ _)

theorem tidies_connectionsFor (p : ConnectionPool) (address : Nat) :
    Tidies p (p.connectionsFor address).1 := by
  unfold connectionsFor
  split
  · exact .refl p
  · exact ⟨rfl, rfl, fun _ => .inl rfl, fun _ => .refl _⟩

/-- The `for` loop of `acquire_direct` only drops connections from the deque it scans. -/
theorem tidies_scan (p : ConnectionPool) (d : Nat) :
    Tidies p { p with deques := Function.update p.deques d (scan p.conns (p.deques d)).1 } :=
  ⟨rfl, rfl, fun _ => .inl rfl, fun d' => by
    simp only [Function.update_apply]
    split
    · subst d'; exact scan_sublist _ _
    · exact .refl _⟩

variable {maxSize : Int} {s : PoolStep} {q : ConnectionPool}

/-- What one pass of `acquire_direct` can do, from `p'`, the state once its `for` loop has dropped
the stale connections of deque `d`: hand thread `i` a free connection, remove the address when the
connector raises `ServiceUnavailable`, hand it a new connection when the deque has room, or leave it
idle or waiting with what it holds. -/
theorem acquirePass_cases (maxSize : Int) (i a d : Nat) (cn : ConnectorOutcome) (ex : Bool)
    (hp : p' = { p with deques := Function.update p.deques d (scan p.conns (p.deques d)).1 }) :
    (∃ id, (scan p.conns (p.deques d)).2 = some id ∧ p.acquirePass maxSize i a d cn ex =
      (p'.setConn id { p.conns id with inUse := true }).setThread i
        ⟨.idle, (p.threads i).held ++ [id]⟩) ∨
    (∃ fails, cn = .unavailable fails ∧
      p.acquirePass maxSize i a d cn ex = (p'.remove a fails).setThread i ⟨.idle, (p.threads i).held⟩) ∨
    (∃ t, cn = .connects t ∧ (maxSize = -1 ∨ ((scan p.conns (p.deques d)).1.length : Int) < maxSize) ∧
      p.acquirePass maxSize i a d cn ex =
        { p' with
          conns := Function.update p.conns p.produced ⟨a, true, false, false, t⟩
          produced := p.produced + 1
          deques := Function.update p.deques d ((scan p.conns (p.deques d)).1 ++ [p.produced])
          threads := Function.update p.threads i ⟨.idle, (p.threads i).held ++ [p.produced]⟩ }) ∨
    ∃ ph, p.acquirePass maxSize i a d cn ex = p'.setThread i ⟨ph, (p.threads i).held⟩ := by
  subst hp
  unfold acquirePass
  dsimp only
  split
  · rename_i id hf
    exact .inl ⟨id, hf, rfl⟩
  · split
    · cases cn with
      | connects t => exact .inr (.inr (.inl ⟨t, rfl, ‹_›, rfl⟩))
      | unavailable fails => exact .inr (.inl ⟨fails, rfl, rfl⟩)
      | raises => exact .inr (.inr (.inr ⟨_, rfl⟩))
    · split <;> exact .inr (.inr (.inr ⟨_, rfl⟩))

/-- A pass of `acquire_direct` changes the state of thread `i` only. -/
theorem acquirePass_threads (i a d : Nat) (cn : ConnectorOutcome) (ex : Bool) :
    ∃ t, (p.acquirePass maxSize i a d cn ex).threads = Function.update p.threads i t := by
  rcases acquirePass_cases (p := p) maxSize i a d cn ex rfl with
    ⟨id, -, hq⟩ | ⟨fails, -, hq⟩ | ⟨t, -, -, hq⟩ | ⟨ph, hq⟩ <;> rw [hq]
  · exact ⟨_, rfl⟩
  · exact ⟨_, by rw [setThread, (tidies_remove _ a fails).threads]⟩
  all_goals exact ⟨_, rfl⟩

/-- A step changes the state of one thread at most. -/
theorem Moves.threads_eq (h : Moves maxSize p q) :
    ∃ i t, q.threads = Function.update p.threads i t := by
  have hkeep : ∀ {q : ConnectionPool}, Tidies p q → ∃ i t, q.threads = Function.update p.threads i t :=
    fun ht => ⟨0, p.threads 0, by rw [ht.threads, Function.update_eq_self]⟩
  cases h with
  | stay => exact hkeep (.refl p)
  | phase i ph => exact ⟨i, _, rfl⟩
  | lock i a cn ex =>
    obtain ⟨t, ht⟩ : ∃ t, ((p.connectionsFor a).1.acquirePass maxSize i a (p.connectionsFor a).2 cn
        ex).threads = Function.update (p.connectionsFor a).1.threads i t :=
      acquirePass_threads i a _ cn ex
    exact ⟨i, t, by rw [ht, (tidies_connectionsFor p a).threads]⟩
  | wake i a d cn ex => exact ⟨i, acquirePass_threads i a d cn ex⟩
  | release i id => exact ⟨i, _, rfl⟩
  | deactivate a fails => exact hkeep (tidies_deactivate p a fails)
  | remove a fails => exact hkeep (tidies_remove p a fails)
  | close fails => exact hkeep (tidies_close p fails)
  | setConn => exact ⟨0, p.threads 0, (Function.update_eq_self 0 p.threads).symm⟩

/-! ## Exclusive holding -/

/-- Each connection is held by at most one thread, at most once; a held connection is in use;
and every connection held or in a deque has been produced. -/
structure Exclusive (p : ConnectionPool) : Prop where
  nodup : ∀ i, (p.threads i).held.Nodup
  disjoint : ∀ i j, i ≠ j → ∀ id ∈ (p.threads i).held, id ∉ (p.threads j).held
  inUse : ∀ i, ∀ id ∈ (p.threads i).held, (p.conns id).inUse = true
  held_lt : ∀ i, ∀ id ∈ (p.threads i).held, id < p.produced
  deque_lt : ∀ d, ∀ id ∈ p.deques d, id < p.produced

theorem exclusive_init : Exclusive init where
  nodup _ := .nil
  disjoint _ _ _ _ h := by simp [init] at h
  inUse _ _ h := by simp [init] at h
  held_lt _ _ h := by simp [init] at h
  deque_lt _ _ h := by simp [init] at h

namespace Exclusive

variable {i id : Nat}

/-- A step that moves no connection into or out of a thread's hands. -/
theorem mono (h : Exclusive p) (hheld : ∀ j, (q.threads j).held = (p.threads j).held)
    (hin : ∀ id, (q.conns id).inUse = (p.conns id).inUse) (hpr : q.produced = p.produced)
    (hd : ∀ d, ∀ id ∈ q.deques d, ∃ d', id ∈ p.deques d') : Exclusive q where
  nodup j := hheld j ▸ h.nodup j
  disjoint j k hjk x hx := by
    rw [hheld] at hx ⊢
    exact h.disjoint j k hjk x hx
  inUse j x hx := by
    rw [hheld] at hx
    rw [hin]
    exact h.inUse j x hx
  held_lt j x hx := by
    rw [hheld] at hx
    rw [hpr]
    exact h.held_lt j x hx
  deque_lt d x hx := by
    obtain ⟨d', hx'⟩ := hd d x hx
    rw [hpr]
    exact h.deque_lt d' x hx'

theorem tidies (h : Exclusive p) (ht : Tidies p q) : Exclusive q :=
  h.mono (fun j => by rw [ht.threads]) ht.inUse ht.produced fun d x hx => ⟨d, (ht.deques d).subset hx⟩

/-- A step that hands thread `i` the connection `id`, which no thread holds. -/
theorem give (h : Exclusive p) (i id : Nat) (hfree : ∀ j, id ∉ (p.threads j).held)
    (hheld : ∀ j, (q.threads j).held =
      if j = i then (p.threads i).held ++ [id] else (p.threads j).held)
    (hin : ∀ x, (q.conns x).inUse = if x = id then true else (p.conns x).inUse)
    (hlt : id < q.produced) (hpr : p.produced ≤ q.produced)
    (hd : ∀ d, ∀ x ∈ q.deques d, x = id ∨ ∃ d', x ∈ p.deques d') : Exclusive q where
  nodup j := by
    rw [hheld]
    split
    · subst j
      exact (h.nodup i).append (List.nodup_singleton id) (by simpa using hfree i)
    · exact h.nodup j
  disjoint j k hjk x hx := by
    rw [hheld] at hx ⊢
    by_cases hj : j = i <;> by_cases hk : k = i <;>
      simp only [hj, hk, if_true, if_false, List.mem_append, List.mem_singleton, not_or] at hx ⊢
    · exact absurd (hj.trans hk.symm) hjk
    · rcases hx with hx | rfl
      · exact h.disjoint i k (hj ▸ hjk) x hx
      · exact hfree k
    · exact ⟨h.disjoint j i (hk ▸ hjk) x hx, fun hxi => hfree j (hxi ▸ hx)⟩
    · exact h.disjoint j k hjk x hx
  inUse j x hx := by
    rw [hin]
    split
    · rfl
    · rw [hheld] at hx
      split at hx
      · subst j
        simp only [List.mem_append, List.mem_singleton] at hx
        exact h.inUse i x (hx.resolve_right ‹_›)
      · exact h.inUse j x hx
  held_lt j x hx := by
    rw [hheld] at hx
    split at hx
    · simp only [List.mem_append, List.mem_singleton] at hx
      rcases hx with hx | rfl
      · exact (h.held_lt i x hx).trans_le hpr
      · exact hlt
    · exact (h.held_lt j x hx).trans_le hpr
  deque_lt d x hx := by
    rcases hd d x hx with rfl | ⟨d', hx'⟩
    · exact hlt
    · exact (h.deque_lt d' x hx').trans_le hpr

theorem release (h : Exclusive p) (hid : id ∈ (p.threads i).held) : Exclusive (p.release i id) where
  nodup j := by
    rw [release_held]
    split
    · exact (h.nodup i).erase id
    · exact h.nodup j
  disjoint j k hjk x hx := by
    simp only [release_held] at hx ⊢
    split at hx <;> split
    · exact absurd (‹j = i›.trans ‹k = i›.symm) hjk
    · exact h.disjoint i k (‹j = i› ▸ hjk) x (List.mem_of_mem_erase hx)
    · exact fun hx' => h.disjoint j i (‹k = i› ▸ hjk) x hx (List.mem_of_mem_erase hx')
    · exact h.disjoint j k hjk x hx
  inUse j x hx := by
    rw [release_held] at hx
    have hne : x ≠ id := by
      split at hx
      · exact ((h.nodup i).mem_erase_iff.mp hx).1
      · rintro rfl
        exact h.disjoint i j (Ne.symm ‹_›) x hid hx
    rw [release_inUse, if_neg hne]
    split at hx
    · exact h.inUse i x (List.mem_of_mem_erase hx)
    · exact h.inUse j x hx
  held_lt j x hx := by
    rw [release_held] at hx
    split at hx
    · exact h.held_lt i x (List.mem_of_mem_erase hx)
    · exact h.held_lt j x hx
  deque_lt := h.deque_lt

/-- A step that changes where thread `i` is, and nothing else. -/
theorem setPhase (h : Exclusive p) (i : Nat) (ph : Phase) :
    Exclusive (p.setThread i ⟨ph, (p.threads i).held⟩) :=
  h.mono (fun j => by rw [setThread, held_update]; split <;> simp_all) (fun _ => rfl) rfl
    fun d x hx => ⟨d, hx⟩

theorem acquirePass (h : Exclusive p) (maxSize : Int) (i address d : Nat)
    (connector : ConnectorOutcome) (expired : Bool) :
    Exclusive (p.acquirePass maxSize i address d connector expired) := by
  have h' := h.tidies (tidies_scan p d)
  rcases acquirePass_cases (p := p) maxSize i address d connector expired rfl with
    ⟨id, hf, hq⟩ | ⟨fails, -, hq⟩ | ⟨t, -, -, hq⟩ | ⟨ph, hq⟩ <;> rw [hq]
  · -- a free connection from the deque
    obtain ⟨hmem, hfree, -⟩ := scan_found hf
    refine h'.give i id (fun j hj => ?_) (fun j => held_update _ _ _ _) (fun x => ?_)
      (h.deque_lt d id hmem) le_rfl fun d' x hx => .inr ⟨d', hx⟩
    · cases (h'.inUse j id hj).symm.trans hfree
    · simp only [setThread, setConn, Function.update_apply]
      split <;> rfl
  · -- the connector raised
    have ht := tidies_remove
      { p with deques := Function.update p.deques d (scan p.conns (p.deques d)).1 } address fails
    have := (h'.tidies ht).setPhase i .idle
    rwa [ht.threads] at this
  · -- a new connection
    refine h'.give i p.produced (fun j hj => lt_irrefl _ (h.held_lt j _ hj))
      (fun j => held_update _ _ _ _) (fun x => ?_) (Nat.lt_succ_self _) (Nat.le_succ _)
      fun d' x hx => ?_
    · simp only [Function.update_apply]
      split <;> rfl
    · simp only [Function.update_apply] at hx ⊢
      split at hx
      · subst d'
        simp only [List.mem_append, List.mem_singleton] at hx
        rcases hx with hx | rfl
        · exact .inr ⟨d, by simpa using hx⟩
        · exact .inl rfl
      · exact .inr ⟨d', by simpa [‹¬d' = d›] using hx⟩
  · exact h'.setPhase i ph

theorem step (h : Exclusive p) (hs : step maxSize p s = some q) : Exclusive q := by
  cases moves_of_step hs with
  | stay => exact h
  | phase i ph => exact h.setPhase i ph
  | lock => exact (h.tidies (tidies_connectionsFor _ _)).acquirePass _ _ _ _ _ _
  | wake => exact h.acquirePass _ _ _ _ _ _
  | release i id hid => exact h.release hid
  | deactivate a fails => exact h.tidies (tidies_deactivate _ _ _)
  | remove a fails => exact h.tidies (tidies_remove _ _ _)
  | close fails => exact h.tidies (tidies_close _ _)
  | setConn id c _ hc =>
    refine h.mono (fun _ => rfl) (fun x => ?_) rfl fun d x hx => ⟨d, hx⟩
    simp only [setConn, Function.update_apply]
    split
    · subst x
      rcases hc with rfl | rfl | rfl <;> rfl
    · rfl

end Exclusive

theorem exclusive_of_reachable (h : Reachable maxSize p) : Exclusive p := by
  induction h with
  | init => exact exclusive_init
  | step _ hs ih => exact ih.step hs

/-- A step that hands thread `j` the connection `c`, as only a return of `acquire_direct` does,
happens only while no thread holds `c`: from the return of `c` to a thread until its `release(c)`,
no call of `acquire_direct` returns `c`, whatever the interleaving. -/
theorem acquire_exclusive (h : Reachable maxSize p) (hs : step maxSize p s = some q) {c j : Nat}
    (hget : (p.threads j).held.count c < (q.threads j).held.count c) :
    ∀ k, c ∉ (p.threads k).held := by
  intro k hk
  have hp := exclusive_of_reachable h
  have hq := hp.step hs
  have hcq : c ∈ (q.threads j).held := List.count_pos_iff.mp (by omega)
  by_cases hkj : k = j
  · subst k
    have h1 := List.count_eq_one_of_mem (hp.nodup j) hk
    have h2 := List.nodup_iff_count_le_one.mp (hq.nodup j) c
    omega
  · obtain ⟨i, t, ht⟩ := (moves_of_step hs).threads_eq
    have hji : j = i := by
      by_contra hji
      rw [ht, Function.update_noteq hji] at hget
      exact lt_irrefl _ hget
    have hk' : c ∈ (q.threads k).held := by
      rwa [ht, Function.update_noteq (hji ▸ hkj)]
    exact hq.disjoint k j hkj c hk' hcq

theorem acquire_exclusive_first :
    ∃ p q, Reachable 1 p ∧ step 1 p (.lock 0 (.connects false) false) = some q ∧
      (p.threads 0).held.count 0 < (q.threads 0).held.count 0 ∧ ∀ k, 0 ∉ (p.threads k).held := by
  have hr : Reachable 1 (init.setThread 0 ⟨.entered 0, []⟩) :=
    Reachable.init.step (s := .acquire 0 0) rfl
  exact ⟨_, _, hr, rfl, by decide,
    acquire_exclusive (s := .lock 0 (.connects false) false) (j := 0) hr rfl (by decide)⟩

/-! ## Bounded deques -/

/-- Every deque, in the dictionary or kept by a waiting call, holds at most
`max_connection_pool_size` connections (unless that is `-1`), none twice. -/
structure DequesBounded (maxSize : Int) (p : ConnectionPool) : Prop where
  length_le : maxSize ≠ -1 → ∀ d, ((p.deques d).length : Int) ≤ max maxSize 0
  nodup : ∀ d, (p.deques d).Nodup

namespace DequesBounded

theorem tidies (h : DequesBounded maxSize p) (ht : Tidies p q) : DequesBounded maxSize q where
  length_le hm d := le_trans (by exact_mod_cast (ht.deques d).length_le) (h.length_le hm d)
  nodup d := (ht.deques d).nodup (h.nodup d)

theorem setThread (h : DequesBounded maxSize p) (i : Nat) (t : Thread) :
    DequesBounded maxSize (p.setThread i t) :=
  ⟨h.length_le, h.nodup⟩

theorem acquirePass (h : DequesBounded maxSize p) (hx : Exclusive p) (i a d : Nat) (cn : ConnectorOutcome) (ex : Bool) :
    DequesBounded maxSize (p.acquirePass maxSize i a d cn ex) := by
  have hk := scan_sublist p.conns (p.deques d)
  have h' := h.tidies (tidies_scan p d)
  rcases acquirePass_cases (p := p) maxSize i a d cn ex rfl with
    ⟨id, -, hq⟩ | ⟨fails, -, hq⟩ | ⟨t, -, hroom, hq⟩ | ⟨ph, hq⟩ <;> rw [hq]
  · exact ⟨h'.length_le, h'.nodup⟩
  · exact (h'.tidies (tidies_remove _ _ _)).setThread _ _
  · -- a new connection
    constructor
    · intro hm d'
      simp only [Function.update_apply]
      split
      · have := hroom.resolve_left hm
        simp only [List.length_append, List.length_singleton]
        omega
      · exact h.length_le hm d'
    · intro d'
      simp only [Function.update_apply]
      split
      · refine (hk.nodup (h.nodup d)).append (List.nodup_singleton _) ?_
        simp only [List.disjoint_singleton]
        exact fun hp => lt_irrefl _ (hx.deque_lt d _ (hk.subset hp))
      · exact h.nodup d'
  · exact h'.setThread _ _

theorem step (h : DequesBounded maxSize p) (hx : Exclusive p) (hs : step maxSize p s = some q) :
    DequesBounded maxSize q := by
  cases moves_of_step hs with
  | stay => exact h
  | phase i ph => exact h.setThread i _
  | lock =>
    exact (h.tidies (tidies_connectionsFor _ _)).acquirePass
      (hx.tidies (tidies_connectionsFor _ _)) _ _ _ _ _
  | wake => exact h.acquirePass hx _ _ _ _ _
  | release => exact ⟨h.length_le, h.nodup⟩
  | deactivate a fails => exact h.tidies (tidies_deactivate _ _ _)
  | remove a fails => exact h.tidies (tidies_remove _ _ _)
  | close fails => exact h.tidies (tidies_close _ _)
  | setConn => exact ⟨h.length_le, h.nodup⟩

end DequesBounded

theorem dequesBounded_of_reachable (h : Reachable maxSize p) : DequesBounded maxSize p := by
  induction h with
  | init => exact ⟨fun _ _ => by simp [init], fun _ => .nil⟩
  | step hr hs ih => exact ih.step (exclusive_of_reachable hr) hs

/-- Connection `id` is closed, timed out, or in the deque `connections[address]` of its address. -/
def TrackedAt (p : ConnectionPool) (id : Nat) : Prop :=
  (p.conns id).closed = true ∨ (p.conns id).timedOut = true ∨
    ∃ d, p.lookup (p.conns id).address = some d ∧ id ∈ p.deques d

/-- Every defunct connection is closed, as `_set_defunct` closes it. -/
def DefunctClosed (p : ConnectionPool) : Prop :=
  ∀ id, (p.conns id).defunct = true → (p.conns id).closed = true

/-- Every produced connection is in the deque of its address, closed, or timed out; and a defunct
connection is closed, as `_set_defunct` closes it. -/
structure Tracked (p : ConnectionPool) : Prop where
  tracked : ∀ id < p.produced, (p.conns id).closed = true ∨ (p.conns id).timedOut = true ∨
    ∃ d, p.lookup (p.conns id).address = some d ∧ id ∈ p.deques d
  closed_of_defunct : ∀ id, (p.conns id).defunct = true → (p.conns id).closed = true

/-- Every call waiting in `cond.wait` waits on the deque that `connections[address]` still holds. -/
def WaitersKeep (p : ConnectionPool) : Prop :=
  ∀ i a d, (p.threads i).phase = .waiting a d → p.lookup a = some d

/-! ### Closing a defunct connection -/

namespace DefunctClosed

theorem tidies (h : DefunctClosed p) (ht : Tidies p p') : DefunctClosed p' := fun id hd => by
  rcases ht.conns id with he | he
  · rw [he] at hd ⊢
    exact h id hd
  · rw [he]

theorem setThread (h : DefunctClosed p) (i : Nat) (t : Thread) : DefunctClosed (p.setThread i t) := h

theorem setConn (h : DefunctClosed p) (x : Nat) (c : PooledConnection)
    (hc : c.defunct = true → c.closed = true) : DefunctClosed (p.setConn x c) := fun id => by
  simp only [ConnectionPool.setConn, Function.update_apply]
  split
  · exact hc
  · exact h id

theorem acquirePass (h : DefunctClosed p) (maxSize : Int) (i a d : Nat) (cn : ConnectorOutcome) (ex : Bool) :
    DefunctClosed (p.acquirePass maxSize i a d cn ex) := by
  have hs := tidies_scan p d
  rcases acquirePass_cases (p := p) maxSize i a d cn ex rfl with
    ⟨id, -, hq⟩ | ⟨fails, -, hq⟩ | ⟨t, -, -, hq⟩ | ⟨ph, hq⟩ <;> rw [hq]
  · exact ((h.tidies hs).setConn id { p.conns id with inUse := true } (h id)).setThread _ _
  · exact (h.tidies (hs.trans (tidies_remove _ a fails))).setThread _ _
  · intro id
    simp only [Function.update_apply]
    split
    · simp
    · exact h id
  · exact (h.tidies hs).setThread _ _

theorem step {maxSize : Int} {s : PoolStep} (h : DefunctClosed p) (hs : step maxSize p s = some p') :
    DefunctClosed p' := by
  cases moves_of_step hs with
  | stay => exact h
  | phase => exact h
  | lock i a cn ex => exact (h.tidies (tidies_connectionsFor p a)).acquirePass _ _ _ _ _ _
  | wake => exact h.acquirePass _ _ _ _ _ _
  | release i id => exact (h.setConn id { p.conns id with inUse := false } (h id)).setThread _ _
  | deactivate a fails => exact h.tidies (tidies_deactivate p a fails)
  | remove a fails => exact h.tidies (tidies_remove p a fails)
  | close fails => exact h.tidies (tidies_close p fails)
  | setConn id c _ hc =>
    rcases hc with rfl | rfl | rfl
    exacts [h.setConn id _ fun _ => rfl, h.setConn id _ fun _ => rfl, h.setConn id _ (h id)]

end DefunctClosed

theorem defunctClosed_of_reachable {maxSize : Int} (h : Reachable maxSize p) : DefunctClosed p := by
  induction h with
  | init => intro id; simp [init]
  | step _ hs ih => exact ih.step hs

/-! ### One connection in the deque of its address -/

namespace TrackedAt

variable {id : Nat}

theorem setThread (h : TrackedAt p id) (i : Nat) (t : Thread) : TrackedAt (p.setThread i t) id := h

theorem connectionsFor (h : TrackedAt p id) (a : Nat) : TrackedAt (p.connectionsFor a).1 id := by
  unfold TrackedAt
  rw [connectionsFor_conns, connectionsFor_deques]
  rcases h with hc | ht | ⟨d, hl, hd⟩
  exacts [.inl hc, .inr (.inl ht), .inr (.inr ⟨d, lookup_connectionsFor_of_some hl, hd⟩)]

theorem remove (h : TrackedAt p id) (a : Nat) {fails : List Nat} (hf : id ∉ fails) :
    TrackedAt (p.remove a fails) id := by
  unfold ConnectionPool.remove
  split
  · exact h
  · rename_i d hd
    by_cases hm : id ∈ p.deques d
    · simp [TrackedAt, ConnectionPool.closeAll, hm, hf]
    · -- the connection stays open in its own deque, which is not the one popped
      have hl := lookup_remove p a (p.conns id).address fails
      rw [ConnectionPool.remove, hd] at hl
      simp only [TrackedAt, ConnectionPool.closeAll, hm, false_and, if_false] at hl ⊢
      rcases h with hc | ht | ⟨d', hl', hd'⟩
      · exact .inl hc
      · exact .inr (.inl ht)
      · refine .inr (.inr ⟨d', ?_, hd'⟩)
        rw [hl, if_neg]
        · exact hl'
        · rintro ha
          rw [ha, hd] at hl'
          cases hl'
          exact hm hd'

theorem foldl_remove (addresses : List Nat) {fails : List Nat} (hf : id ∉ fails)
    (h : TrackedAt p id) : TrackedAt (addresses.foldl (fun q a => q.remove a fails) p) id := by
  induction addresses generalizing p with
  | nil => exact h
  | cons a rest ih => exact ih (h.remove a hf)

theorem close (h : TrackedAt p id) {fails : List Nat} (hf : id ∉ fails) :
    TrackedAt (p.close fails) id := by
  unfold ConnectionPool.close
  split
  · exact h
  · exact foldl_remove _ hf h

theorem deactivate (h : TrackedAt p id) (a : Nat) {fails : List Nat} (hf : id ∉ fails) :
    TrackedAt (p.deactivate a fails) id := by
  unfold ConnectionPool.deactivate
  split
  · exact h
  · rename_i d hd
    have h' : TrackedAt { p.closeAll fails ((p.deques d).filter fun id => !(p.conns id).inUse) with
        deques := Function.update p.deques d ((p.deques d).filter fun id => (p.conns id).inUse) } id := by
      by_cases hm : id ∈ p.deques d ∧ (p.conns id).inUse = false
      · simp [TrackedAt, ConnectionPool.closeAll, hm, hf]
      · -- an open connection in use stays in the deque
        have hm' : id ∉ (p.deques d).filter fun id => !(p.conns id).inUse := by simpa using hm
        simp only [TrackedAt, ConnectionPool.closeAll, hm', false_and, if_false]
        rcases h with hc | ht | ⟨d', hl', hd'⟩
        · exact .inl hc
        · exact .inr (.inl ht)
        · refine .inr (.inr ⟨d', hl', ?_⟩)
          simp only [Function.update_apply]
          split
          · subst d'
            simp only [List.mem_filter]
            exact ⟨hd', by simpa [hd'] using hm⟩
          · exact hd'
    dsimp only
    split
    · exact h'.remove a hf
    · exact h'

theorem setConn (h : TrackedAt p id) (x : Nat) (c : PooledConnection)
    (hc : c.address = (p.conns x).address) (hclosed : (p.conns x).closed = true → c.closed = true)
    (htime : (p.conns x).timedOut = true → c.timedOut = true) : TrackedAt (p.setConn x c) id := by
  unfold TrackedAt
  simp only [ConnectionPool.setConn, Function.update_apply]
  split
  · subst x
    rw [hc]
    rcases h with h1 | h1 | h1
    exacts [.inl (hclosed h1), .inr (.inl (htime h1)), .inr (.inr h1)]
  · exact h

/-- The `for` loop of `acquire_direct` drops only connections that are closed, defunct, and so
closed, or timed out. -/
theorem scan (h : TrackedAt p id) (hdef : DefunctClosed p) (d : Nat) :
    TrackedAt { p with deques := Function.update p.deques d (scan p.conns (p.deques d)).1 } id := by
  rcases h with hc | ht | ⟨d', hl', hd'⟩
  · exact .inl hc
  · exact .inr (.inl ht)
  · simp only [TrackedAt, Function.update_apply]
    by_cases hk : d' = d ∧ id ∉ (ConnectionPool.scan p.conns (p.deques d)).1
    · obtain ⟨rfl, hk⟩ := hk
      have hst := stale_of_dropped hd' hk
      simp only [PooledConnection.stale, Bool.or_eq_true] at hst
      rcases hst with (hc | hdf) | ht
      · exact .inl hc
      · exact .inl (hdef id hdf)
      · exact .inr (.inl ht)
    · refine .inr (.inr ⟨d', hl', ?_⟩)
      split
      · subst d'; simpa using hk
      · exact hd'

/-- A pass of `acquire_direct` keeps a produced connection closed, timed out, or in its deque,
unless the `remove(address)` after a connector's `ServiceUnavailable` lets its `close()` raise:
the connection it creates is a new one. -/
theorem acquirePass (h : TrackedAt p id) (hdef : DefunctClosed p) (hlt : id < p.produced)
    {maxSize : Int} {i a d : Nat} {cn : ConnectorOutcome} (hf : id ∉ cn.failedCloses) (ex : Bool) :
    TrackedAt (p.acquirePass maxSize i a d cn ex) id := by
  have h' := h.scan hdef d
  rcases acquirePass_cases (p := p) maxSize i a d cn ex rfl with
    ⟨x, -, hq⟩ | ⟨fails, rfl, hq⟩ | ⟨t, -, -, hq⟩ | ⟨ph, hq⟩ <;> rw [hq]
  · exact (h'.setConn x { p.conns x with inUse := true } rfl (fun h => h) (fun h => h)).setThread _ _
  · exact (h'.remove a hf).setThread _ _
  · -- a new connection, which is not `id`
    simp only [TrackedAt, Function.update_noteq (ne_of_lt hlt)]
    rcases h' with hc | ht | ⟨d', hl', hd'⟩
    · exact .inl hc
    · exact .inr (.inl ht)
    · refine .inr (.inr ⟨d', hl', ?_⟩)
      simp only [Function.update_apply] at hd' ⊢
      split at hd' <;> simp_all
  · exact h'.setThread _ _

/-- A step keeps a produced connection closed, timed out, or in the deque of its address, unless
it lets the connection's `close()` raise. -/
theorem step {maxSize : Int} {s : PoolStep} (h : TrackedAt p id) (hdef : DefunctClosed p)
    (hlt : id < p.produced) (hf : id ∉ s.failedCloses) (hs : step maxSize p s = some p') :
    TrackedAt p' id := by
  cases s <;> simp only [ConnectionPool.step, Option.ite_none_right_eq_some, Option.some.injEq] at hs
  case acquire i a =>
    obtain ⟨-, hs⟩ := hs
    split_ifs at hs <;> cases hs
    exacts [h, h.setThread _ _]
  case lock i cn ex =>
    split at hs <;> cases hs
    next a _ =>
      exact (h.connectionsFor a).acquirePass (hdef.tidies (tidies_connectionsFor p a))
        (by rwa [connectionsFor_produced]) hf ex
  case wake i late cn ex =>
    split at hs
    · split_ifs at hs <;> cases hs
      exacts [h.setThread _ _, h.acquirePass hdef hlt hf ex]
    · cases hs
  case release i x =>
    obtain ⟨-, rfl⟩ := hs
    exact (h.setConn x { p.conns x with inUse := false } rfl (fun h => h) (fun h => h)).setThread _ _
  case deactivate i a fails => exact hs.2 ▸ h.deactivate a hf
  case remove i a fails => exact hs.2 ▸ h.remove a hf
  case close i fails => exact hs.2 ▸ h.close hf
  case closeConnection x => exact hs.2 ▸ h.setConn x _ rfl (fun _ => rfl) (fun h => h)
  case setDefunct x => exact hs.2 ▸ h.setConn x _ rfl (fun _ => rfl) (fun h => h)
  case timeOut x => exact hs.2 ▸ h.setConn x _ rfl (fun h => h) (fun _ => rfl)

end TrackedAt

/-! ### Every produced connection -/

namespace Tracked

variable {maxSize : Int} {s : PoolStep}

/-- A step that lets no `close()` raise and creates no connection keeps every connection
tracked. -/
theorem step_of_produced (h : Tracked p) (hf : s.failedCloses = []) (hs : step maxSize p s = some p')
    (hpr : p'.produced = p.produced) : Tracked p' :=
  ⟨fun id hid => TrackedAt.step (h.tracked id (hpr ▸ hid)) h.closed_of_defunct (hpr ▸ hid)
    (by simp [hf]) hs, DefunctClosed.step h.closed_of_defunct hs⟩

/-- A pass of `acquire_direct` on the deque of its address puts the connection it creates there. -/
theorem acquirePass (h : Tracked p) {i a d : Nat} (hd : p.lookup a = some d) {cn : ConnectorOutcome}
    (hf : cn.failedCloses = []) (ex : Bool) : Tracked (p.acquirePass maxSize i a d cn ex) := by
  refine ⟨fun id hid => ?_, DefunctClosed.acquirePass h.closed_of_defunct _ _ _ _ _ _⟩
  by_cases hlt : id < p.produced
  · exact TrackedAt.acquirePass (h.tracked id hlt) h.closed_of_defunct hlt (by simp [hf]) ex
  · rcases acquirePass_cases (p := p) maxSize i a d cn ex rfl with
      ⟨x, -, hq⟩ | ⟨fails, -, hq⟩ | ⟨t, -, -, hq⟩ | ⟨ph, hq⟩ <;> rw [hq] at hid ⊢
    · exact absurd hid hlt
    · exact absurd (by rwa [setThread, (tidies_remove _ a fails).produced] at hid) hlt
    · obtain rfl : id = p.produced := by dsimp only at hid; omega
      exact .inr (.inr ⟨d, by simpa using hd, by simp⟩)
    · exact absurd hid hlt

/-- A step that lets no `close()` raise keeps every connection tracked, on a pool whose waiting
calls keep their deques. -/
theorem step (h : Tracked p) (hw : WaitersKeep p) (hf : s.failedCloses = [])
    (hs : step maxSize p s = some q) : Tracked q := by
  have hkeep := h.step_of_produced hf hs
  cases s <;> simp only [ConnectionPool.step, Option.ite_none_right_eq_some, Option.some.injEq] at hs
  case lock i cn ex =>
    split at hs <;> cases hs
    next a _ =>
      have hc : Tracked (p.connectionsFor a).1 :=
        ⟨fun id hid => TrackedAt.connectionsFor (h.tracked id (by rwa [connectionsFor_produced] at hid)) a,
          DefunctClosed.tidies h.closed_of_defunct (tidies_connectionsFor p a)⟩
      exact hc.acquirePass (lookup_connectionsFor_self p a) hf ex
  case wake i late cn ex =>
    split at hs
    next a d hph =>
      split_ifs at hs <;> cases hs
      exacts [hkeep rfl, h.acquirePass (hw i a d hph) hf ex]
    · cases hs
  case acquire i a =>
    obtain ⟨-, hs⟩ := hs
    split_ifs at hs <;> cases hs <;> exact hkeep rfl
  case release i x => exact hkeep (hs.2 ▸ rfl)
  case deactivate i a fails => exact hkeep (hs.2 ▸ (tidies_deactivate p a fails).produced)
  case remove i a fails => exact hkeep (hs.2 ▸ (tidies_remove p a fails).produced)
  case close i fails => exact hkeep (hs.2 ▸ (tidies_close p fails).produced)
  all_goals exact hkeep (hs.2 ▸ rfl)

end Tracked

variable (maxSize)

/-- The states of the interleavings in which every call waiting in `cond.wait` keeps waiting on the
deque that `connections[address]` holds, no address being removed while a call for it waits, and
in which every `close()` the pool makes returns. -/
inductive ReachableKeeping : ConnectionPool → Prop where
  | init : ReachableKeeping init
  | step {p q : ConnectionPool} {s : PoolStep} : ReachableKeeping p → step maxSize p s = some q →
      s.failedCloses = [] → WaitersKeep q → ReachableKeeping q

variable {maxSize}

theorem ReachableKeeping.invariants (h : ReachableKeeping maxSize p) :
    Reachable maxSize p ∧ WaitersKeep p ∧ Tracked p := by
  induction h with
  | init =>
    refine ⟨.init, fun _ _ _ h => by simp [ConnectionPool.init] at h,
      fun id hid => by simp [ConnectionPool.init] at hid, ?_⟩
    simp [ConnectionPool.init]
  | step _ hs hf hw ih => exact ⟨ih.1.step hs, hw, ih.2.2.step ih.2.1 hf hs⟩

/-- The connections of address `a` that are open and not timed out are all in its deque, so the
bound on the deque bounds them. -/
theorem Tracked.openCount_le (ht : Tracked p) (hb : DequesBounded maxSize p) (hm : maxSize ≠ -1)
    (a : Nat) :
    (((List.range p.produced).filter fun id => (p.conns id).address == a &&
      !(p.conns id).closed && !(p.conns id).timedOut).length : Int) ≤ max maxSize 0 := by
  have hsub : ((List.range p.produced).filter fun id => (p.conns id).address == a &&
      !(p.conns id).closed && !(p.conns id).timedOut).Subperm ((p.lookup a).elim [] p.deques) :=
    List.subperm_of_subset ((List.nodup_range p.produced).filter _) fun id hid => by
      simp only [List.mem_filter, List.mem_range, Bool.and_eq_true, beq_iff_eq,
        Bool.not_eq_true'] at hid
      obtain ⟨hlt, ⟨rfl, hc⟩, ht'⟩ := hid
      rcases ht.tracked id hlt with h1 | h1 | ⟨d, hd, hid⟩
      · simp [hc] at h1
      · simp [ht'] at h1
      · simpa [hd] using hid
  calc _ ≤ (((p.lookup a).elim [] p.deques).length : Int) := by exact_mod_cast hsub.length_le
    _ ≤ max maxSize 0 := by
      cases p.lookup a with
      | none => simp
      | some d => exact hb.length_le hm d

/-- In any interleaving of `acquire_direct`, `release`, `deactivate`, `remove` and `close`, and any
passage of time, in which no address is removed while a call of `acquire_direct` waits on its
deque, and every `close()` the pool makes returns: every connection the connector produced is in
the deque `connections[address]` of its address, closed, or timed out. No deque holds more than
`max_connection_pool_size` connections (unless that is `-1`), so neither do the open connections
of an address that have not timed out. -/
theorem pool_tracks_connections (h : ReachableKeeping maxSize p) :
    (∀ id < p.produced, (p.conns id).closed = true ∨ (p.conns id).timedOut = true ∨
      ∃ d, p.lookup (p.conns id).address = some d ∧ id ∈ p.deques d) ∧
    (maxSize ≠ -1 → (∀ d, ((p.deques d).length : Int) ≤ max maxSize 0) ∧
      ∀ a, (((List.range p.produced).filter fun id => (p.conns id).address == a &&
        !(p.conns id).closed && !(p.conns id).timedOut).length : Int) ≤ max maxSize 0) := by
  obtain ⟨hr, -, ht⟩ := h.invariants
  have hb := dequesBounded_of_reachable hr
  exact ⟨ht.tracked, fun hm => ⟨hb.length_le hm, ht.openCount_le hb hm⟩⟩

theorem pool_tracks_connections_oneHeld :
    ∃ p, ReachableKeeping 1 p ∧ p.produced = 1 ∧
      (∀ id < p.produced, (p.conns id).closed = true ∨ (p.conns id).timedOut = true ∨
        ∃ d, p.lookup (p.conns id).address = some d ∧ id ∈ p.deques d) ∧
      ((1 : Int) ≠ -1 → (∀ d, ((p.deques d).length : Int) ≤ max 1 0) ∧
        ∀ a, (((List.range p.produced).filter fun id => (p.conns id).address == a &&
          !(p.conns id).closed && !(p.conns id).timedOut).length : Int) ≤ max 1 0) := by
  have h1 : ReachableKeeping 1 (init.setThread 0 ⟨.entered 0, []⟩) :=
    .step (s := .acquire 0 0) .init rfl rfl fun i a d h => by
      simp only [setThread, init, Function.update_apply] at h
      split at h <;> cases h
  have h2 : ReachableKeeping 1 (((init.setThread 0 ⟨.entered 0, []⟩).connectionsFor 0).1.acquirePass
      1 0 0 0 (.connects false) false) :=
    .step (s := .lock 0 (.connects false) false) h1 rfl rfl fun i a d h => by
      simp [acquirePass, scan, connectionsFor, lookup, init, setThread, Function.update_apply] at h
      split at h <;> cases h
  exact ⟨_, h2, rfl, pool_tracks_connections h2⟩

/-- `max_connection_pool_size = 1`, and two ways a connection leaves every deque open. A connection
times out: thread 0 acquires connection 0 to address 0, which times out while thread 0 holds it,
and thread 1's `acquire_direct` evicts it without closing it and creates connection 1; both
connections of address 0 are open, and connection 0 is in no deque. A `GOODBYE` fails: thread 0
acquires and releases connection 0 to address 7, `remove(7)` drops it while its `close()` raises,
and thread 0's next `acquire_direct` creates connection 1; both connections of address 7 are open
and not timed out, and connection 0 is not in the deque of address 7. -/
theorem pool_leaves_open_connections :
    (∃ p, Reachable 1 p ∧ p.produced = 2 ∧ (p.conns 0).address = 0 ∧ (p.conns 1).address = 0 ∧
      (p.conns 0).closed = false ∧ (p.conns 1).closed = false ∧ p.lookup 0 = some 0 ∧
      0 ∉ p.deques 0) ∧
    ∃ p, Reachable 1 p ∧ p.produced = 2 ∧ p.lookup 7 = some 1 ∧ 0 ∉ p.deques 1 ∧
      ((List.range p.produced).filter fun id => (p.conns id).address == 7 &&
        !(p.conns id).closed && !(p.conns id).timedOut) = [0, 1] :=
  ⟨⟨_, Reachable.init.run (l := [.acquire 0 0, .lock 0 (.connects false) false, .timeOut 0,
      .acquire 1 0, .lock 1 (.connects false) false]) rfl,
      by decide, by decide, by decide, by decide, by decide, by decide, by decide⟩,
    ⟨_, Reachable.init.run (l := [.acquire 0 7, .lock 0 (.connects false) false, .release 0 0,
      .remove 0 7 [0], .acquire 0 7, .lock 0 (.connects false) false]) rfl,
      by decide, by decide, by decide, by decide⟩⟩

end ConnectionPool

end Neobolt
