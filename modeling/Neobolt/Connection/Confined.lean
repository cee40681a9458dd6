import Neobolt.Connection.Fetch
import Neobolt.Connection.Requests

/-!
# What a method may change

`Confined R x`: from any state, the method `x` ends, by returning or by raising, in a state that
`R` relates to the one it started from. For a preorder `R` this is closed under the monad's
operations, so a proof of it follows the code of the method. Four relations are used:
`KeepsDefunct` (the flag `defunct` is as it was), `KeepsFlags` (so are both flags `closed` and
`defunct`), `KeepsLink` (the flags and the socket are), and `WhenShut` (`KeepsLink`, from a closed
connection).

## Main definitions

* `Confined`: what a method may change.
* `KeepsDefunct`, `KeepsFlags`, `KeepsLink`, `WhenShut`: the relations used here.

## Main results

* `Confined.bind`, `Confined.ite`, `Confined.tryCatch`: closure under the monad's operations.
* `confined_append`, `confined_exec`: a request changes nothing but the `Outbox`, the queue and the
  name of the next response.
* `close_keepsDefunct`: `close()` never marks a connection defunct.
* `fetchMessage_whenShut`, `fetchAllLoop_whenShut`, `reset_whenShut`, `sendAll_whenShut`,
  `close_whenShut`: a closed connection leaves its socket alone.
-/

namespace Neobolt

namespace Connection

/-- `x` changes the connection only as `R` allows: from any state, `R` holds between it and the
state `x` returns or raises in. -/
def Confined {α : Type} (R : Connection → Connection → Prop) (x : ConnM α) : Prop :=
  ∀ c, R c (x c).state

/-- The flag `defunct` is as it was. -/
def KeepsDefunct (c c' : Connection) : Prop :=
  c'.defunct = c.defunct

/-- The flags `closed` and `defunct` are as they were. -/
def KeepsFlags (c c' : Connection) : Prop :=
  c'.closed = c.closed ∧ c'.defunct = c.defunct

/-- The flags and the socket are as they were. -/
def KeepsLink (c c' : Connection) : Prop :=
  KeepsFlags c c' ∧ c'.wire = c.wire

/-- From a closed connection, the flags and the socket are as they were. -/
def WhenShut (c c' : Connection) : Prop :=
  c.closed = true → KeepsLink c c'

instance : IsPreorder Connection KeepsDefunct where
  refl _ := rfl
  trans _ _ _ h h' := h'.trans h

instance : IsPreorder Connection KeepsFlags where
  refl _ := ⟨rfl, rfl⟩
  trans _ _ _ h h' := ⟨h'.1.trans h.1, h'.2.trans h.2⟩

instance : IsPreorder Connection KeepsLink where
  refl _ := ⟨refl _, rfl⟩
  trans _ _ _ h h' := ⟨IsTrans.trans _ _ _ h.1 h'.1, h'.2.trans h.2⟩

instance : IsPreorder Connection WhenShut where
  refl _ _ := refl _
  trans _ _ _ h h' hc :=
    have hab := h hc
    IsTrans.trans _ _ _ hab (h' (hab.1.1.trans hc))

theorem KeepsLink.keepsFlags {c c' : Connection} (h : KeepsLink c c') : KeepsFlags c c' := h.1

theorem KeepsLink.whenShut {c c' : Connection} (h : KeepsLink c c') : WhenShut c c' := fun _ => h

namespace Confined

variable {α β : Type} {R : Connection → Connection → Prop} {x : ConnM α} {f : α → ConnM β}

theorem mono {S : Connection → Connection → Prop} (hRS : ∀ c c', R c c' → S c c')
    (hx : Confined R x) : Confined S x :=
  fun c => hRS _ _ (hx c)

theorem modify {g : Connection → Connection} (h : ∀ c, R c (g c)) : Confined R (modify g) := h

theorem ite {p : Prop} [Decidable p] {y : ConnM α} (hx : Confined R x) (hy : Confined R y) :
    Confined R (if p then x else y) := by
  split <;> assumption

variable [IsPreorder Connection R]

theorem pure (a : α) : Confined R (pure a : ConnM α) := fun c => refl c

theorem get : Confined R (get : ConnM Connection) := fun c => refl c

theorem throw (e : Exc) : Confined R (throw e : ConnM α) := fun c => refl c

theorem raise (e : ErrorKind) : Confined R (raise e : ConnM α) := fun c => refl c

theorem bind (hx : Confined R x) (hf : ∀ a, Confined R (f a)) : Confined R (x >>= f) := by
  intro c
  rcases h : x c with ⟨a, c1⟩ | ⟨e, c1⟩
  · rw [EStateM.bind_apply_of_ok h]
    exact IsTrans.trans _ _ _ (by simpa [h] using hx c) (hf a c1)
  · rw [EStateM.bind_apply_of_error h]
    simpa [h] using hx c

theorem tryCatch {h : Exc → ConnM α} (hx : Confined R x) (hh : ∀ e, Confined R (h e)) :
    Confined R (tryCatch x h) := by
  intro c
  rcases hx' : x c with ⟨a, c1⟩ | ⟨e, c1⟩ <;> simp only [EStateM.tryCatch_apply, hx']
  · simpa [hx'] using hx c
  · exact IsTrans.trans _ _ _ (by simpa [hx'] using hx c) (hh e c1)

theorem discard (hx : Confined R x) : Confined R (Functor.discard x) := by
  rw [show Functor.discard x = x >>= fun _ => Pure.pure PUnit.unit from rfl]
  exact bind hx fun _ => pure _

theorem ofExcept (y : Except ErrorKind α) : Confined R (ofExcept y) := by
  cases y
  exacts [raise _, pure _]

end Confined

variable (b : Builtins) (codec : Codec) {F : ConnM (Nat × Nat)}

/-! ## Requests change the `Outbox`, the queue and the log only -/

theorem confined_logEvent (e : Event) : Confined KeepsLink (logEvent e) :=
  Confined.modify fun _ => ⟨⟨rfl, rfl⟩, rfl⟩

theorem confined_invoke (r : Response) (name : HandlerName) (e : Event) :
    Confined KeepsLink (invoke r name e) := by
  unfold invoke
  split
  · exact Confined.pure _
  · refine Confined.bind (confined_logEvent _) fun _ => ?_
    split
    exacts [Confined.pure _, Confined.raise _]

theorem confined_withOutbox {α : Type} (x : EStateM ErrorKind Outbox α) :
    Confined KeepsLink (withOutbox x) := by
  intro c
  unfold withOutbox
  split <;> exact ⟨⟨rfl, rfl⟩, rfl⟩

theorem confined_newResponse (kind : ResponseKind) (handlers : HandlerName → Option Callback) :
    Confined KeepsLink (newResponse kind handlers) :=
  fun _ => ⟨⟨rfl, rfl⟩, rfl⟩

theorem confined_append (signature : UInt8) (fields : List Value) (response : Option Response) :
    Confined KeepsLink (append codec signature fields response) := by
  unfold append
  refine Confined.bind (confined_withOutbox _) fun _ => ?_
  split
  · exact Confined.bind (Confined.raise _) fun _ => Confined.bind (confined_withOutbox _) fun _ =>
      Confined.modify fun _ => ⟨⟨rfl, rfl⟩, rfl⟩
  · exact Confined.bind (Confined.pure _) fun _ => Confined.bind (confined_withOutbox _) fun _ =>
      Confined.modify fun _ => ⟨⟨rfl, rfl⟩, rfl⟩

theorem confined_appendPlan (handlers : HandlerName → Option Callback)
    (plan : List (UInt8 × List Value × ResponseKind)) :
    Confined KeepsLink (appendPlan codec handlers plan) := by
  induction plan with
  | nil => exact Confined.pure _
  | cons message plan ih =>
    exact Confined.bind (confined_newResponse _ _) fun _ =>
      Confined.bind (confined_append codec _ _ _) fun _ => ih

/-- A request changes neither the flags nor the socket. -/
theorem confined_exec (r : Request) : Confined KeepsLink (r.exec b codec) := by
  intro c
  rw [Request.exec_eq]
  exact Confined.bind (Confined.ofExcept _) (fun _ => confined_appendPlan codec _ _) c

theorem confined_onRecords (details : List Value) : Confined KeepsLink (onRecords details) := by
  unfold onRecords
  refine Confined.bind Confined.get fun c => ?_
  split
  exacts [confined_invoke _ _ _, Confined.raise _, Confined.raise _]

theorem confined_popResponse : Confined KeepsLink popResponse := by
  intro c
  unfold popResponse
  simp only [EStateM.bind_apply, EStateM.get_apply]
  cases c.responses with
  | nil => exact refl _
  | cons r rest => cases r <;> exact ⟨⟨rfl, rfl⟩, rfl⟩

theorem confined_onSuccess (r : Response) (metadata : Metadata) :
    Confined KeepsLink (onSuccess r metadata) :=
  Confined.bind (confined_invoke _ _ _) fun _ => confined_invoke _ _ _

theorem confined_onIgnored (r : Response) (metadata : Metadata) :
    Confined KeepsLink (onIgnored r metadata) :=
  Confined.bind (confined_invoke _ _ _) fun _ => confined_invoke _ _ _

/-- `send_all` may hand bytes to the socket, but leaves the flags alone. -/
theorem sendAll_keepsFlags : Confined KeepsFlags sendAll := by
  intro c
  by_cases hv : c.outbox.view = []
  · simp [sendAll_of_nil hv, refl]
  cases hc : c.closed
  · cases hd : c.defunct
    · cases hw : c.wire.writeFails c.wire.sent.length
      · simp [sendAll_of_ok hv hc hd hw, KeepsFlags]
      · simp [sendAll_of_fails hv hc hd hw, KeepsFlags]
    · simp [sendAll_of_defunct hv hd, refl]
  · simp [sendAll_of_closed hv hc, refl]

/-- `close()` marks the connection closed, never defunct. -/
theorem close_keepsDefunct : Confined KeepsDefunct (close codec) := by
  refine Confined.bind Confined.get fun c => Confined.ite ?_ (Confined.pure _)
  have hmod : Confined KeepsDefunct (modify fun c : Connection =>
      { c with wire := { c.wire with socketClosed := true }, closed := true }) :=
    Confined.modify fun _ => rfl
  dsimp only
  refine Confined.ite (Confined.bind ((confined_append codec _ _ _).mono fun _ _ h => h.1.2)
    fun _ => Confined.bind (Confined.tryCatch (sendAll_keepsFlags.mono fun _ _ h => h.2)
      fun e => ?_) fun _ => hmod) (Confined.bind (Confined.pure _) fun _ => hmod)
  split
  exacts [Confined.pure _, Confined.throw _]

/-! ## A closed connection leaves its socket alone -/

theorem sendAll_whenShut : Confined WhenShut sendAll := by
  intro c hc
  by_cases hv : c.outbox.view = []
  · simp [sendAll_of_nil hv, refl]
  · simp [sendAll_of_closed hv hc, refl]

theorem fetchMessage_of_closed {c : Connection} (hc : c.closed = true) :
    fetchMessage codec F c = .error (.raised .serviceUnavailable) c := by
  simp [fetchMessage, hc, raise]

theorem fetchMessage_whenShut : Confined WhenShut (fetchMessage codec F) := by
  intro c hc
  simp [fetchMessage_of_closed codec hc, refl]

theorem fetchAllLoop_whenShut (fuel d s : Nat) :
    Confined WhenShut (fetchAllLoop codec fuel d s) := by
  induction fuel generalizing d s with
  | zero => exact Confined.throw _
  | succ n ih =>
    refine Confined.bind Confined.get fun c => ?_
    split
    · exact Confined.pure _
    · exact Confined.raise _
    · exact Confined.bind (fetchMessage_whenShut codec) fun _ => ih _ _

theorem reset_whenShut (hF : Confined WhenShut F) : Confined WhenShut (reset codec F) :=
  Confined.bind ((confined_newResponse _ _).mono fun _ _ h => h.whenShut) fun _ =>
    Confined.bind ((confined_append codec _ _ _).mono fun _ _ h => h.whenShut) fun _ =>
      Confined.bind sendAll_whenShut fun _ => Confined.discard hF

theorem close_whenShut : Confined WhenShut (close codec) := by
  intro c hc
  simp [close_of_closed codec hc, refl]

end Connection

end Neobolt
