import Mathlib.Data.List.Basic

/-!
# Shared vocabulary

The exception classes that `neobolt/direct.py` raises or catches, and the facts about
`Except` and `EStateM` binds that the rest of the development uses. A Python method that changes
state and may raise is modelled as an `EStateM` computation: as in Python, the state changes made
before an exception survive it, so `EStateM.Result.error e s` carries the state `s` at the point
of the `raise`.

Exception classes are told apart by name only. Socket objects raise `OSError` (here `ioError`)
and nothing else, so no `except` clause of `direct.py` depends on the class hierarchy of
`neobolt.exceptions`, which is not part of the modelled sources.
-/

namespace Neobolt

/-- The exception classes that `neobolt/direct.py` raises, catches or receives from a hydrated
`FAILURE`. `cypherError` stands for every class `CypherError.hydrate` can return other than the
four that `direct.py` names. -/
inductive ErrorKind where
  | serviceUnavailable
  | connectionExpired
  | databaseUnavailable
  | notALeader
  | forbiddenOnReadOnlyDatabase
  | incompleteCommit
  | protocolError
  | authError
  | clientError
  | cypherError
  | ioError
  | notImplemented
  | attributeError
  | valueError
  | typeError
  | stopIteration
  | indexError
  | structError
  | securityError
  deriving DecidableEq, Repr

end Neobolt

namespace Except

variable {ε α β : Type}

@[simp]
theorem ok_bind (a : α) (f : α → Except ε β) : (Except.ok a >>= f) = f a := rfl

@[simp]
theorem error_bind (e : ε) (f : α → Except ε β) : (Except.error e >>= f) = .error e := rfl

end Except

namespace EStateM

variable {ε σ α β : Type} {x : EStateM ε σ α} {f : α → EStateM ε σ β} {s s' : σ}

/-- The state a computation ended in, whether it returned or raised. -/
def Result.state {α : Type} : Result ε σ α → σ
  | .ok _ s => s
  | .error _ s => s

@[simp]
theorem Result.state_ok (a : α) : (Result.ok a s : Result ε σ α).state = s := rfl

@[simp]
theorem Result.state_error (e : ε) : (Result.error e s : Result ε σ α).state = s := rfl

/-! The primitives of a state-and-exception method, run on a state. -/

@[simp]
theorem get_apply : (get : EStateM ε σ σ) s = .ok s s := rfl

@[simp]
theorem set_apply : (set s' : EStateM ε σ PUnit) s = .ok ⟨⟩ s' := rfl

@[simp]
theorem modify_apply (g : σ → σ) : (modify g : EStateM ε σ PUnit) s = .ok ⟨⟩ (g s) := rfl

@[simp]
theorem pure_apply (a : α) : (pure a : EStateM ε σ α) s = .ok a s := rfl

@[simp]
theorem throw_apply (e : ε) : (throw e : EStateM ε σ α) s = .error e s := rfl

@[simp]
theorem bind_apply : (x >>= f) s = match x s with
    | .ok a s' => f a s'
    | .error e s' => .error e s' := rfl

@[simp]
theorem map_apply (g : α → β) : (g <$> x) s = match x s with
    | .ok a s' => .ok (g a) s'
    | .error e s' => .error e s' := rfl

@[simp]
theorem discard_apply : (discard x : EStateM ε σ PUnit) s = match x s with
    | .ok _ s' => .ok ⟨⟩ s'
    | .error e s' => .error e s' := rfl

@[simp]
theorem tryCatch_apply (h : ε → EStateM ε σ α) : (tryCatch x h) s = match x s with
    | .ok a s' => .ok a s'
    | .error e s' => h e s' := by
  show EStateM.tryCatch x h s = _
  simp only [EStateM.tryCatch]
  cases x s <;> rfl

/-- A bind whose first computation returns continues from the state it returned in. -/
theorem bind_apply_of_ok {a : α} (h : x s = .ok a s') : (x >>= f) s = f a s' := by
  show EStateM.bind x f s = _
  simp [EStateM.bind, h]

/-- A bind whose first computation raises raises the same exception from the same state. -/
theorem bind_apply_of_error {e : ε} (h : x s = .error e s') :
    (x >>= f) s = .error e s' := by
  show EStateM.bind x f s = _
  simp [EStateM.bind, h]

end EStateM
