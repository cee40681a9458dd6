import Neobolt.Connection.State

/-!
# Requests

The methods of `Connection` that queue a request: `run`, `discard_all`, `pull_all`, `begin`,
`commit` and `rollback`. Each checks the caller's arguments, which may raise before anything is
written, and then `_append`s one message; before Bolt v3, `begin`, `commit` and `rollback` are a
`RUN` followed by a `DISCARD_ALL`, two messages.

Truthiness and iteration are modelled on `Value`. What Python's `dict(...)`,
`int(1000 * timeout)`, `str.upper` and `int(...)` do on values the caller supplies is a parameter,
`Builtins`.

## Main definitions

* `Value.truthy`, `Value.iter`: `bool(v)` and iteration over `v`.
* `lastBookmark`: `last_bookmark(bookmarks)`.
* `Connection.run`, `Connection.discardAll`, `Connection.pullAll`, `Connection.begin`,
  `Connection.commit`, `Connection.rollback`.
* `Request`, `Request.exec`: a call of one of them.
* `Request.plan`: the messages a request queues once its arguments pass.

## Main results

* `Request.exec_eq`: every request is its argument checks, then `_append` for each message of its
  plan, in order.
* `lastBookmark_maxSuffix`: `last_bookmark` returns the last bookmark with the largest integer
  suffix.
-/

namespace Neobolt

/-- `bool(v)`: `None`, `False`, zero and empty values are false. -/
def Value.truthy : Value → Bool
  | .null => false
  | .bool b => b
  | .int n => n != 0
  | .str s => !s.isEmpty
  | .list items => !items.isEmpty
  | .map entries => !entries.isEmpty
  | .other => true

/-- The items of `for x in v`: a list's items, a string's characters, a map's keys; anything
else raises `TypeError`. -/
def Value.iter : Value → Except ErrorKind (List Value)
  | .list items => .ok items
  | .str s => .ok (s.data.map fun ch => .str (String.singleton ch))
  | .map entries => .ok (entries.map fun e => .str e.1)
  | _ => .error .typeError

/-- What the built-ins the request methods call do on values the caller supplies. -/
structure Builtins where
  /-- `dict(metadata)`. -/
  dict : Value → Except ErrorKind Metadata
  /-- `int(1000 * timeout)`. -/
  millis : Value → Except ErrorKind Int
  /-- `str.upper`. -/
  upper : String → String
  /-- A string of upper-case letters is its own upper case. -/
  upper_of_isUpper : ∀ s : String, s.data.all Char.isUpper → upper s = s
  /-- `int(s)` on a string; `none` where it raises `ValueError`. -/
  parseInt : String → Option Int

variable (b : Builtins)

/-- `s.rpartition(":")[2]`: the text after the last `:`, or all of `s` if it has none. -/
def afterLastColon (s : String) : String :=
  ⟨(s.data.reverse.takeWhile (· ≠ ':')).reverse⟩

/-- `_last_bookmark(b0, b1)`: the later of two bookmarks by the integer after their last `:`,
`b1` on a tie. A bookmark that is not a string has no `rpartition`; a suffix that is not an
integer raises `ValueError`. -/
def lastBookmark2 (b0 b1 : Value) : Except ErrorKind Value :=
  match b0, b1 with
  | .str s0, .str s1 =>
    match b.parseInt (afterLastColon s0), b.parseInt (afterLastColon s1) with
    | some n0, some n1 => .ok (if n0 > n1 then b0 else b1)
    | _, _ => .error .valueError
  | _, _ => .error .attributeError

/-- `last_bookmark(bookmarks)`: fold `_last_bookmark` over the bookmarks, starting from `None`. -/
def lastBookmark (bookmarks : Value) : Except ErrorKind Value := do
  let items ← bookmarks.iter
  items.foldlM (fun last bookmark => match last with
    | .null => pure bookmark
    | _ => lastBookmark2 b last bookmark) .null

/-- The `extra` map that `run` and `begin` build, in the same words, from Bolt v3 on: `mode`,
`bookmarks`, `tx_metadata` and `tx_timeout`, each when given. The `except TypeError` clauses
re-raise a `TypeError`. -/
def txExtra (mode bookmarks metadata timeout : Value) : Except ErrorKind Metadata := do
  let extra : Metadata := if mode.truthy then [("mode", mode)] else []
  let extra ← if bookmarks.truthy then do
      pure (extra ++ [("bookmarks", .list (← bookmarks.iter))])
    else pure extra
  let extra ← if metadata.truthy then do
      pure (extra ++ [("tx_metadata", .map (← b.dict metadata))])
    else pure extra
  if timeout.truthy then do
    pure (extra ++ [("tx_timeout", .int (← b.millis timeout))])
  else pure extra

/-- The fields of `run`: the statement, the parameters (`{}` for none), and from Bolt v3 on the
`extra` map; before v3, transaction metadata and timeouts raise `NotImplementedError`. -/
def runFields (protocolVersion : Nat) (statement : String)
    (parameters mode bookmarks metadata timeout : Value) : Except ErrorKind (List Value) := do
  let parameters := if parameters.truthy then parameters else .map []
  if 3 ≤ protocolVersion then
    let extra ← txExtra b mode bookmarks metadata timeout
    pure [.str statement, parameters, .map extra]
  else
    if metadata.truthy then throw .notImplemented
    if timeout.truthy then throw .notImplemented
    pure [.str statement, parameters]

/-- The `extra` map of `begin` before Bolt v3: `bookmark` (before v2) and `bookmarks` when
bookmarks are given; transaction metadata and timeouts raise `NotImplementedError`. -/
def beginExtra (protocolVersion : Nat) (bookmarks metadata timeout : Value) :
    Except ErrorKind Metadata := do
  let extra ← if bookmarks.truthy then do
      let extra : Metadata ← if protocolVersion < 2 then do
          pure [("bookmark", ← lastBookmark b bookmarks)]
        else pure []
      pure (extra ++ [("bookmarks", .list (← bookmarks.iter))])
    else pure []
  if metadata.truthy then throw .notImplemented
  if timeout.truthy then throw .notImplemented
  pure extra

namespace Connection

variable (codec : Codec)

/-- An exception of a pure computation, raised from a method. -/
def ofExcept {α : Type} : Except ErrorKind α → ConnM α
  | .ok a => pure a
  | .error e => raise e

/-- `run(statement, parameters, mode, bookmarks, metadata, timeout, **handlers)`: `RUN`, with a
`CommitResponse` when the statement is `COMMIT` in any case. -/
def run (statement : String) (parameters mode bookmarks metadata timeout : Value)
    (handlers : HandlerName → Option Callback) : ConnM Unit := do
  let fields ← ofExcept (runFields b (← get).protocolVersion statement parameters mode bookmarks
    metadata timeout)
  let response ← newResponse (if b.upper statement = "COMMIT" then .commit else .plain) handlers
  append codec 0x10 fields (some response)

/-- `discard_all(**handlers)`. -/
def discardAll (handlers : HandlerName → Option Callback) : ConnM Unit := do
  append codec 0x2F [] (some (← newResponse .plain handlers))

/-- `pull_all(**handlers)`. -/
def pullAll (handlers : HandlerName → Option Callback) : ConnM Unit := do
  append codec 0x3F [] (some (← newResponse .plain handlers))

/-- `begin(mode, bookmarks, metadata, timeout, **handlers)`: `BEGIN` from Bolt v3 on, and before
v3 `RUN "BEGIN"` with the `extra` map as its parameters, then `DISCARD_ALL`. -/
def begin (mode bookmarks metadata timeout : Value) (handlers : HandlerName → Option Callback) :
    ConnM Unit := do
  let protocolVersion := (← get).protocolVersion
  if 3 ≤ protocolVersion then
    let extra ← ofExcept (txExtra b mode bookmarks metadata timeout)
    append codec 0x11 [.map extra] (some (← newResponse .plain handlers))
  else
    let extra ← ofExcept (beginExtra b protocolVersion bookmarks metadata timeout)
    run b codec "BEGIN" (.map extra) .null .null .null .null handlers
    discardAll codec handlers

/-- `commit(**handlers)`: `COMMIT` from Bolt v3 on, `RUN "COMMIT"` and `DISCARD_ALL` before. -/
def commit (handlers : HandlerName → Option Callback) : ConnM Unit := do
  if 3 ≤ (← get).protocolVersion then
    append codec 0x12 [] (some (← newResponse .commit handlers))
  else
    run b codec "COMMIT" (.map []) .null .null .null .null handlers
    discardAll codec handlers

/-- `rollback(**handlers)`: `ROLLBACK` from Bolt v3 on, `RUN "ROLLBACK"` and `DISCARD_ALL`
before. -/
def rollback (handlers : HandlerName → Option Callback) : ConnM Unit := do
  if 3 ≤ (← get).protocolVersion then
    append codec 0x13 [] (some (← newResponse .plain handlers))
  else
    run b codec "ROLLBACK" (.map []) .null .null .null .null handlers
    discardAll codec handlers

end Connection

/-- A call of one of the request methods, with its arguments. -/
inductive Request where
  | run (statement : String) (parameters mode bookmarks metadata timeout : Value)
    (handlers : HandlerName → Option Callback)
  | discardAll (handlers : HandlerName → Option Callback)
  | pullAll (handlers : HandlerName → Option Callback)
  | begin (mode bookmarks metadata timeout : Value) (handlers : HandlerName → Option Callback)
  | commit (handlers : HandlerName → Option Callback)
  | rollback (handlers : HandlerName → Option Callback)

namespace Request

variable (codec : Codec)

/-- Run the request on the connection. -/
def exec : Request → ConnM Unit
  | run statement parameters mode bookmarks metadata timeout handlers =>
    Connection.run b codec statement parameters mode bookmarks metadata timeout handlers
  | discardAll handlers => Connection.discardAll codec handlers
  | pullAll handlers => Connection.pullAll codec handlers
  | begin mode bookmarks metadata timeout handlers =>
    Connection.begin b codec mode bookmarks metadata timeout handlers
  | commit handlers => Connection.commit b codec handlers
  | rollback handlers => Connection.rollback b codec handlers

/-- The handlers the caller passed. -/
def handlers : Request → HandlerName → Option Callback
  | run _ _ _ _ _ _ handlers | discardAll handlers | pullAll handlers | begin _ _ _ _ handlers
  | commit handlers | rollback handlers => handlers

/-- The messages a request queues on a connection of `protocolVersion` once its arguments pass,
each as its signature, its fields and the class of its response; or the exception its argument
checks raise. -/
def plan (protocolVersion : Nat) : Request → Except ErrorKind (List (UInt8 × List Value × ResponseKind))
  | run statement parameters mode bookmarks metadata timeout _ =>
    (fun fields => [(0x10, fields, if b.upper statement = "COMMIT" then .commit else .plain)]) <$>
      runFields b protocolVersion statement parameters mode bookmarks metadata timeout
  | discardAll _ => .ok [(0x2F, [], .plain)]
  | pullAll _ => .ok [(0x3F, [], .plain)]
  | begin mode bookmarks metadata timeout _ =>
    if 3 ≤ protocolVersion then
      (fun extra => [(0x11, [.map extra], .plain)]) <$> txExtra b mode bookmarks metadata timeout
    else
      (fun extra => [(0x10, [.str "BEGIN", .map extra], .plain), (0x2F, [], .plain)]) <$>
        beginExtra b protocolVersion bookmarks metadata timeout
  | commit _ => .ok (if 3 ≤ protocolVersion then [(0x12, [], .commit)]
      else [(0x10, [.str "COMMIT", .map []], .commit), (0x2F, [], .plain)])
  | rollback _ => .ok (if 3 ≤ protocolVersion then [(0x13, [], .plain)]
      else [(0x10, [.str "ROLLBACK", .map []], .plain), (0x2F, [], .plain)])

end Request

namespace Connection

variable (codec : Codec)

/-- `_append` for each message of a plan, each with a new response of its class. -/
def appendPlan (handlers : HandlerName → Option Callback) :
    List (UInt8 × List Value × ResponseKind) → ConnM Unit
  | [] => pure ()
  | (signature, fields, kind) :: rest => do
    append codec signature fields (some (← newResponse kind handlers))
    appendPlan handlers rest

/-! ## Every request is its plan -/

variable {c : Connection}

@[simp]
theorem ofExcept_ok {α : Type} (a : α) : ofExcept (.ok a) c = .ok a c := rfl

@[simp]
theorem ofExcept_error {α : Type} (e : ErrorKind) :
    (ofExcept (.error e) : ConnM α) c = .error (.raised e) c := rfl

@[simp]
theorem appendPlan_nil (handlers : HandlerName → Option Callback) :
    appendPlan codec handlers [] = pure () := rfl

theorem discardAll_eq (handlers : HandlerName → Option Callback) :
    discardAll codec handlers = appendPlan codec handlers [(0x2F, [], .plain)] := by
  simp [discardAll, appendPlan]

/-- Before Bolt v3, `run` with no metadata and no timeout packs the statement and the map. -/
theorem runFields_map {protocolVersion : Nat} (h : protocolVersion < 3) (statement : String)
    (extra : Metadata) :
    runFields b protocolVersion statement (.map extra) .null .null .null .null =
      .ok [.str statement, .map extra] := by
  cases extra <;> simp [runFields, Value.truthy, Nat.not_le.mpr h] <;> rfl

/-- The `RUN` that `begin`, `commit` and `rollback` send before Bolt v3, for a statement in upper
case. -/
theorem run_map (h : c.protocolVersion < 3) (statement : String) (extra : Metadata)
    (handlers : HandlerName → Option Callback) (hs : statement.data.all Char.isUpper) :
    run b codec statement (.map extra) .null .null .null .null handlers c =
      appendPlan codec handlers
        [(0x10, [.str statement, .map extra], if statement = "COMMIT" then .commit else .plain)] c := by
  simp [run, runFields_map b h, appendPlan, b.upper_of_isUpper _ hs]

end Connection

open Connection in
/-- A request checks its arguments and then `_append`s each message of its plan, each with a new
response of its class. -/
theorem Request.exec_eq (codec : Codec) {c : Connection} (r : Request) :
    r.exec b codec c = (ofExcept (r.plan b c.protocolVersion) >>= appendPlan codec r.handlers) c := by
  cases r with
  | run statement parameters mode bookmarks metadata timeout handlers =>
    simp only [Request.exec, Request.plan, Connection.run, EStateM.bind_apply, EStateM.get_apply]
    rcases runFields b c.protocolVersion statement parameters mode bookmarks metadata timeout with
      e | fields
    · rfl
    · simp [appendPlan, Request.handlers]
  | discardAll handlers => simp [Request.exec, Request.plan, discardAll_eq, Request.handlers]
  | pullAll handlers =>
    simp [Request.exec, Request.plan, Connection.pullAll, appendPlan, Request.handlers]
  | begin mode bookmarks metadata timeout handlers =>
    simp only [Request.exec, Request.plan, Connection.begin, EStateM.bind_apply, EStateM.get_apply]
    by_cases hv : 3 ≤ c.protocolVersion
    · simp only [hv, if_true]
      rcases txExtra b mode bookmarks metadata timeout with e | extra
      · rfl
      · simp [appendPlan, Request.handlers]
    · simp only [hv, if_false]
      rcases beginExtra b c.protocolVersion bookmarks metadata timeout with e | extra
      · rfl
      · simp [run_map b codec (Nat.lt_of_not_le hv) "BEGIN" extra handlers (by decide), appendPlan,
          Request.handlers, discardAll_eq, newResponse_apply]
  | commit handlers =>
    simp only [Request.exec, Request.plan, Connection.commit, EStateM.bind_apply, EStateM.get_apply]
    by_cases hv : 3 ≤ c.protocolVersion
    · simp [hv, appendPlan, Request.handlers]
    · simp [hv, run_map b codec (Nat.lt_of_not_le hv) "COMMIT" [] handlers (by decide), appendPlan,
        Request.handlers, discardAll_eq, newResponse_apply]
  | rollback handlers =>
    simp only [Request.exec, Request.plan, Connection.rollback, EStateM.bind_apply,
      EStateM.get_apply]
    by_cases hv : 3 ≤ c.protocolVersion
    · simp [hv, appendPlan, Request.handlers]
    · simp [hv, run_map b codec (Nat.lt_of_not_le hv) "ROLLBACK" [] handlers (by decide),
        appendPlan, Request.handlers, discardAll_eq, newResponse_apply]

/-! ## Sample values -/

/-- An upper-case letter is its own upper case. -/
theorem toUpper_of_isUpper {ch : Char} (h : ch.isUpper) : ch.toUpper = ch := by
  simp only [Char.isUpper, Bool.and_eq_true, decide_eq_true_eq] at h
  have : ch.val.toNat ≤ 90 := h.2
  simp only [Char.toUpper, Char.toNat]
  rw [if_neg (by omega)]

/-- Built-ins for sample values: `dict` of a map, `int(1000 * timeout)` of an integer,
`str.upper` on ASCII letters, and `int` as Lean's `String.toInt?`. -/
def Builtins.sample : Builtins where
  dict
    | .map entries => .ok entries
    | _ => .error .typeError
  millis
    | .int n => .ok (1000 * n)
    | _ => .error .typeError
  upper s := ⟨s.data.map Char.toUpper⟩
  upper_of_isUpper s h := by
    show String.mk _ = s
    rw [List.map_congr_left fun ch hch => toUpper_of_isUpper (List.all_eq_true.mp h ch hch),
      List.map_id']
  parseInt s := s.toInt?

/-- The value of a non-empty string of decimal digits. -/
def digitsValue (ds : List Char) : Option Int :=
  if ds ≠ [] ∧ ds.all Char.isDigit then some (ds.foldl (fun n c => 10 * n + (c.toNat - 48)) 0)
  else none

/-- `int(s)` on an optionally signed string of decimal digits, and `ValueError` on anything else:
a sample of Python's `int`, which also takes blanks and underscores. -/
def decimalInt (s : String) : Option Int :=
  match s.data with
  | '-' :: ds => (digitsValue ds).map fun n => -n
  | '+' :: ds => digitsValue ds
  | ds => digitsValue ds

/-- `Builtins.sample` with `decimalInt` for `int`. -/
def Builtins.decimal : Builtins :=
  { Builtins.sample with parseInt := decimalInt }

example : decimalInt "10" = some 10 ∧ decimalInt "-3" = some (-3) ∧ decimalInt "x" = none ∧
    decimalInt "" = none := by
  decide

/-! ## `last_bookmark` -/

section LastBookmark

variable {n : String → Int}

/-- `_last_bookmark` on the first two bookmarks: the loop goes on from the later one by the
integer after the last colon, the second on a tie. -/
theorem lastBookmark_cons_cons {r s : String} {rest : List Value}
    (hr : b.parseInt (afterLastColon r) = some (n r))
    (hs : b.parseInt (afterLastColon s) = some (n s)) :
    lastBookmark b (.list (.str r :: .str s :: rest)) =
      lastBookmark b (.list (.str (if n r > n s then r else s) :: rest)) := by
  simp only [lastBookmark, Value.iter, Except.ok_bind, List.foldlM_cons, pure_bind, lastBookmark2,
    hr, hs]
  split_ifs <;> rfl

/-- The head of `pre ++ r :: post` is `r` or an element of `pre`. -/
theorem head_le_of_eq_append {s r : String} {rest pre post : List String}
    (heq : s :: rest = pre ++ r :: post) (hpre : ∀ x ∈ pre, n x ≤ n r) : n s ≤ n r := by
  cases pre with
  | nil => cases heq; exact le_rfl
  | cons p pre => cases heq; exact hpre s (List.mem_cons_self _ _)

/-- The loop of `last_bookmark` over bookmarks with integer suffixes ends on the last one whose
suffix is the largest. -/
theorem lastBookmark_cons (r : String) (rest : List String)
    (hn : ∀ s ∈ r :: rest, b.parseInt (afterLastColon s) = some (n s)) :
    ∃ pre r' post, r :: rest = pre ++ r' :: post ∧
      lastBookmark b (.list ((r :: rest).map .str)) = .ok (.str r') ∧
      (∀ s ∈ pre, n s ≤ n r') ∧ ∀ s ∈ post, n s < n r' := by
  induction rest generalizing r with
  | nil => exact ⟨[], r, [], rfl, rfl, by simp, by simp⟩
  | cons s rest ih =>
    have hr := hn r (List.mem_cons_self _ _)
    have hs := hn s (List.mem_cons_of_mem _ (List.mem_cons_self _ _))
    have hrest : ∀ x ∈ rest, b.parseInt (afterLastColon x) = some (n x) :=
      fun x hx => hn x (List.mem_cons_of_mem _ (List.mem_cons_of_mem _ hx))
    simp only [List.map_cons]
    rw [lastBookmark_cons_cons b hr hs]
    by_cases h : n r > n s
    · -- `r` stays, `s` is dropped
      rw [if_pos h]
      obtain ⟨pre, r', post, heq, hres, hpre, hpost⟩ :=
        ih r (List.forall_mem_cons.mpr ⟨hr, hrest⟩)
      cases pre with
      | nil =>
        cases heq
        refine ⟨[], r, s :: rest, rfl, by simpa using hres, by simp, ?_⟩
        exact List.forall_mem_cons.mpr ⟨h, hpost⟩
      | cons p pre =>
        cases heq
        have hp := hpre r (List.mem_cons_self _ _)
        refine ⟨r :: s :: pre, r', post, by simp, by simpa using hres, ?_, hpost⟩
        simp only [List.mem_cons, forall_eq_or_imp]
        exact ⟨hp, by omega, fun x hx => hpre x (List.mem_cons_of_mem _ hx)⟩
    · -- `s` takes over
      rw [if_neg h]
      obtain ⟨pre, r', post, heq, hres, hpre, hpost⟩ :=
        ih s (List.forall_mem_cons.mpr ⟨hs, hrest⟩)
      have hsr := head_le_of_eq_append heq hpre
      refine ⟨r :: pre, r', post, by rw [heq]; rfl, by simpa using hres, ?_, hpost⟩
      exact List.forall_mem_cons.mpr ⟨by omega, hpre⟩

/-- `last_bookmark` over strings whose text after the last `:` is an integer `n s`: with none it
returns `None`; otherwise it returns the last bookmark whose integer is the largest, so the
integer of the result is the same for every order of the bookmarks. -/
theorem lastBookmark_maxSuffix (ss : List String)
    (hn : ∀ s ∈ ss, b.parseInt (afterLastColon s) = some (n s)) :
    (ss = [] → lastBookmark b (.list (ss.map .str)) = .ok .null) ∧
    (ss ≠ [] → ∃ pre r post, ss = pre ++ r :: post ∧
      lastBookmark b (.list (ss.map .str)) = .ok (.str r) ∧
      (∀ s ∈ pre, n s ≤ n r) ∧ ∀ s ∈ post, n s < n r) ∧
    ∀ ss' : List String, ss'.Perm ss → ss ≠ [] → ∃ r r', lastBookmark b (.list (ss.map .str)) = .ok (.str r) ∧
      lastBookmark b (.list (ss'.map .str)) = .ok (.str r') ∧ n r = n r' := by
  have hmax : ∀ l : List String, (∀ s ∈ l, b.parseInt (afterLastColon s) = some (n s)) → l ≠ [] →
      ∃ r, lastBookmark b (.list (l.map .str)) = .ok (.str r) ∧ r ∈ l ∧ ∀ s ∈ l, n s ≤ n r := by
    intro l hl hne
    obtain ⟨r, rest, rfl⟩ := List.exists_cons_of_ne_nil hne
    obtain ⟨pre, r', post, heq, hres, hpre, hpost⟩ := lastBookmark_cons b r rest hl
    refine ⟨r', hres, by rw [heq]; simp, fun s hs => ?_⟩
    rw [heq] at hs
    simp only [List.mem_append, List.mem_cons] at hs
    rcases hs with hs | rfl | hs
    exacts [hpre s hs, le_rfl, (hpost s hs).le]
  refine ⟨fun h => by subst h; rfl, fun hne => ?_, fun ss' hp hne => ?_⟩
  · obtain ⟨r, rest, rfl⟩ := List.exists_cons_of_ne_nil hne
    exact lastBookmark_cons b r rest hn
  · obtain ⟨r, hr, hrmem, hrle⟩ := hmax ss hn hne
    obtain ⟨r', hr', hrmem', hrle'⟩ := hmax ss' (fun s hs => hn s (hp.subset hs))
      (fun h => hne (List.Perm.eq_nil (h ▸ hp.symm)))
    exact ⟨r, r', hr, hr', le_antisymm (hrle' r (hp.symm.subset hrmem)) (hrle r' (hp.subset hrmem'))⟩

theorem lastBookmark_maxSuffix_numeric :
    (∀ s ∈ ["b:9", "b:10", "a:10"], Builtins.decimal.parseInt (afterLastColon s) =
      some ((decimalInt (afterLastColon s)).getD 0)) ∧
    lastBookmark Builtins.decimal (.list (["b:9", "b:10", "a:10"].map .str)) = .ok (.str "a:10") ∧
    (["b:9", "b:10", "a:10"] ≠ [] → ∃ pre r post, ["b:9", "b:10", "a:10"] = pre ++ r :: post ∧
      lastBookmark Builtins.decimal (.list (["b:9", "b:10", "a:10"].map .str)) = .ok (.str r) ∧
      (∀ s ∈ pre, (decimalInt (afterLastColon s)).getD 0 ≤ (decimalInt (afterLastColon r)).getD 0) ∧
      ∀ s ∈ post, (decimalInt (afterLastColon s)).getD 0 < (decimalInt (afterLastColon r)).getD 0) :=
  ⟨by decide, rfl,
    (lastBookmark_maxSuffix Builtins.decimal (n := fun s => (decimalInt (afterLastColon s)).getD 0)
      ["b:9", "b:10", "a:10"] (by decide)).2.1⟩

/-- `_last_bookmark` on the first two bookmarks raises `ValueError` when either suffix is not an
integer, and the loop ends there. -/
theorem lastBookmark_cons_cons_of_none {r s : String} {rest : List Value}
    (h : b.parseInt (afterLastColon r) = none ∨ b.parseInt (afterLastColon s) = none) :
    lastBookmark b (.list (.str r :: .str s :: rest)) = .error .valueError := by
  simp only [lastBookmark, Value.iter, Except.ok_bind, List.foldlM_cons, pure_bind, lastBookmark2]
  rcases h with h | h
  · simp only [h]
    rfl
  · cases b.parseInt (afterLastColon r) <;> simp only [h] <;> rfl

/-- Two or more bookmarks, one of whose suffixes is not an integer: `last_bookmark` raises
`ValueError`, at the first pair that holds one. -/
theorem lastBookmark_of_none (r s : String) (rest : List String)
    (h : ∃ x ∈ r :: s :: rest, b.parseInt (afterLastColon x) = none) :
    lastBookmark b (.list ((r :: s :: rest).map .str)) = .error .valueError := by
  induction rest generalizing r s with
  | nil =>
    obtain ⟨x, hx, hnone⟩ := h
    simp only [List.mem_cons, List.mem_singleton, List.not_mem_nil, or_false] at hx
    rcases hx with rfl | rfl
    exacts [lastBookmark_cons_cons_of_none b (.inl hnone), lastBookmark_cons_cons_of_none b (.inr hnone)]
  | cons t rest ih =>
    cases hr : b.parseInt (afterLastColon r) with
    | none => exact lastBookmark_cons_cons_of_none b (.inl hr)
    | some m =>
    cases hs : b.parseInt (afterLastColon s) with
    | none => exact lastBookmark_cons_cons_of_none b (.inr hs)
    | some k =>
      -- both are integers: the loop goes on from the later one, and the bad bookmark is further on
      simp only [List.map_cons]
      rw [lastBookmark_cons_cons b (n := fun x => (b.parseInt (afterLastColon x)).getD 0)
        (by simp [hr]) (by simp [hs])]
      obtain ⟨x, hx, hnone⟩ := h
      refine ih _ t ⟨x, ?_, hnone⟩
      simp only [List.mem_cons] at hx ⊢
      rcases hx with rfl | rfl | hx
      · simp [hr] at hnone
      · simp [hs] at hnone
      · exact .inr hx

/-- `last_bookmark` over string bookmarks checks them only in pairs: one bookmark is returned as it
is, whatever its text, while two or more raise `ValueError` exactly when the text after the last
`:` of one of them is not an integer. -/
theorem lastBookmark_valueError_iff :
    (∀ s, lastBookmark b (.list [.str s]) = .ok (.str s)) ∧
    ∀ ss : List String, 2 ≤ ss.length →
      (lastBookmark b (.list (ss.map .str)) = .error .valueError ↔
        ∃ s ∈ ss, b.parseInt (afterLastColon s) = none) := by
  refine ⟨fun _ => rfl, fun ss h2 => ?_⟩
  match ss, h2 with
  | r :: s :: rest, _ =>
    refine ⟨fun herr => ?_, lastBookmark_of_none b r s rest⟩
    by_contra hall
    push_neg at hall
    obtain ⟨-, r', -, -, hres, -⟩ := lastBookmark_cons b (n := fun x => (b.parseInt (afterLastColon x)).getD 0)
      r (s :: rest) fun x hx => by
        obtain ⟨m, hm⟩ := Option.ne_none_iff_exists'.mp (hall x hx)
        simp [hm]
    rw [hres] at herr
    cases herr

/-- Of the bookmarks `b:9` and `b:x`, the second has no integer suffix: `last_bookmark` raises
`ValueError`. -/
theorem lastBookmark_valueError_iff_invalid :
    lastBookmark Builtins.decimal (.list (["b:9", "b:x"].map .str)) = .error .valueError ∧
    2 ≤ ["b:9", "b:x"].length ∧
    (lastBookmark Builtins.decimal (.list (["b:9", "b:x"].map .str)) = .error .valueError ↔
      ∃ s ∈ ["b:9", "b:x"], Builtins.decimal.parseInt (afterLastColon s) = none) :=
  ⟨rfl, by decide, (lastBookmark_valueError_iff Builtins.decimal).2 _ (by decide)⟩

end LastBookmark

end Neobolt
