import Neobolt.Connection.Fetch
import Mathlib.Algebra.Order.Ring.Nat

/-!
# The reply pipeline

`fetch_all` over replies that follow Bolt ordering: for each queued request in turn, zero or more
`RECORD`s and one summary. A run of `SUCCESS` and `IGNORED` summaries empties the queue and
returns the counts. A `FAILURE` makes the response's `on_failure` send one `RESET`, whose own
`fetch_all` consumes the `IGNORED`s of the later requests and the `RESET`'s `SUCCESS`, and then
raises the error hydrated from the failure. `InitResponse` overrides `on_failure`: its `FAILURE`
raises at once, with no `RESET`.

## Main definitions

* `Reply`, `Reply.messages`: the reply to one request and its messages on the wire.
* `Reply.recordEvents`, `Reply.summaryEvents`: the handler calls a reply leads to.

## Main results

* `Connection.fetchAllLoop_reply`: one response's records and summary.
* `Connection.fetchAllLoop_replies`: a run of completed replies empties the queue.
* `Connection.fetchAll_boltOrdering`: both outcomes of `fetch_all` under Bolt ordering.
* `Connection.fetchAll_init_failure`: the `FAILURE` of an `InitResponse` sends no `RESET`.
-/

namespace Neobolt

/-- The reply to one request: its records, then a summary message with its field count,
signature and field. -/
structure Reply where
  records : List Value
  size : Nat
  signature : UInt8
  field : Value

namespace Reply

variable (codec : Codec)

/-- The reply's messages on the wire: one `RECORD` per record, then the summary. -/
def messages (p : Reply) : List Incoming :=
  p.records.map (.message 1 0x71) ++ [.message p.size p.signature p.field]

/-- The summary's `summary_metadata or {}`. -/
def metadata (p : Reply) : Metadata :=
  (codec.unpackMap p.field).getD []

/-- The calls of `r`'s `on_records` handler: one per record, with that record. -/
def recordEvents (r : Response) (p : Reply) : List Event :=
  p.records.flatMap fun v => r.call .onRecords (.records r.id [v])

/-- The call of `r`'s handler for the summary, with its metadata, and then of `on_summary`. -/
def summaryEvents (r : Response) (p : Reply) : List Event :=
  (if p.signature = 0x70 then r.call .onSuccess (.success r.id (p.metadata codec))
    else if p.signature = 0x7E then r.call .onIgnored (.ignored r.id (p.metadata codec))
    else r.call .onFailure (.failure r.id (p.metadata codec))) ++
  r.call .onSummary (.summary r.id)

/-- A reply that ends in a `SUCCESS` or an `IGNORED` of at most one field. -/
def Completes (p : Reply) : Prop :=
  p.size ≤ 1 ∧ (p.signature = 0x70 ∨ p.signature = 0x7E)

@[simp]
theorem length_messages (p : Reply) : p.messages.length = p.records.length + 1 := by
  simp [messages]

end Reply

namespace Connection

variable (codec : Codec) {c : Connection} {r : Response} {rs : List (Option Response)}
  {tail : List Incoming}

/-- The handlers of `r` that a completed reply calls return. -/
def ReturnsOnReply (r : Response) : Prop :=
  ∀ name, name ≠ .onFailure → r.ReturnsOn name

/-- The records of the head response go to its `on_records`, one pass of the loops each. -/
theorem fetchAllLoop_records (hret : r.ReturnsOn .onRecords) (h : c.Live)
    (hq : c.responses = some r :: rs) (vs : List Value)
    (hr : c.wire.reads = vs.map (.message 1 0x71) ++ tail) (n d s : Nat) :
    fetchAllLoop codec (n + vs.length) d s c = fetchAllLoop codec n (d + vs.length) s
      { c with
        wire := { c.wire with reads := tail }
        log := c.log ++ vs.flatMap fun v => r.call .onRecords (.records r.id [v]) } := by
  induction vs generalizing c d with
  | nil =>
    obtain ⟨pv, o, q, cl, df, po, dr, fi, ni, ⟨rd, wf, se, sc⟩, lg⟩ := c
    simp_all
  | cons v vs ih =>
    have hr' : c.wire.reads = .message 1 0x71 v :: (vs.map (.message 1 0x71) ++ tail) := by
      simpa using hr
    rw [List.length_cons, ← Nat.add_assoc,
      fetchAllLoop_of_ok codec hq (fetchMessage_of_record codec h hq hret hr' le_rfl)]
    simp only [Nat.add_zero]
    rw [ih (c := { c with
        wire := { c.wire with reads := vs.map (.message 1 0x71) ++ tail }
        log := c.log ++ r.call .onRecords (.records r.id [v]) }) ⟨h.closed, h.defunct, h.inbox⟩ hq rfl]
    simp [Nat.add_assoc, Nat.add_comm 1]

/-- One response's reply: its records, then its `SUCCESS` or `IGNORED`, which pops it. -/
theorem fetchAllLoop_reply {p : Reply} (hret : ReturnsOnReply r) (hp : p.Completes) (h : c.Live)
    (hq : c.responses = some r :: rs) (hr : c.wire.reads = p.messages ++ tail) (n d s : Nat) :
    fetchAllLoop codec (n + p.messages.length) d s c =
      fetchAllLoop codec n (d + p.records.length) (s + 1)
        { c with
          responses := rs, wire := { c.wire with reads := tail }
          log := c.log ++ p.recordEvents r ++ p.summaryEvents codec r } := by
  obtain ⟨vs, size, signature, field⟩ := p
  obtain ⟨hs, hsig⟩ := hp
  dsimp only at hs hsig ⊢
  have hr' : c.wire.reads = vs.map (.message 1 0x71) ++ (.message size signature field :: tail) := by
    simpa [Reply.messages] using hr
  have h' : Live { c with
      wire := { c.wire with reads := .message size signature field :: tail }
      log := c.log ++ vs.flatMap fun v => r.call .onRecords (.records r.id [v]) } :=
    ⟨h.closed, h.defunct, h.inbox⟩
  rw [Reply.length_messages, show n + (vs.length + 1) = n + 1 + vs.length by omega,
    fetchAllLoop_records codec (hret _ (by decide)) h hq vs hr']
  rcases hsig with rfl | rfl
  · rw [fetchAllLoop_of_ok codec (by exact hq) (fetchMessage_of_success codec h' (by exact hq)
      (hret _ (by decide)) (hret _ (by decide)) rfl hs)]
    simp [Reply.recordEvents, Reply.summaryEvents, Reply.metadata]
  · rw [fetchAllLoop_of_ok codec (by exact hq) (fetchMessage_of_ignored codec h' (by exact hq)
      (hret _ (by decide)) (hret _ (by decide)) rfl hs)]
    simp [Reply.recordEvents, Reply.summaryEvents, Reply.metadata]

/-- The handler calls of a run of replies to the responses `rs`, in order. -/
def replyEvents (rs : List Response) (ps : List Reply) : List Event :=
  (List.zipWith (fun r p => p.recordEvents r ++ p.summaryEvents codec r) rs ps).flatten

/-- Replies that all complete, one per response at the head of the queue, pop those responses:
the loops count their records and summaries, having called each response's handlers in turn. -/
theorem fetchAllLoop_replies {rs' : List Response} {ps : List Reply}
    (hrel : List.Forall₂ (fun r p => ReturnsOnReply r ∧ p.Completes) rs' ps) (h : c.Live)
    (hq : c.responses = rs'.map some ++ rs)
    (hr : c.wire.reads = (ps.map Reply.messages).flatten ++ tail) (n d s : Nat) :
    fetchAllLoop codec (n + (ps.map Reply.messages).flatten.length) d s c =
      fetchAllLoop codec n (d + (ps.map fun p => p.records.length).sum) (s + ps.length)
        { c with
          responses := rs, wire := { c.wire with reads := tail }
          log := c.log ++ replyEvents codec rs' ps } := by
  induction hrel generalizing c d s with
  | nil =>
    obtain ⟨pv, o, q, cl, df, po, dr, fi, ni, ⟨rd, wf, se, sc⟩, lg⟩ := c
    simp_all [replyEvents]
  | @cons r p rs' ps hrp _ ih =>
    have hr' : c.wire.reads = p.messages ++ ((ps.map Reply.messages).flatten ++ tail) := by
      simpa using hr
    rw [List.map_cons, List.flatten_cons, List.length_append, Nat.add_comm p.messages.length,
      ← Nat.add_assoc, fetchAllLoop_reply codec hrp.1 hrp.2 h (by simpa using hq) hr']
    refine (ih ?_ ?_ rfl _ _).trans ?_
    · exact ⟨h.closed, h.defunct, h.inbox⟩
    · simp
    · simp [replyEvents, Nat.add_assoc, Nat.add_comm 1]

/-- Each response of `rs` has handlers that return, and each reply completes. -/
theorem forall₂_returnsOnReply {rs : List Response} {ps : List Reply}
    (hret : ∀ r ∈ rs, r.Returns) (hp : List.Forall₂ (fun _ p => p.Completes) rs ps) :
    List.Forall₂ (fun r p => ReturnsOnReply r ∧ p.Completes) rs ps :=
  (List.forall₂_and_left _ _).2 ⟨fun r hr name _ => hret r hr name, hp⟩

/-- The `RESET` of a `FAILURE` calls no handler on its `SUCCESS` or `IGNORED`. -/
theorem replyEvents_reset {post : List Response} {igs : List Reply}
    (hlen : post.length = igs.length) {pr : Reply} (hp : pr.Completes) (id : Nat) :
    replyEvents codec (post ++ [⟨id, .plain, resetHandlers⟩]) (igs ++ [pr]) =
      replyEvents codec post igs := by
  obtain ⟨-, hsig | hsig⟩ := hp <;>
  simp [replyEvents, List.zipWith_append _ _ _ _ _ hlen, Reply.recordEvents, Reply.summaryEvents,
    Response.call, resetHandlers, hsig]

/-- `reset()` on a live connection with an empty `Outbox`: it queues the `RESET`'s response, hands
the framed `RESET` to `sendall`, leaves the `Outbox` empty again, and runs `fetchAll`. -/
theorem reset_sends {F : ConnM (Nat × Nat)} (hbox : c.outbox.Layout [] [])
    (hm : c.outbox.maxChunkSize < 65536) (h : c.Live)
    (hw : c.wire.writeFails c.wire.sent.length = false) :
    ∃ o data, o.Layout [] [] ∧ o.maxChunkSize = c.outbox.maxChunkSize ∧
      Frames c.outbox.maxChunkSize [(codec.packStruct 0x0F []).1.flatten] data ∧
      reset codec F c = discard F
        { c with
          nextId := c.nextId + 1, outbox := o, wire := { c.wire with sent := c.wire.sent ++ [data] }
          responses := c.responses ++ [some (⟨c.nextId, .plain, resetHandlers⟩ : Response)] } := by
  obtain ⟨o, cs, hwo, hmax, hlay, hvalid, hflat⟩ := hbox.writeMessage hm
    (codec.packStruct_writes 0x0F [] (codec.packStruct_nil 0x0F))
  have hview : o.chunk.chunk.view = encodeMessage cs := by
    rw [hlay.view_of_nil, encodeMessage_eq]; simp
  refine ⟨o.chunk.chunk.clear, o.chunk.chunk.view, Outbox.layout_clear _, hmax,
    ⟨[cs], .cons ⟨hvalid, hflat⟩ .nil, by simp [hview]⟩, ?_⟩
  rw [reset_apply codec hwo, EStateM.bind_apply, sendAll_of_ok ?_ ?_ ?_ ?_]
  exacts [by simp [hview, encodeMessage], h.closed, h.defunct, hw]

/-- A `FAILURE` of the head response, not an `InitResponse`: its records, then one `RESET`, whose
`fetch_all` consumes the replies to the later requests and to the `RESET`, and then the hydrated
error. -/
theorem fetchAllLoop_failure {rk : Response} {post : List Response} {pk pr : Reply}
    {igs : List Reply} (hk : rk.kind ≠ .init) (hret : rk.Returns) (hpk : pk.size ≤ 1)
    (hsig : pk.signature = 0x7F)
    (hrel : List.Forall₂ (fun r p => ReturnsOnReply r ∧ p.Completes) post igs)
    (hpr : pr.Completes) (h : c.Live) (hq : c.responses = some rk :: post.map some)
    (hr : c.wire.reads = pk.messages ++ ((igs ++ [pr]).map Reply.messages).flatten ++ tail)
    (hbox : c.outbox.Layout [] []) (hm : c.outbox.maxChunkSize < 65536)
    (hw : c.wire.writeFails c.wire.sent.length = false) (n d s : Nat) :
    ∃ c', fetchAllLoop codec
        (n + 2 + ((igs ++ [pr]).map Reply.messages).flatten.length + pk.records.length) d s c =
        .error (.raised (codec.hydrate (pk.metadata codec))) c' ∧
      c'.responses = [] ∧ c'.outbox.Layout [] [] ∧
      (∃ data, Frames c.outbox.maxChunkSize [(codec.packStruct 0x0F []).1.flatten] data ∧
        c'.wire.sent = c.wire.sent ++ [data]) ∧
      c'.wire.reads = tail ∧ c'.Live ∧
      c'.log = c.log ++ pk.recordEvents rk ++ replyEvents codec post igs ++
        pk.summaryEvents codec rk := by
  obtain ⟨vs, size, signature, field⟩ := pk
  dsimp only at hpk hsig ⊢
  subst hsig
  have hr' : c.wire.reads = vs.map (.message 1 0x71) ++
      (.message size 0x7F field :: (((igs ++ [pr]).map Reply.messages).flatten ++ tail)) := by
    simpa [Reply.messages] using hr
  rw [fetchAllLoop_records codec (hret _) h hq vs hr',
    show n + 2 + ((igs ++ [pr]).map Reply.messages).flatten.length =
      (n + 1 + ((igs ++ [pr]).map Reply.messages).flatten.length) + 1 by omega]
  -- the `FAILURE` pops `rk` and runs its `on_failure`, which queues and sends `RESET`
  set c1 : Connection := { c with
    wire := { c.wire with reads := .message size 0x7F field ::
      (((igs ++ [pr]).map Reply.messages).flatten ++ tail) }
    log := c.log ++ vs.flatMap fun v => rk.call .onRecords (.records rk.id [v]) }
  have h1 : c1.Live := ⟨h.closed, h.defunct, h.inbox⟩
  have hq1 : c1.responses = some rk :: post.map some := hq
  rw [fetchAllLoop_succ_of_some codec hq1]
  simp only [EStateM.bind_apply]
  rw [fetchMessage_of_failure codec h1 hq1 rfl hpk, onFailure_of_ne_init codec hk]
  simp only [EStateM.bind_apply]
  set c2 : Connection := { c1 with
    wire := { c1.wire with reads := ((igs ++ [pr]).map Reply.messages).flatten ++ tail }
    responses := post.map some }
  obtain ⟨o, data, hlay, -, hdata, hsends⟩ := reset_sends codec (F := fetchAllLoop codec _ 0 0)
    (c := c2) hbox hm ⟨h.closed, h.defunct, h.inbox⟩ hw
  rw [hsends]
  simp only [EStateM.bind_apply, EStateM.discard_apply]
  -- the `RESET`'s `fetch_all` consumes the later replies and the `RESET`'s own
  have hreset : ReturnsOnReply ⟨c.nextId, .plain, resetHandlers⟩ := by
    intro name hn cb hcb
    simp [resetHandlers, hn] at hcb
  rw [fetchAllLoop_replies codec (List.rel_append hrel (.cons ⟨hreset, hpr⟩ .nil)) ?_
    (?_ : _ = _ ++ []) (?_ : _ = _ ++ tail), fetchAllLoop_of_nil codec ?_]
  rotate_left
  iterate 4 first | exact ⟨h.closed, h.defunct, h.inbox⟩ | rfl | simp
  simp only [invoke_of_returnsOn (hret _), raise, EStateM.throw_apply]
  refine ⟨_, rfl, rfl, hlay, ⟨data, hdata, rfl⟩, rfl, ⟨h.closed, h.defunct, h.inbox⟩, ?_⟩
  rw [replyEvents_reset codec hrel.length_eq hpr]
  simp [Reply.recordEvents, Reply.summaryEvents, Reply.metadata]

/-- Replies to the whole queue, none a `FAILURE`: `fetch_all` returns the number of records and
of responses, with the queue empty. -/
theorem fetchAll_of_replies {rs : List Response} {ps : List Reply}
    (hrel : List.Forall₂ (fun r p => ReturnsOnReply r ∧ p.Completes) rs ps) (h : c.Live)
    (hq : c.responses = rs.map some) (hr : c.wire.reads = (ps.map Reply.messages).flatten ++ tail)
    {fuel : Nat} (hfuel : (ps.map Reply.messages).flatten.length < fuel) :
    fetchAll codec fuel c = .ok ((ps.map fun p => p.records.length).sum, rs.length)
      { c with
        responses := [], wire := { c.wire with reads := tail }
        log := c.log ++ replyEvents codec rs ps } := by
  obtain ⟨n, rfl⟩ : ∃ n, fuel = n + 1 + (ps.map Reply.messages).flatten.length :=
    ⟨fuel - (ps.map Reply.messages).flatten.length - 1, by omega⟩
  rw [fetchAll, fetchAllLoop_replies codec hrel h (hq.trans (List.append_nil _).symm) hr,
    fetchAllLoop_of_nil codec rfl, hrel.length_eq, Nat.zero_add, Nat.zero_add]

/-- A `FAILURE` for the response `rk` after completed replies to the responses before it: the
replies before it, then `fetchAllLoop_failure`. -/
theorem fetchAll_of_failure {pre post : List Response} {rk : Response} {ps igs : List Reply}
    {pk pr : Reply} (hpre : List.Forall₂ (fun r p => ReturnsOnReply r ∧ p.Completes) pre ps)
    (hk : rk.kind ≠ .init) (hret : rk.Returns) (hpk : pk.size ≤ 1) (hsig : pk.signature = 0x7F)
    (hpost : List.Forall₂ (fun r p => ReturnsOnReply r ∧ p.Completes) post igs)
    (hpr : pr.Completes) (h : c.Live) (hq : c.responses = (pre ++ rk :: post).map some)
    (hr : c.wire.reads = (ps.map Reply.messages).flatten ++ pk.messages ++
      ((igs ++ [pr]).map Reply.messages).flatten ++ tail)
    (hbox : c.outbox.Layout [] []) (hm : c.outbox.maxChunkSize < 65536)
    (hw : c.wire.writeFails c.wire.sent.length = false) {fuel : Nat}
    (hfuel : (ps.map Reply.messages).flatten.length + pk.messages.length +
      ((igs ++ [pr]).map Reply.messages).flatten.length < fuel) :
    ∃ c', fetchAll codec fuel c = .error (.raised (codec.hydrate (pk.metadata codec))) c' ∧
      c'.responses = [] ∧ c'.outbox.Layout [] [] ∧
      (∃ data, Frames c.outbox.maxChunkSize [(codec.packStruct 0x0F []).1.flatten] data ∧
        c'.wire.sent = c.wire.sent ++ [data]) ∧
      c'.wire.reads = tail ∧ c'.Live ∧
      c'.log = c.log ++ replyEvents codec pre ps ++ pk.recordEvents rk ++
        replyEvents codec post igs ++ pk.summaryEvents codec rk := by
  rw [Reply.length_messages] at hfuel
  obtain ⟨n, rfl⟩ : ∃ n, fuel = (n + 2 + ((igs ++ [pr]).map Reply.messages).flatten.length +
      pk.records.length) + (ps.map Reply.messages).flatten.length :=
    ⟨fuel - (ps.map Reply.messages).flatten.length - pk.records.length -
      ((igs ++ [pr]).map Reply.messages).flatten.length - 2, by omega⟩
  rw [fetchAll, fetchAllLoop_replies codec hpre h (by simpa using hq)
    (by simpa only [List.append_assoc] using hr)]
  obtain ⟨c', hc', hq', hbox', hsent, hr', hl, hlog⟩ := fetchAllLoop_failure codec hk hret hpk hsig
    hpost hpr (c := { c with
      responses := some rk :: post.map some
      wire := { c.wire with reads := pk.messages ++ (((igs ++ [pr]).map Reply.messages).flatten ++ tail) }
      log := c.log ++ replyEvents codec pre ps }) ⟨h.closed, h.defunct, h.inbox⟩ rfl
    (List.append_assoc _ _ _).symm hbox hm hw n _ _
  exact ⟨c', hc', hq', hbox', hsent, hr', hl, by rw [hlog]⟩

/-- `fetch_all` over a reply stream in Bolt ordering, on a connection that can read and whose
queued responses have handlers that return: (a) with no `FAILURE`, it returns the number of
records and of responses, having called each response's handlers on its own reply, and leaves
the queue empty; (b) with a `FAILURE` for a response `rk` that is not an `InitResponse`, after
the replies before it, it sends one `RESET` from an empty `Outbox` and raises the error hydrated
from the failure, with the queue and the `Outbox` empty and the connection still able to read.
Any fuel above the number of messages is enough. -/
theorem fetchAll_boltOrdering {rs : List Response} (h : c.Live) (hq : c.responses = rs.map some)
    (hret : ∀ r ∈ rs, r.Returns) :
    (∀ (ps : List Reply) (tail : List Incoming) (fuel : Nat),
      List.Forall₂ (fun _ p => p.Completes) rs ps →
      c.wire.reads = (ps.map Reply.messages).flatten ++ tail →
      (ps.map Reply.messages).flatten.length < fuel →
      fetchAll codec fuel c = .ok ((ps.map fun p => p.records.length).sum, rs.length)
        { c with
          responses := [], wire := { c.wire with reads := tail }
          log := c.log ++ replyEvents codec rs ps }) ∧
    (∀ (pre post : List Response) (rk : Response) (ps igs : List Reply) (pk pr : Reply)
      (tail : List Incoming) (fuel : Nat),
      rs = pre ++ rk :: post → rk.kind ≠ .init →
      List.Forall₂ (fun _ p => p.Completes) pre ps → pk.size ≤ 1 → pk.signature = 0x7F →
      List.Forall₂ (fun _ p => p.Completes) post igs → pr.Completes →
      c.wire.reads = (ps.map Reply.messages).flatten ++ pk.messages ++
        ((igs ++ [pr]).map Reply.messages).flatten ++ tail →
      c.outbox.Layout [] [] → c.outbox.maxChunkSize < 65536 →
      c.wire.writeFails c.wire.sent.length = false →
      (ps.map Reply.messages).flatten.length + pk.messages.length +
        ((igs ++ [pr]).map Reply.messages).flatten.length < fuel →
      ∃ c', fetchAll codec fuel c = .error (.raised (codec.hydrate (pk.metadata codec))) c' ∧
        c'.responses = [] ∧ c'.outbox.Layout [] [] ∧
        (∃ data, Frames c.outbox.maxChunkSize [(codec.packStruct 0x0F []).1.flatten] data ∧
          c'.wire.sent = c.wire.sent ++ [data]) ∧
        c'.wire.reads = tail ∧ c'.Live ∧
        c'.log = c.log ++ replyEvents codec pre ps ++ pk.recordEvents rk ++
          replyEvents codec post igs ++ pk.summaryEvents codec rk) := by
  refine ⟨fun ps tail fuel hp hr hfuel =>
    fetchAll_of_replies codec (forall₂_returnsOnReply hret hp) h hq hr hfuel, ?_⟩
  rintro pre post rk ps igs pk pr tail fuel rfl hk hpre hpk hsig hpost hpr hr hbox hm hw hfuel
  exact fetchAll_of_failure codec
    (forall₂_returnsOnReply (fun r hr => hret r (by simp [hr])) hpre) hk (hret rk (by simp))
    hpk hsig (forall₂_returnsOnReply (fun r hr => hret r (by simp [hr])) hpost) hpr h hq hr hbox hm
    hw hfuel

/-- Both outcomes on one request of a live connection: (a) one record and a `SUCCESS`, which
`fetch_all` hands to the handlers and counts; (b) a `FAILURE`, with the `SUCCESS` of the `RESET`
behind it, for which `fetch_all` sends the `RESET` and raises the error hydrated from the failure,
with the queue empty and every message read. -/
theorem fetchAll_boltOrdering_success_failure :
    (∀ r ∈ [(⟨0, .plain, returningHandlers⟩ : Response)], r.Returns) ∧
    ((Connection.sample false [.message 1 0x71 (.int 1), .message 1 0x70 (.map [])]
      [some ⟨0, .plain, returningHandlers⟩]).Live ∧
    ∃ c', fetchAll Codec.sample 3 (Connection.sample false
        [.message 1 0x71 (.int 1), .message 1 0x70 (.map [])] [some ⟨0, .plain, returningHandlers⟩]) =
      .ok (1, 1) c' ∧ c'.responses = [] ∧ c'.log = [.records 0 [.int 1], .success 0 [], .summary 0]) ∧
    ((Connection.sample false
        [.message 1 0x7F (.map [("code", .str "Neo.ClientError.Statement.SyntaxError")]),
          .message 0 0x70 .null] [some ⟨0, .plain, returningHandlers⟩]).Live ∧
    ∃ c', fetchAll Codec.sample 3 (Connection.sample false
        [.message 1 0x7F (.map [("code", .str "Neo.ClientError.Statement.SyntaxError")]),
          .message 0 0x70 .null] [some ⟨0, .plain, returningHandlers⟩]) =
      .error (.raised (Codec.sample.hydrate [("code", .str "Neo.ClientError.Statement.SyntaxError")])) c' ∧
      c'.responses = [] ∧ c'.wire.sent.length = 1 ∧ c'.wire.reads = [] ∧ c'.Live) := by
  have hret : ∀ r ∈ [(⟨0, .plain, returningHandlers⟩ : Response)], r.Returns := by
    simp [Response.Returns, Response.ReturnsOn, returningHandlers]
  obtain ⟨c', hf, hr, -, ⟨data, -, hsent⟩, hreads, hlive, -⟩ :=
    (fetchAll_boltOrdering Codec.sample (c := Connection.sample false
        [.message 1 0x7F (.map [("code", .str "Neo.ClientError.Statement.SyntaxError")]),
          .message 0 0x70 .null] [some ⟨0, .plain, returningHandlers⟩]) ⟨rfl, rfl, rfl⟩
      (by rfl) hret).2 [] [] _ [] []
      ⟨[], 1, 0x7F, .map [("code", .str "Neo.ClientError.Statement.SyntaxError")]⟩
      ⟨[], 0, 0x70, .null⟩ [] 3 rfl (by decide) .nil (by decide) rfl .nil ⟨by decide, .inl rfl⟩ rfl
      (Outbox.layout_init (by decide) (by decide)) (by decide) rfl (by decide)
  refine ⟨hret, ⟨⟨rfl, rfl, rfl⟩, _, (fetchAll_boltOrdering Codec.sample ⟨rfl, rfl, rfl⟩ rfl hret).1
    [⟨[.int 1], 1, 0x70, .map []⟩] [] 3 (.cons ⟨le_rfl, .inl rfl⟩ .nil) rfl (by decide), rfl, rfl⟩,
    ⟨rfl, rfl, rfl⟩, c', hf, hr, by rw [hsent]; rfl, hreads, hlive⟩

/-- The `FAILURE` of an `InitResponse`, with the `SUCCESS` of a `RESET` behind it: `fetch_all`
raises `ServiceUnavailable`, not the hydrated error, having sent nothing and called no handler. -/
theorem fetchAll_init_failure :
    ∃ c', fetchAll Codec.sample 3 (Connection.sample false
        [.message 1 0x7F (.map [("code", .str "Neo.ClientError.Statement.SyntaxError")]),
          .message 0 0x70 .null] [some ⟨0, .init, returningHandlers⟩]) =
      .error (.raised .serviceUnavailable) c' ∧ c'.wire.sent = [] ∧ c'.log = [] ∧
      Codec.sample.hydrate [("code", .str "Neo.ClientError.Statement.SyntaxError")] ≠
        .serviceUnavailable :=
  ⟨_, rfl, rfl, rfl, by decide⟩

end Connection

end Neobolt
