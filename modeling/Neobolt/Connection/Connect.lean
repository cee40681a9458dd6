import Neobolt.Connection.ServerInfo
import Neobolt.Connection.Fetch
import Neobolt.Wire.Inbox

/-!
# Connecting

`connect(address)` tries each resolved address in turn: `_connect` opens the socket, `_secure`
wraps it when an SSL context is configured, and `_handshake` sends the Bolt preamble with the
versions `3, 2, 1, 0`, reads the server's four-byte choice with one `s.recv(4)`, and builds a
`Connection` on which it runs `init()` (versions `1` and `2`) or `hello()` (version `3`). The first
address whose attempt does not raise gives the result; when every attempt raises, `connect`
raises the last error.

Each resolved address is an `Endpoint`: what the operating system does on `connect`, what the TLS
layer does, the handshake reply as the transport segments it, and the socket as the connection
sees it afterwards. The `select` loop before the `recv` is taken to end, that is, the server
answers or closes. The resolver is outside `direct.py`; its result is the list of endpoints.

Version `0` means the server supports none of the offered versions. `_handshake` shuts the
socket down and closes it, and then falls out of its `if` chain, so that it returns `None`, which
`connect` returns in turn.

## Main definitions

* `Metadata.update`, `serverMetadata`: `dict.update` and `self.server.metadata`.
* `Connection.init`, `Connection.hello`: the first message on a new connection.
* `Endpoint`, `connectSocket`, `secure`, `handshake`: `_connect`, `_secure`, `_handshake`.
* `attempt`, `connect`: one pass of the loop of `connect`, and `connect`.

## Main results

* `connect_eq_some`: a connection that `connect` returns was agreed on version `1`, `2` or `3`
  at one of the addresses, and its `init()` or `hello()` returned.
* `connect_firstOrLast`: the first address whose attempt does not raise gives the result of
  `connect`; when every address raises, the last one's exception is raised.
* `connect_returnsNone`: `connect` returns `None` once an address replies with version `0`.
* `handshake_segmented`: a reply that arrives in one piece is dispatched on its value, and one
  whose first segment is shorter raises `ProtocolError`.
-/

namespace Neobolt

/-- `d.update(m)`: a key of `d` keeps its place and takes `m`'s value, and the keys new to `d`
follow in `m`'s order. -/
def Metadata.update (d m : Metadata) : Metadata :=
  d.map (fun e => (e.1, (m.lookup e.1).getD e.2)) ++ m.filter fun e => (d.lookup e.1).isNone

@[simp]
theorem Metadata.update_nil (m : Metadata) : Metadata.update [] m = m := by
  simp [Metadata.update]

/-- `self.server.metadata`: `{}`, updated by the handler `on_success=self.server.metadata.update`
of the response `id` each time the log records that it ran. -/
def serverMetadata (id : Nat) (log : List Event) : Metadata :=
  log.foldl (fun md e => match e with
    | .success i m => if i = id then md.update m else md
    | _ => md) []

/-- The handlers of an `InitResponse` built by `init()` and `hello()`:
`on_success=self.server.metadata.update`, which returns. -/
def initHandlers (name : HandlerName) : Option Callback :=
  if name = .onSuccess then some .returns else none

namespace Connection

variable (codec : Codec) (b : Builtins)

/-- The body that `init()` and `hello()` share: queue the message `0x01` with `fields` and an
`InitResponse`, send it, fetch its reply, and evaluate `self.server.supports("bytes")`, whose
value goes to the packer. -/
def initWith (fields : List Value) (fuel : Nat) : ConnM Unit := do
  let response ← newResponse .init initHandlers
  append codec 0x01 fields (some response)
  sendAll
  discard (fetchAll codec fuel)
  let c ← get
  discard (ofExcept (supports b (serverMetadata response.id c.log) c.protocolVersion "bytes"))

/-- `init()`: `INIT` with the user agent and the auth details, for Bolt v1 and v2. -/
def init (userAgent : String) (authDict : Metadata) (fuel : Nat) : ConnM Unit :=
  initWith codec b [.str userAgent, .map authDict] fuel

/-- `hello()`: `HELLO` with the headers `{"user_agent": ...}` updated by the auth details, for
Bolt v3. -/
def hello (userAgent : String) (authDict : Metadata) (fuel : Nat) : ConnM Unit :=
  initWith codec b [.map (Metadata.update [("user_agent", .str userAgent)] authDict)] fuel

end Connection

/-- `Connection(agreed_version, address, s, **config)` on the socket of a finished handshake: a
fresh `Outbox()`, an empty queue, no pool yet. -/
def Connection.open (protocolVersion : Nat) (wire : Wire) : Connection where
  protocolVersion := protocolVersion
  outbox := Outbox.init 8192 16384 (by decide)
  responses := []
  closed := false
  defunct := false
  pooled := false
  deactivateRaises _ := false
  inboxFinished := false
  nextId := 0
  wire := wire
  log := []

/-- The configuration `connect` passes on to the `Connection`. -/
structure Config where
  /-- `config.get("user_agent", DEFAULT_USER_AGENT)`, decoded to text. -/
  userAgent : String
  /-- `self.auth_dict` as the constructor derives it from `config.get("auth")`: `{}` for none,
  the fields of an `AuthToken` or of the given object, or the `AuthError` it raises. -/
  auth : Except ErrorKind Metadata

/-- The check of `Connection.__init__` for a missing password: `credentials` of `None` raises
`AuthError`. -/
def checkAuth (authDict : Metadata) : Except ErrorKind Metadata :=
  match authDict.lookup "credentials" with
  | some .null => .error .authError
  | _ => .ok authDict

/-- What `s.connect(resolved_address)` does. -/
inductive ConnectOutcome where
  | connected
  | timeout
  | osError
  deriving DecidableEq, Repr

/-- What `_secure` meets: no SSL context, `wrap_socket` raising `SSLError`, a server without a
certificate, a certificate that the trust-on-first-use store rejects, or a usable one. -/
inductive SecureOutcome where
  | plain
  | sslError
  | noCertificate
  | untrusted
  | trusted
  deriving DecidableEq, Repr

/-- One resolved address as `connect` meets it. -/
structure Endpoint where
  /-- `len(resolved_address)`: `2` for IPv4, `4` for IPv6. -/
  arity : Nat
  /-- What the operating system does on `s.connect`. -/
  connectOutcome : ConnectOutcome
  /-- What `_secure` meets. -/
  secureOutcome : SecureOutcome
  /-- The server's handshake reply, as `s.recv` delivers it. -/
  socket : Socket
  /-- The socket's `sendall` calls, and what the connection reads once the handshake is over. -/
  wire : Wire

/-- `_connect(resolved_address)`: a tuple of neither two nor four parts raises `ValueError`; a
timeout or an `OSError` of `s.connect` closes the socket and raises `ServiceUnavailable`. -/
def connectSocket (e : Endpoint) : Except ErrorKind Unit :=
  if e.arity = 2 ∨ e.arity = 4 then
    match e.connectOutcome with
    | .connected => .ok ()
    | .timeout | .osError => .error .serviceUnavailable
  else .error .valueError

/-- `_secure(s, host, ssl_context)`: `SecurityError` when the wrap fails, `ProtocolError` for a
missing or untrusted certificate. -/
def secure (e : Endpoint) : Except ErrorKind Unit :=
  match e.secureOutcome with
  | .plain | .trusted => .ok ()
  | .sslError => .error .securityError
  | .noCertificate | .untrusted => .error .protocolError

/-- `struct_pack(">I", n)`. -/
def u32Bytes (n : Nat) : List UInt8 :=
  [UInt8.ofNat (n / 2 ^ 24), UInt8.ofNat (n / 2 ^ 16), UInt8.ofNat (n / 2 ^ 8), UInt8.ofNat n]

/-- The bytes `_handshake` sends: `MAGIC_PREAMBLE` and the supported versions `[3, 2, 1, 0]`. -/
def handshakeData : List UInt8 :=
  ([0x6060B017, 3, 2, 1, 0].map u32Bytes).flatten

/-- `struct_unpack(">I", data)` on four bytes. -/
def readU32 (data : List UInt8) : Nat :=
  data.foldl (fun n x => 256 * n + x.toNat) 0

section Handshake

variable (codec : Codec) (b : Builtins) (cfg : Config) (fuel : Nat)

/-- `Connection(...)` followed by `init()` or `hello()`: the connection, or the exception raised
by the constructor or by the method. -/
def establish (method : String → Metadata → Nat → ConnM Unit) (protocolVersion : Nat)
    (wire : Wire) : Except Exc (Option Connection) := do
  let authDict ← (cfg.auth >>= checkAuth).mapError .raised
  match method cfg.userAgent authDict fuel (Connection.open protocolVersion wire) with
  | .ok _ c => .ok (some c)
  | .error e _ => .error e

/-- The `if` chain of `_handshake` on the agreed version. Version `0` closes the socket and
returns nothing; `0x48545450` is `HTTP`. -/
def agree (wire : Wire) (agreedVersion : Nat) : Except Exc (Option Connection) :=
  if agreedVersion = 0 then .ok none
  else if agreedVersion = 1 ∨ agreedVersion = 2 then
    establish cfg fuel (Connection.init codec b) agreedVersion wire
  else if agreedVersion = 3 then
    establish cfg fuel (Connection.hello codec b) agreedVersion wire
  else if agreedVersion = 0x48545450 then .error (.raised .serviceUnavailable)
  else .error (.raised .protocolError)

/-- `_handshake(s, ...)`: `sendall` the preamble, which may raise `OSError`; one `s.recv(4)`,
whose `OSError` becomes `ServiceUnavailable`; no bytes mean the server closed, and any other
number than four is `ProtocolError`. -/
def handshake (e : Endpoint) : Except Exc (Option Connection) :=
  if e.wire.writeFails e.wire.sent.length then .error (.raised .ioError)
  else
    match e.socket.recvInto 4 with
    | .error _ => .error (.raised .serviceUnavailable)
    | .ok (data, _) =>
      if data.length = 0 then .error (.raised .serviceUnavailable)
      else if data.length ≠ 4 then .error (.raised .protocolError)
      else agree codec b cfg fuel { e.wire with sent := e.wire.sent ++ [handshakeData] }
        (readU32 data)

/-- The body of the `try` of `connect` for one resolved address. -/
def attempt (e : Endpoint) : Except Exc (Option Connection) := do
  (connectSocket e).mapError .raised
  (secure e).mapError .raised
  handshake codec b cfg fuel e

/-- The loop of `connect`: the first attempt that does not raise gives the result; every
exception is kept as `last_error`, which is raised at the end, or `ServiceUnavailable` when no
address was tried. -/
def connectLoop (lastError : Option ErrorKind) : List Endpoint → Except Exc (Option Connection)
  | [] => .error (.raised (lastError.getD .serviceUnavailable))
  | e :: es =>
    match attempt codec b cfg fuel e with
    | .ok connection => .ok connection
    | .error (.raised error) => connectLoop (some error) es
    | .error .outOfFuel => .error .outOfFuel

/-- `connect(address)` over the resolved addresses. -/
def connect (resolved : List Endpoint) : Except Exc (Option Connection) :=
  connectLoop codec b cfg fuel none resolved

/-- What a connection that `_handshake` returns has gone through: the constructor's auth check
passed, and on the new connection `init()` returned for version `1` or `2`, `hello()` for
version `3`. -/
def Agreed (wire : Wire) (agreedVersion : Nat) (c : Connection) : Prop :=
  ∃ authDict, (cfg.auth >>= checkAuth) = .ok authDict ∧
    ((agreedVersion = 1 ∨ agreedVersion = 2) ∧ Connection.init codec b cfg.userAgent authDict fuel
        (Connection.open agreedVersion wire) = .ok () c ∨
      agreedVersion = 3 ∧ Connection.hello codec b cfg.userAgent authDict fuel
        (Connection.open agreedVersion wire) = .ok () c)

/-! ## One lemma per function -/

theorem establish_eq_some {method : String → Metadata → Nat → ConnM Unit} {v : Nat} {wire : Wire}
    {c : Connection} (h : establish cfg fuel method v wire = .ok (some c)) :
    ∃ authDict, (cfg.auth >>= checkAuth) = .ok authDict ∧
      method cfg.userAgent authDict fuel (Connection.open v wire) = .ok () c := by
  unfold establish at h
  cases hA : (cfg.auth >>= checkAuth) with
  | error e => simp [hA, Except.mapError] at h
  | ok authDict =>
    simp only [hA, Except.mapError, Except.ok_bind] at h
    split at h
    · cases h
      exact ⟨authDict, rfl, by assumption⟩
    · cases h

/-- A connection out of the `if` chain of `_handshake` was agreed on version `1`, `2` or `3`. -/
theorem agree_eq_some {wire : Wire} {v : Nat} {c : Connection}
    (h : agree codec b cfg fuel wire v = .ok (some c)) : Agreed codec b cfg fuel wire v c := by
  unfold agree at h
  split_ifs at h with h0 h12 h3
  · cases h
  · obtain ⟨a, ha, hm⟩ := establish_eq_some cfg fuel h
    exact ⟨a, ha, .inl ⟨h12, hm⟩⟩
  · obtain ⟨a, ha, hm⟩ := establish_eq_some cfg fuel h
    exact ⟨a, ha, .inr ⟨h3, hm⟩⟩

/-- `_handshake` returns only after a `recv` that delivered four bytes. -/
theorem handshake_eq_ok {e : Endpoint} {r : Option Connection}
    (h : handshake codec b cfg fuel e = .ok r) :
    ∃ data s', e.socket.recvInto 4 = .ok (data, s') ∧ data.length = 4 ∧
      agree codec b cfg fuel { e.wire with sent := e.wire.sent ++ [handshakeData] } (readU32 data) =
        .ok r := by
  unfold handshake at h
  split_ifs at h
  split at h
  · cases h
  · rename_i data s' hrecv
    split_ifs at h with h0 h4
    exact ⟨data, s', hrecv, not_not.mp h4, h⟩

theorem handshake_of_attempt {e : Endpoint} {r : Option Connection}
    (h : attempt codec b cfg fuel e = .ok r) : handshake codec b cfg fuel e = .ok r := by
  unfold attempt at h
  cases hc : connectSocket e <;> cases hs : secure e <;> simp_all [Except.mapError]

/-- Attempts that raise only move `last_error` along. -/
theorem connectLoop_append {pre : List Endpoint}
    (hpre : ∀ p ∈ pre, ∃ err, attempt codec b cfg fuel p = .error (.raised err))
    (lastError : Option ErrorKind) (es : List Endpoint) :
    ∃ l, connectLoop codec b cfg fuel lastError (pre ++ es) = connectLoop codec b cfg fuel l es := by
  induction pre generalizing lastError with
  | nil => exact ⟨lastError, rfl⟩
  | cons p pre ih =>
    obtain ⟨err, herr⟩ := hpre p (List.mem_cons_self p pre)
    simp only [List.cons_append, connectLoop, herr]
    exact ih (fun q hq => hpre q (List.mem_cons_of_mem p hq)) (some err)

/-- What `connect` returns, one of its attempts returned. -/
theorem connectLoop_eq_ok {l : Option ErrorKind} {es : List Endpoint} {r : Option Connection}
    (h : connectLoop codec b cfg fuel l es = .ok r) : ∃ e ∈ es, attempt codec b cfg fuel e = .ok r := by
  induction es generalizing l with
  | nil => cases h
  | cons e es ih =>
    simp only [connectLoop] at h
    split at h
    · cases h
      exact ⟨e, List.mem_cons_self e es, by assumption⟩
    · obtain ⟨e', he', h'⟩ := ih h
      exact ⟨e', List.mem_cons_of_mem e he', h'⟩
    · cases h

/-! ## What `connect` returns -/

/-- An address that connects without TLS and whose server replies `reply` to the handshake, which
the transport delivers in segments of at most `segment` bytes. -/
def Endpoint.sample (reply : List UInt8) (segment : Nat) : Endpoint where
  arity := 2
  connectOutcome := .connected
  secureOutcome := .plain
  socket := ⟨reply, fun _ => some segment, 0⟩
  wire := { reads := [], writeFails := fun _ => false, sent := [], socketClosed := false }

/-- A configuration without auth details. -/
def Config.sample : Config := ⟨"neobolt", .ok []⟩

/-- A connection that `connect` returns was agreed at one of the addresses, from four bytes that
one `recv` delivered, on version `1`, `2` or `3`, and its `init()` or `hello()` returned. -/
theorem connect_eq_some {resolved : List Endpoint} {c : Connection}
    (h : connect codec b cfg fuel resolved = .ok (some c)) :
    ∃ e ∈ resolved, ∃ data s', e.socket.recvInto 4 = .ok (data, s') ∧ data.length = 4 ∧
      Agreed codec b cfg fuel { e.wire with sent := e.wire.sent ++ [handshakeData] }
        (readU32 data) c := by
  obtain ⟨e, he, ha⟩ := connectLoop_eq_ok codec b cfg fuel h
  obtain ⟨data, s', hr, hl, hag⟩ := handshake_eq_ok codec b cfg fuel
    (handshake_of_attempt codec b cfg fuel ha)
  exact ⟨e, he, data, s', hr, hl, agree_eq_some codec b cfg fuel hag⟩

/-- `connect` tries the resolved addresses in order: the first whose attempt does not raise gives
its result, whatever the later addresses would do; and when every address raises, `connect`
raises the exception of the last one. -/
theorem connect_firstOrLast (pre : List Endpoint) (e : Endpoint)
    (hpre : ∀ p ∈ pre, ∃ err, attempt codec b cfg fuel p = .error (.raised err)) :
    (∀ r post, attempt codec b cfg fuel e = .ok r → connect codec b cfg fuel (pre ++ e :: post) = .ok r) ∧
    ∀ err, attempt codec b cfg fuel e = .error (.raised err) →
      connect codec b cfg fuel (pre ++ [e]) = .error (.raised err) := by
  constructor
  · intro r post he
    obtain ⟨l, hl⟩ := connectLoop_append codec b cfg fuel hpre none (e :: post)
    simp only [connect, hl, connectLoop, he]
  · intro err he
    obtain ⟨l, hl⟩ := connectLoop_append codec b cfg fuel hpre none [e]
    simp only [connect, hl, connectLoop, he]
    rfl

/-- An address given as a tuple of three parts raises `ValueError`; the next one, whose server
answers with version `0`, gives `None`, and alone it is the last error's address. -/
theorem connect_firstOrLast_valueError :
    (∀ p ∈ [{ Endpoint.sample [] 4 with arity := 3 }],
      ∃ err, attempt Codec.sample Builtins.decimal Config.sample 1 p = .error (.raised err)) ∧
    (∀ r post, attempt Codec.sample Builtins.decimal Config.sample 1 (Endpoint.sample [0, 0, 0, 0] 4) =
        .ok r → connect Codec.sample Builtins.decimal Config.sample 1
          ([{ Endpoint.sample [] 4 with arity := 3 }] ++ Endpoint.sample [0, 0, 0, 0] 4 :: post) =
            .ok r) ∧
    ∀ err, attempt Codec.sample Builtins.decimal Config.sample 1 (Endpoint.sample [0, 0, 0, 0] 4) =
        .error (.raised err) → connect Codec.sample Builtins.decimal Config.sample 1
          ([{ Endpoint.sample [] 4 with arity := 3 }] ++ [Endpoint.sample [0, 0, 0, 0] 4]) =
            .error (.raised err) :=
  have hpre : ∀ p ∈ [{ Endpoint.sample [] 4 with arity := 3 }],
      ∃ err, attempt Codec.sample Builtins.decimal Config.sample 1 p = .error (.raised err) := by
    simp only [List.mem_singleton, forall_eq]
    exact ⟨.valueError, rfl⟩
  ⟨hpre, connect_firstOrLast Codec.sample Builtins.decimal Config.sample 1 _ _ hpre⟩

/-- Once every earlier address has raised, an address that connects and answers the handshake
with version `0` makes `connect` return `None`. -/
theorem connect_returnsNone (pre post : List Endpoint) (e : Endpoint)
    (hpre : ∀ p ∈ pre, ∃ err, attempt codec b cfg fuel p = .error (.raised err))
    (hc : connectSocket e = .ok ()) (hs : secure e = .ok ())
    (hw : e.wire.writeFails e.wire.sent.length = false) {s' : Socket}
    (hr : e.socket.recvInto 4 = .ok ([0, 0, 0, 0], s')) :
    connect codec b cfg fuel (pre ++ e :: post) = .ok none := by
  obtain ⟨l, hl⟩ := connectLoop_append codec b cfg fuel hpre none (e :: post)
  have ha : attempt codec b cfg fuel e = .ok none := by
    simp [attempt, hc, hs, Except.mapError, handshake, hw, hr, readU32, agree]
  simp only [connect, hl, connectLoop, ha]

theorem connect_returnsNone_zeroReply :
    connect Codec.sample Builtins.decimal Config.sample 1 [Endpoint.sample [0, 0, 0, 0] 4] =
      .ok none :=
  connect_returnsNone Codec.sample Builtins.decimal Config.sample 1 [] [] _ (by simp) rfl rfl rfl rfl

/-- `_handshake` reads the reply with a single `recv(4)`: a reply that arrives in one piece is
dispatched on its value, and one whose first segment is shorter than four bytes raises
`ProtocolError`, whatever the four bytes are. -/
theorem handshake_segmented (e : Endpoint) (hw : e.wire.writeFails e.wire.sent.length = false)
    {r : List UInt8} (hr : r.length = 4) (hp : e.socket.pending = r) {k : Nat}
    (hk : e.socket.segment e.socket.calls = some k) :
    (4 ≤ k → handshake codec b cfg fuel e =
      agree codec b cfg fuel { e.wire with sent := e.wire.sent ++ [handshakeData] } (readU32 r)) ∧
    (0 < k → k < 4 → handshake codec b cfg fuel e = .error (.raised .protocolError)) := by
  refine ⟨fun h4 => ?_, fun h0 h4 => ?_⟩
  · have hmin : min k 4 = r.length := by omega
    simp [handshake, hw, Socket.recvInto, hk, hp, hr, hmin, show k ≠ 0 by omega, Nat.not_lt.mpr h4,
      List.take_of_length_le hr.le]
  · have hmin : min k 4 = k := by omega
    simp [handshake, hw, Socket.recvInto, hk, hp, hr, hmin, Nat.pos_iff_ne_zero.mp h0, h4]

/-- The reply `0x00000003` in one piece goes on to `HELLO`; in two pieces it is a
`ProtocolError`. -/
theorem handshake_segmented_versionThree :
    handshake Codec.sample Builtins.decimal Config.sample 1 (Endpoint.sample [0, 0, 0, 3] 4) =
      establish Config.sample 1 (Connection.hello Codec.sample Builtins.decimal) 3
        { (Endpoint.sample [0, 0, 0, 3] 4).wire with sent := [handshakeData] } ∧
    handshake Codec.sample Builtins.decimal Config.sample 1 (Endpoint.sample [0, 0, 0, 3] 2) =
      .error (.raised .protocolError) :=
  ⟨(handshake_segmented Codec.sample Builtins.decimal Config.sample 1 _ rfl (r := [0, 0, 0, 3]) rfl
      rfl rfl).1 (by decide),
    (handshake_segmented Codec.sample Builtins.decimal Config.sample 1 _ rfl (r := [0, 0, 0, 3]) rfl
      rfl rfl).2 (by decide) (by decide)⟩

end Handshake

end Neobolt
