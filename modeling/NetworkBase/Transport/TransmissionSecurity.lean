import NetworkBase.Tool.SoundBuffer
import NetworkBase.Transport.SocketHandler

/-!
# The encrypted transport

`TransmissionSecurity` puts a TLS library between its handler and the kernel.  What the library
does in one of its calls is an argument of the method that makes the call: the registered
callbacks it calls meanwhile, each with the kernel's answer, and the value it returns.  Nothing is
assumed about how the library chooses them.
-/

namespace NetworkBase

/-- The members of `TransmissionSecurity` that change, and the state of the handler. -/
structure TransmissionSecurity (η : Type) where
  init : Bool
  tlsSend : SoundBuffer
  tlsRead : SoundBuffer
  sourceRead : SoundBuffer
  sourceSend : SoundBuffer
  readTempLen : Nat
  handler : η

namespace TransmissionSecurity

variable {η : Type}

/-- Size of `tls_read_cache_`. -/
def kTlsCacheLen : Nat := 16384

/-- Initial size of `tls_send_` and `source_read_`. -/
def kTlsSendLen : Nat := 16384

/-- Initial size of `tls_read_` and `source_send_`. -/
def kTlsReadLen : Nat := 16384

/-- `MBEDTLS_ERR_SSL_WANT_READ`. -/
def errSslWantRead : Int := -0x6900

/-- `MBEDTLS_ERR_SSL_WANT_WRITE`. -/
def errSslWantWrite : Int := -0x6880

/-- The library only waits for its callbacks. -/
def wants (ret : Int) : Bool := ret = errSslWantRead || ret = errSslWantWrite

theorem nonpos_of_wants {ret : Int} (waits : wants ret = true) : ret ≤ 0 := by
  rw [wants, Bool.or_eq_true] at waits
  rcases waits with same | same
  · rw [of_decide_eq_true same]
    decide
  · rw [of_decide_eq_true same]
    decide

/-- A wider value stored in an `int` of 32 bits. -/
def toInt (value : Int) : Int := Int.bmod value (2 ^ 32)

/-! ## What the library does in a call -/

/-- A call of a registered callback. -/
inductive NetCall
  | send (buf : List UInt8) (kernel : WriteResult)
  | recv (len : Nat)
  deriving DecidableEq, Repr

/-- A call of the library: the callbacks it makes and the value it returns. -/
structure SslCall where
  net : List NetCall
  result : Int
  deriving DecidableEq, Repr

/-- The decrypted bytes of one successful `mbedtls_ssl_read`. -/
abbrev Plaintext := { bytes : List UInt8 // bytes ≠ [] ∧ bytes.length ≤ kTlsCacheLen }

/-- The answer of `mbedtls_ssl_read`: bytes in the cache, or a value that is not positive. -/
inductive SslAnswer
  | plaintext (bytes : Plaintext)
  | code (ret : { ret : Int // ret ≤ 0 })
  deriving DecidableEq

/-- A call of `mbedtls_ssl_read`. -/
structure SslRead where
  net : List NetCall
  answer : SslAnswer
  deriving DecidableEq

/-- What the library and the kernel do in one `OnRead` or `OnWrite`. -/
structure TlsInput where
  handshake : SslCall
  reads : List SslRead
  write : SslCall
  rawWrite : WriteResult

/-- What the library answers while it is set up: the values of `mbedtls_ctr_drbg_seed`,
`mbedtls_x509_crt_parse`, `mbedtls_ssl_config_defaults` and `mbedtls_ssl_setup`. -/
structure SetupAnswers where
  seed : Int
  parse : Int
  defaults : Int
  setup : Int
  deriving DecidableEq, Repr

/-! ## The methods -/

/-- The constructor. -/
def construct (handler : η) : Socket (TransmissionSecurity η) :=
  Socket.construct
    { init := false
      tlsSend := SoundBuffer.construct kTlsSendLen
      tlsRead := SoundBuffer.construct kTlsReadLen
      sourceRead := SoundBuffer.construct kTlsSendLen
      sourceSend := SoundBuffer.construct kTlsReadLen
      readTempLen := 0
      handler }

/-- Change members of the subclass. -/
def update (change : TransmissionSecurity η → TransmissionSecurity η)
    (socket : Socket (TransmissionSecurity η)) : Socket (TransmissionSecurity η) :=
  { socket with sub := change socket.sub }

/-- `SetSecurityLicence`. -/
def setSecurityLicence (answers : SetupAnswers) (socket : Socket (TransmissionSecurity η)) :
    Int × Socket (TransmissionSecurity η) :=
  if socket.sub.init then (0, socket)
  else if answers.seed ≠ 0 then (-1, socket)
  else if answers.parse < 0 then (-1, socket)
  else if answers.defaults ≠ 0 then (-1, socket)
  else if answers.setup ≠ 0 then (-1, socket)
  else (0, update (fun sub => { sub with init := true }) socket)

/-- `Send`. -/
def send (data : CharSpan) (socket : Socket (TransmissionSecurity η)) :
    Option (Int × Socket (TransmissionSecurity η)) :=
  if ¬socket.sub.init then
    some (-1, socket.emit (.send data (-1)))
  else do
    let (result, sourceSend) ← socket.sub.sourceSend.addTailData data
    some (result, (update (fun sub => { sub with sourceSend }) socket).emit (.send data result))

/-- `mbedtlsNetSend`, whose context is the socket itself. -/
def mbedtlsNetSend (buf : List UInt8) (kernel : WriteResult)
    (socket : Socket (TransmissionSecurity η)) : Int × Socket (TransmissionSecurity η) :=
  let (sent, socket) := socket.rawSend kernel (.bytes buf)
  if sent < 0 then (-1, socket.emit (.netSend buf (-1)))
  else (toInt buf.length, socket.emit (.netSend buf (toInt buf.length)))

/-- `tlsReadBufferPopData`: its value and the bytes it stores behind `read_temp_`. -/
def tlsReadBufferPopData (readTempLen : Nat) (offer : List UInt8) : Int × List UInt8 :=
  let copyLen := if readTempLen > offer.length then offer.length else readTempLen
  (copyLen, offer.take copyLen)

/-- `mbedtlsNetRecv`, whose context is the socket itself. -/
def mbedtlsNetRecv (len : Nat) (socket : Socket (TransmissionSecurity η)) :
    Int × Socket (TransmissionSecurity η) :=
  if socket.sub.tlsRead.getSize < len then
    (errSslWantRead, socket.emit (.netRecv len errSslWantRead []))
  else
    let socket := update (fun sub => { sub with readTempLen := len }) socket
    let (popped, tlsRead, stored) :=
      socket.sub.tlsRead.popHead (tlsReadBufferPopData socket.sub.readTempLen)
    let socket := update (fun sub => { sub with tlsRead }) socket
    let ret := toInt popped
    if ret < 0 then (-1, socket.emit (.netRecv len (-1) stored))
    else (ret, socket.emit (.netRecv len ret stored))

/-- One callback. -/
def netCall : NetCall → Socket (TransmissionSecurity η) → Socket (TransmissionSecurity η)
  | .send buf kernel, socket => (mbedtlsNetSend buf kernel socket).2
  | .recv len, socket => (mbedtlsNetRecv len socket).2

/-- The callbacks of one call of the library. -/
def netCalls (calls : List NetCall) (socket : Socket (TransmissionSecurity η)) :
    Socket (TransmissionSecurity η) :=
  calls.foldl (fun socket call => netCall call socket) socket

/-- `mbedtls_ssl_handshake`. -/
def sslHandshake (call : SslCall) (socket : Socket (TransmissionSecurity η)) :
    Int × Socket (TransmissionSecurity η) :=
  (call.result, (netCalls call.net socket).emit (.sslHandshake call.result))

/-- The decrypting loop of `OnRead`, over the answers of `mbedtls_ssl_read`; whether it was left
through its flag.  A library with no further answer wants to read. -/
def decrypt : List SslRead → Socket (TransmissionSecurity η) →
    Option (Bool × Socket (TransmissionSecurity η))
  | [], socket => some (true, socket)
  | read :: reads, socket =>
      let socket := netCalls read.net socket
      match read.answer with
      | .code ret => some (wants ret.val, socket)
      | .plaintext bytes => do
          let socket := socket.emit (.sslRead bytes.val)
          let (added, sourceRead) ← socket.sub.sourceRead.addTailData (.bytes bytes.val)
          let socket := update (fun sub => { sub with sourceRead }) socket
          if added < 0 then some (false, socket) else decrypt reads socket

variable (handler : SocketHandler η)

/-- `OnConnect`. -/
def onConnect (socket : Socket (TransmissionSecurity η)) :
    Option (Socket (TransmissionSecurity η)) :=
  let (calls, state) := handler.onConnect socket.sub.handler
  Socket.callBack send calls
    (update (fun sub => { sub with handler := state }) (socket.emit .onConnect))

/-- `OnDisconnect`. -/
def onDisconnect (socket : Socket (TransmissionSecurity η)) :
    Option (Socket (TransmissionSecurity η)) :=
  let (calls, state) := handler.onDisconnect socket.sub.handler
  Socket.callBack send calls
    (update (fun sub => { sub with handler := state }) (socket.emit .onDisconnect))

/-- `sourceReadBufferPopData`. -/
def sourceReadBufferPopData (offer : List UInt8) (socket : Socket (TransmissionSecurity η)) :
    Option (Int × Socket (TransmissionSecurity η)) := do
  let (result, calls, state) := handler.onData offer socket.sub.handler
  let socket ← Socket.callBack send calls
    (update (fun sub => { sub with handler := state }) (socket.emit (.onData offer result)))
  some (result, socket)

/-- `OnRead`. -/
def onRead (input : TlsInput) (chunk : Chunk) (finish : Bool)
    (socket : Socket (TransmissionSecurity η)) :
    Option (Int × Socket (TransmissionSecurity η)) :=
  if ¬socket.sub.init then
    some (-1, socket)
  else do
    let (added, tlsRead) ← socket.sub.tlsRead.addTailData (.bytes chunk.val)
    let socket := update (fun sub => { sub with tlsRead }) socket
    if added < 0 then
      some (-1, socket)
    else if ¬finish then
      some (chunk.val.length, socket)
    else
      let (ret, socket) := sslHandshake input.handshake socket
      if ret ≠ 0 then
        if ¬wants ret then some (-1, socket) else some (chunk.val.length, socket)
      else do
        let (flagged, socket) ← decrypt input.reads socket
        if ¬flagged then
          some (-1, socket)
        else do
          let (popped, sourceRead, socket) ←
            socket.sub.sourceRead.popHeadData (sourceReadBufferPopData handler) socket
          let socket := update (fun sub => { sub with sourceRead }) socket
          if popped < 0 then some (-1, socket) else some (chunk.val.length, socket)

/-- `sourceSendBufferPopData`. -/
def sourceSendBufferPopData (write : SslCall) (buf : List UInt8)
    (socket : Socket (TransmissionSecurity η)) :
    Option (Int × Socket (TransmissionSecurity η)) :=
  let socket := (netCalls write.net socket).emit (.sslWrite buf write.result)
  if write.result ≤ 0 then
    if ¬wants write.result then some (-1, socket) else some (0, socket)
  else
    some (write.result, socket)

/-- `tlsSendBufferPopData`. -/
def tlsSendBufferPopData (kernel : WriteResult) (buf : List UInt8)
    (socket : Socket (TransmissionSecurity η)) :
    Option (Int × Socket (TransmissionSecurity η)) :=
  some (socket.rawSend kernel (.bytes buf))

/-- The second part of `OnWrite`: encrypt what is queued. -/
def encryptQueued (write : SslCall) (socket : Socket (TransmissionSecurity η)) :
    Option (Int × Socket (TransmissionSecurity η)) :=
  if socket.sub.sourceSend.getSize ≠ 0 then do
    let (result, sourceSend, socket) ←
      socket.sub.sourceSend.popHeadData (sourceSendBufferPopData write) socket
    some (result, update (fun sub => { sub with sourceSend }) socket)
  else
    some (0, socket)

/-- The third part of `OnWrite`: send what is queued encrypted. -/
def sendQueued (kernel : WriteResult) (socket : Socket (TransmissionSecurity η)) :
    Option (Int × Socket (TransmissionSecurity η)) :=
  if socket.sub.tlsSend.getSize ≠ 0 then do
    let (result, tlsSend, socket) ←
      socket.sub.tlsSend.popHeadData (tlsSendBufferPopData kernel) socket
    some (result, update (fun sub => { sub with tlsSend }) socket)
  else
    some (0, socket)

/-- `OnWrite`. -/
def onWrite (input : TlsInput) (socket : Socket (TransmissionSecurity η)) :
    Option (Int × Socket (TransmissionSecurity η)) :=
  if ¬socket.sub.init then
    some (-1, socket)
  else
    let (ret, socket) := sslHandshake input.handshake socket
    if ret ≠ 0 then
      if ¬wants ret then some (-1, socket) else some (0, socket)
    else do
      let (encrypted, socket) ← encryptQueued input.write socket
      if encrypted < 0 then
        some (-1, socket)
      else do
        let (sent, socket) ← sendQueued input.rawWrite socket
        if sent < 0 then
          some (-1, socket)
        else if ¬(socket.sub.tlsSend.getSize ≠ 0 ∧ socket.sub.tlsSend.getSize ≠ 0) then do
          let (calls, state) := handler.onWrite socket.sub.handler
          let socket ← Socket.callBack send calls
            (update (fun sub => { sub with handler := state }) (socket.emit .onWrite))
          some (0, socket)
        else
          some (0, socket)

/-! ## The virtual method table -/

/-- The events of a call of the library. -/
def inner (fd : Int) : Event → Prop
  | .kernelWrite written _ _ => written = fd
  | .sslHandshake _ => True
  | .sslRead _ => True
  | .sslWrite _ _ => True
  | .netSend _ _ => True
  | .netRecv _ _ _ => True
  | _ => False

theorem serving_of_inner (fd : Int) (event : Event) (ok : inner fd event) :
    Socket.serving fd event := by
  cases event <;> simp_all [inner, Socket.serving]

theorem update_within {allowed : Event → Prop}
    (change : TransmissionSecurity η → TransmissionSecurity η)
    (socket : Socket (TransmissionSecurity η)) :
    Socket.SubSteps allowed socket (update change socket) :=
  .single (.members socket (change socket.sub))

theorem emit_within {allowed : Event → Prop} (event : Event) (ok : allowed event)
    (socket : Socket (TransmissionSecurity η)) :
    Socket.SubSteps allowed socket (socket.emit event) :=
  .single (.event socket event ok)

theorem netCall_within (call : NetCall) (socket : Socket (TransmissionSecurity η)) :
    Socket.SubSteps (inner socket.fd) socket (netCall call socket) := by
  cases call with
  | send buf kernel =>
      have written : Socket.SubSteps (inner socket.fd) socket
          (socket.rawSend kernel (.bytes buf)).2 :=
        Socket.rawSend_within (fun _ _ => rfl) kernel _
      simp only [netCall, mbedtlsNetSend]
      split
      · exact written.trans (emit_within (.netSend buf (-1)) trivial _)
      · exact written.trans (emit_within (.netSend buf (toInt buf.length)) trivial _)
  | recv len =>
      simp only [netCall, mbedtlsNetRecv]
      split
      · exact emit_within (.netRecv len errSslWantRead []) trivial socket
      · split
        · exact ((update_within _ socket).trans (update_within _ _)).trans
            (emit_within (.netRecv len _ _) trivial _)
        · exact ((update_within _ socket).trans (update_within _ _)).trans
            (emit_within (.netRecv len _ _) trivial _)

/-- What one callback keeps, several keep. -/
theorem netCalls_keeps (inv : Socket (TransmissionSecurity η) → Prop)
    (called : ∀ call socket, inv socket → inv (netCall call socket)) (calls : List NetCall)
    {socket : Socket (TransmissionSecurity η)} (initial : inv socket) :
    inv (netCalls calls socket) := by
  induction calls generalizing socket with
  | nil => exact initial
  | cons call calls ih => exact ih (called call socket initial)

/-- What callbacks and the staging of decrypted bytes keep, the decrypting loop keeps. -/
theorem decrypt_keeps (inv : Socket (TransmissionSecurity η) → Prop)
    (called : ∀ call socket, inv socket → inv (netCall call socket))
    (staged : ∀ bytes sourceRead (socket : Socket (TransmissionSecurity η)), inv socket →
      inv (update (fun sub => { sub with sourceRead }) (socket.emit (.sslRead bytes))))
    {reads : List SslRead} {before after : Socket (TransmissionSecurity η)} {flagged : Bool}
    (execution : decrypt reads before = some (flagged, after)) (initial : inv before) :
    inv after := by
  induction reads generalizing before with
  | nil =>
      cases execution
      exact initial
  | cons read reads ih =>
      have fetched : inv (netCalls read.net before) := netCalls_keeps inv called read.net initial
      rw [decrypt] at execution
      cases answer : read.answer with
      | code ret =>
          simp only [answer] at execution
          cases execution
          exact fetched
      | plaintext bytes =>
          simp only [answer, Option.bind_eq_bind, Option.bind_eq_some_iff] at execution
          obtain ⟨⟨added, sourceRead⟩, -, execution⟩ := execution
          have stored := staged bytes.val sourceRead (netCalls read.net before) fetched
          simp only at execution
          split at execution
          · cases execution
            exact stored
          · exact ih execution stored

/-- A further callback. -/
theorem netCall_continues {before socket : Socket (TransmissionSecurity η)} (call : NetCall)
    (steps : Socket.SubSteps (inner before.fd) before socket) :
    Socket.SubSteps (inner before.fd) before (netCall call socket) := by
  have next := netCall_within call socket
  rw [steps.fd_eq] at next
  exact steps.trans next

theorem netCalls_within (calls : List NetCall) (socket : Socket (TransmissionSecurity η)) :
    Socket.SubSteps (inner socket.fd) socket (netCalls calls socket) :=
  netCalls_keeps (Socket.SubSteps (inner socket.fd) socket)
    (fun call _ steps => netCall_continues call steps) calls (.refl socket)

/-- The callbacks touch nothing but `tls_read_` and the length in front of `read_temp_`. -/
theorem sub_netCall (call : NetCall) (socket : Socket (TransmissionSecurity η)) :
    ∃ tlsRead readTempLen,
      (netCall call socket).sub = { socket.sub with tlsRead, readTempLen } := by
  cases call with
  | send buf kernel =>
      have written : (socket.rawSend kernel (.bytes buf)).2.sub = socket.sub := by
        rcases Socket.rawSend_cases kernel (.bytes buf) socket with same | shown
        · rw [same]
        · rw [shown, Socket.sub_emit]
      refine ⟨socket.sub.tlsRead, socket.sub.readTempLen, ?_⟩
      simp only [netCall, mbedtlsNetSend]
      split
      · rw [Socket.sub_emit, written]
      · rw [Socket.sub_emit, written]
  | recv len =>
      simp only [netCall, mbedtlsNetRecv]
      split
      · exact ⟨_, _, rfl⟩
      · split
        · exact ⟨_, _, rfl⟩
        · exact ⟨_, _, rfl⟩

theorem sub_netCalls (calls : List NetCall) (socket : Socket (TransmissionSecurity η)) :
    ∃ tlsRead readTempLen,
      (netCalls calls socket).sub = { socket.sub with tlsRead, readTempLen } := by
  refine netCalls_keeps (fun next => ∃ tlsRead readTempLen,
    next.sub = { socket.sub with tlsRead, readTempLen }) ?_ calls ⟨_, _, rfl⟩
  rintro call next ⟨_, _, next_eq⟩
  obtain ⟨tlsRead, readTempLen, sub_eq⟩ := sub_netCall call next
  exact ⟨tlsRead, readTempLen, sub_eq.trans (by rw [next_eq])⟩

theorem added_plaintext (bytes : Plaintext) :
    AutoGrowBuffer.added (.bytes bytes.val) = bytes.val ∧
      AutoGrowBuffer.addResult (.bytes bytes.val) = bytes.val.length :=
  AutoGrowBuffer.added_of_length_le (bytes.property.2.trans (by decide))

theorem addResult_plaintext_nonneg (bytes : Plaintext) :
    ¬AutoGrowBuffer.addResult (.bytes bytes.val) < 0 := by
  rw [(added_plaintext bytes).2]
  omega

/-- The decrypting loop touches nothing else but `source_read_`. -/
theorem sub_decrypt {reads : List SslRead} {before after : Socket (TransmissionSecurity η)}
    {flagged : Bool} (execution : decrypt reads before = some (flagged, after)) :
    ∃ tlsRead readTempLen sourceRead,
      after.sub = { before.sub with tlsRead, readTempLen, sourceRead } := by
  refine decrypt_keeps (fun next => ∃ tlsRead readTempLen sourceRead,
    next.sub = { before.sub with tlsRead, readTempLen, sourceRead }) ?_ ?_ execution ⟨_, _, _, rfl⟩
  · rintro call next ⟨_, _, sourceRead, next_eq⟩
    obtain ⟨tlsRead, readTempLen, sub_eq⟩ := sub_netCall call next
    exact ⟨tlsRead, readTempLen, sourceRead, sub_eq.trans (by rw [next_eq])⟩
  · rintro bytes sourceRead next ⟨tlsRead, readTempLen, _, next_eq⟩
    exact ⟨tlsRead, readTempLen, sourceRead, by rw [update, Socket.sub_emit, next_eq]⟩

theorem sslHandshake_within (call : SslCall) (socket : Socket (TransmissionSecurity η)) :
    Socket.SubSteps (inner socket.fd) socket (sslHandshake call socket).2 :=
  (netCalls_within call.net socket).trans
    (emit_within (.sslHandshake call.result) trivial _)

theorem decrypt_within {reads : List SslRead} {before after : Socket (TransmissionSecurity η)}
    {flagged : Bool} (execution : decrypt reads before = some (flagged, after)) :
    Socket.SubSteps (inner before.fd) before after := by
  refine decrypt_keeps (Socket.SubSteps (inner before.fd) before)
    (fun call _ steps => netCall_continues call steps) ?_ execution (.refl before)
  intro bytes sourceRead socket steps
  exact (steps.trans (emit_within (.sslRead bytes) trivial socket)).trans
    (update_within (fun sub => { sub with sourceRead }) _)

theorem send_within (data : CharSpan) (socket : Socket (TransmissionSecurity η)) (result : Int)
    (after : Socket (TransmissionSecurity η))
    (execution : send data socket = some (result, after)) :
    Socket.SubSteps Socket.quiet socket after := by
  rw [send] at execution
  split at execution
  · cases execution
    exact emit_within (.send data (-1)) trivial socket
  · rw [Option.bind_eq_bind, Option.bind_eq_some_iff] at execution
    obtain ⟨⟨value, sourceSend⟩, -, execution⟩ := execution
    obtain ⟨-, rfl⟩ := Prod.mk.inj (Option.some.inj execution)
    exact (update_within _ socket).trans (emit_within (.send data value) trivial _)

/-- A callback of the handler: its next state and its calls. -/
theorem callBack_send_within {calls : List PublicCall}
    {change : TransmissionSecurity η → TransmissionSecurity η}
    {socket after : Socket (TransmissionSecurity η)}
    (execution : Socket.callBack send calls (update change socket) = some after) :
    Socket.SubSteps Socket.quiet socket after :=
  (update_within change socket).trans (Socket.callBack_within send_within execution)

theorem callBack_send_serving {calls : List PublicCall}
    {change : TransmissionSecurity η → TransmissionSecurity η} {event : Event} {fd : Int}
    {socket after : Socket (TransmissionSecurity η)}
    (execution : Socket.callBack send calls (update change (socket.emit event)) = some after)
    (ok : Socket.serving fd event) :
    Socket.SubSteps (Socket.serving fd) socket after :=
  (emit_within event ok socket).trans
    ((callBack_send_within execution).mono (Socket.serving_of_quiet fd))

theorem onConnect_within (handler : SocketHandler η)
    (socket after : Socket (TransmissionSecurity η))
    (execution : onConnect handler socket = some after) :
    Socket.SubSteps Socket.quiet (socket.emit .onConnect) after :=
  callBack_send_within execution

theorem onDisconnect_within (handler : SocketHandler η)
    (socket after : Socket (TransmissionSecurity η))
    (execution : onDisconnect handler socket = some after) :
    Socket.SubSteps Socket.quiet (socket.emit .onDisconnect) after :=
  callBack_send_within execution

theorem sourceReadBufferPopData_eq_some {handler : SocketHandler η} {offer : List UInt8}
    {socket after : Socket (TransmissionSecurity η)} {result : Int} :
    sourceReadBufferPopData handler offer socket = some (result, after) ↔
      (handler.onData offer socket.sub.handler).1 = result ∧
        Socket.callBack send (handler.onData offer socket.sub.handler).2.1
          (update (fun sub =>
              { sub with handler := (handler.onData offer socket.sub.handler).2.2 })
            (socket.emit (.onData offer result))) = some after := by
  rw [sourceReadBufferPopData]
  simp only [Option.bind_eq_bind, Option.bind_eq_some_iff, Option.some.injEq, Prod.mk.injEq]
  constructor
  · rintro ⟨next, execution, rfl, rfl⟩
    exact ⟨rfl, execution⟩
  · rintro ⟨rfl, execution⟩
    exact ⟨after, execution, rfl, rfl⟩

/-- The states in which an `OnRead` ends: without the library it does nothing; the chunk is stored,
and the rest is done when it was the last one; the handshake is not complete; the loop was not left
through its flag; or the staged bytes were offered. -/
inductive ReadEnds (handler : SocketHandler η) (input : TlsInput) (chunk : Chunk) (finish : Bool)
    (socket : Socket (TransmissionSecurity η)) : Socket (TransmissionSecurity η) → Prop
  | unready (unready : ¬socket.sub.init) : ReadEnds handler input chunk finish socket socket
  | stored (added : Int) (tlsRead : SoundBuffer)
      (push : socket.sub.tlsRead.addTailData (.bytes chunk.val) = some (added, tlsRead))
      (waits : added < 0 ∨ finish = false) :
      ReadEnds handler input chunk finish socket (update (fun sub => { sub with tlsRead }) socket)
  | shaking (added : Int) (tlsRead : SoundBuffer)
      (push : socket.sub.tlsRead.addTailData (.bytes chunk.val) = some (added, tlsRead))
      (incomplete : input.handshake.result ≠ 0) :
      ReadEnds handler input chunk finish socket
        (sslHandshake input.handshake (update (fun sub => { sub with tlsRead }) socket)).2
  | failed (added : Int) (tlsRead : SoundBuffer)
      (push : socket.sub.tlsRead.addTailData (.bytes chunk.val) = some (added, tlsRead))
      (complete : input.handshake.result = 0) (decrypted : Socket (TransmissionSecurity η))
      (looped : decrypt input.reads (sslHandshake input.handshake
        (update (fun sub => { sub with tlsRead }) socket)).2 = some (false, decrypted)) :
      ReadEnds handler input chunk finish socket decrypted
  | offered (added : Int) (tlsRead : SoundBuffer)
      (push : socket.sub.tlsRead.addTailData (.bytes chunk.val) = some (added, tlsRead))
      (complete : input.handshake.result = 0) (decrypted : Socket (TransmissionSecurity η))
      (looped : decrypt input.reads (sslHandshake input.handshake
        (update (fun sub => { sub with tlsRead }) socket)).2 = some (true, decrypted))
      (value : Int) (next : Socket (TransmissionSecurity η))
      (calls : Socket.callBack send
        (handler.onData decrypted.sub.sourceRead.unread decrypted.sub.handler).2.1
        (update (fun sub => { sub with
          handler := (handler.onData decrypted.sub.sourceRead.unread decrypted.sub.handler).2.2 })
          (decrypted.emit (.onData decrypted.sub.sourceRead.unread value))) = some next)
      (sourceRead : SoundBuffer) :
      ReadEnds handler input chunk finish socket (update (fun sub => { sub with sourceRead }) next)

theorem readEnds_of_onRead {handler : SocketHandler η} {input : TlsInput} {chunk : Chunk}
    {finish : Bool} {socket after : Socket (TransmissionSecurity η)} {result : Int}
    (execution : onRead handler input chunk finish socket = some (result, after)) :
    ReadEnds handler input chunk finish socket after := by
  rw [onRead] at execution
  split at execution
  · rename_i unready
    cases execution
    exact .unready unready
  rw [Option.bind_eq_bind, Option.bind_eq_some_iff] at execution
  obtain ⟨⟨added, tlsRead⟩, push, execution⟩ := execution
  simp only at execution
  split at execution
  · rename_i refused
    cases execution
    exact .stored added tlsRead push (.inl refused)
  split at execution
  · rename_i unfinished
    cases execution
    exact .stored added tlsRead push (.inr (Bool.eq_false_of_not_eq_true unfinished))
  split at execution
  · rename_i incomplete
    split at execution
    · cases execution
      exact .shaking added tlsRead push incomplete
    · cases execution
      exact .shaking added tlsRead push incomplete
  rename_i complete
  simp only [Option.bind_eq_bind, Option.bind_eq_some_iff] at execution
  obtain ⟨⟨flagged, decrypted⟩, looped, execution⟩ := execution
  cases flagged with
  | false =>
      cases execution
      exact .failed added tlsRead push (not_not.mp complete) decrypted looped
  | true =>
      simp only [not_true, if_false, Option.bind_eq_some_iff] at execution
      obtain ⟨⟨popped, sourceRead, next⟩, pop, execution⟩ := execution
      obtain ⟨value, answer, -⟩ := SoundBuffer.popHeadData_eq_some_iff.mp pop
      obtain ⟨-, calls⟩ := sourceReadBufferPopData_eq_some.mp answer
      have ends : ReadEnds handler input chunk finish socket
          (update (fun sub => { sub with sourceRead }) next) :=
        .offered added tlsRead push (not_not.mp complete) decrypted looped value next calls
          sourceRead
      simp only at execution
      split at execution
      · cases execution
        exact ends
      · cases execution
        exact ends

theorem onRead_within (handler : SocketHandler η) (input : TlsInput) (chunk : Chunk)
    (finish : Bool) (socket : Socket (TransmissionSecurity η)) (result : Int)
    (after : Socket (TransmissionSecurity η))
    (execution : onRead handler input chunk finish socket = some (result, after)) :
    Socket.SubSteps (Socket.serving socket.fd) socket after := by
  have shaken : ∀ tlsRead, Socket.SubSteps (Socket.serving socket.fd) socket
      (sslHandshake input.handshake (update (fun sub => { sub with tlsRead }) socket)).2 :=
    fun tlsRead => (update_within _ socket).trans ((sslHandshake_within input.handshake
      (update (fun sub => { sub with tlsRead }) socket)).mono (serving_of_inner socket.fd))
  have delivered : ∀ tlsRead flagged decrypted, decrypt input.reads (sslHandshake input.handshake
      (update (fun sub => { sub with tlsRead }) socket)).2 = some (flagged, decrypted) →
        Socket.SubSteps (Socket.serving socket.fd) socket decrypted := by
    intro tlsRead flagged decrypted looped
    have emptied := decrypt_within looped
    rw [(shaken tlsRead).fd_eq] at emptied
    exact (shaken tlsRead).trans (emptied.mono (serving_of_inner socket.fd))
  cases readEnds_of_onRead execution with
  | unready => exact .refl socket
  | stored => exact update_within _ socket
  | shaking added tlsRead => exact shaken tlsRead
  | failed added tlsRead _ _ _ looped => exact delivered tlsRead false after looped
  | offered added tlsRead _ _ decrypted looped _ next calls sourceRead =>
      exact ((delivered tlsRead true decrypted looped).trans
        (callBack_send_serving calls trivial)).trans (update_within _ next)

theorem next_of_sourceSendBufferPopData {write : SslCall} {buf : List UInt8}
    {socket next : Socket (TransmissionSecurity η)} {value : Int}
    (answer : sourceSendBufferPopData write buf socket = some (value, next)) :
    next = (netCalls write.net socket).emit (.sslWrite buf write.result) := by
  simp only [sourceSendBufferPopData] at answer
  split at answer
  · split at answer
    · exact (Prod.mk.inj (Option.some.inj answer)).2.symm
    · exact (Prod.mk.inj (Option.some.inj answer)).2.symm
  · exact (Prod.mk.inj (Option.some.inj answer)).2.symm

theorem encryptQueued_within {write : SslCall} {before after : Socket (TransmissionSecurity η)}
    {result : Int} (execution : encryptQueued write before = some (result, after)) :
    Socket.SubSteps (inner before.fd) before after := by
  rw [encryptQueued] at execution
  split at execution
  · rw [Option.bind_eq_bind, Option.bind_eq_some_iff] at execution
    obtain ⟨⟨popped, sourceSend, next⟩, pop, execution⟩ := execution
    cases execution
    obtain ⟨value, answer, -⟩ := SoundBuffer.popHeadData_eq_some_iff.mp pop
    have called : Socket.SubSteps (inner before.fd) before
        ((netCalls write.net before).emit
          (.sslWrite before.sub.sourceSend.unread write.result)) :=
      (netCalls_within write.net before).trans (emit_within (.sslWrite _ _) trivial _)
    rw [next_of_sourceSendBufferPopData answer]
    exact called.trans (update_within _ _)
  · cases execution
    exact .refl before

theorem sendQueued_within {kernel : WriteResult} {before after : Socket (TransmissionSecurity η)}
    {result : Int} (execution : sendQueued kernel before = some (result, after)) :
    Socket.SubSteps (inner before.fd) before after := by
  rw [sendQueued] at execution
  split at execution
  · rw [Option.bind_eq_bind, Option.bind_eq_some_iff] at execution
    obtain ⟨⟨popped, tlsSend, next⟩, pop, execution⟩ := execution
    cases execution
    obtain ⟨value, answer, -⟩ := SoundBuffer.popHeadData_eq_some_iff.mp pop
    have next_eq : (before.rawSend kernel (.bytes before.sub.tlsSend.unread)).2 = next :=
      congrArg Prod.snd (Option.some.inj answer)
    have written : Socket.SubSteps (inner before.fd) before next := by
      rw [← next_eq]
      exact Socket.rawSend_within (fun _ _ => rfl) kernel _
    exact written.trans (update_within _ next)
  · cases execution
    exact .refl before

/-- What the parts of `OnWrite` keep, `OnWrite` keeps. It encrypts on a complete handshake only. -/
theorem onWrite_keeps {handler : SocketHandler η} {input : TlsInput}
    {Inv : Socket (TransmissionSecurity η) → Prop} {before after : Socket (TransmissionSecurity η)}
    {result : Int} (initial : Inv before) (shaken : Inv (sslHandshake input.handshake before).2)
    (encrypted : ∀ {value next}, input.handshake.result = 0 →
      encryptQueued input.write (sslHandshake input.handshake before).2 = some (value, next) →
      Inv next)
    (sent : ∀ {value socket next}, Inv socket →
      sendQueued input.rawWrite socket = some (value, next) → Inv next)
    (told : ∀ {socket next}, Inv socket →
      Socket.callBack send (handler.onWrite socket.sub.handler).1
        (update (fun sub => { sub with handler := (handler.onWrite socket.sub.handler).2 })
          (socket.emit .onWrite)) = some next → Inv next)
    (execution : onWrite handler input before = some (result, after)) : Inv after := by
  rw [onWrite] at execution
  split at execution
  · cases execution
    exact initial
  simp only at execution
  split at execution
  · split at execution
    · cases execution
      exact shaken
    · cases execution
      exact shaken
  rename_i complete
  rw [Option.bind_eq_bind, Option.bind_eq_some_iff] at execution
  obtain ⟨⟨written, middle⟩, first, execution⟩ := execution
  have queued : Inv middle := encrypted (not_not.mp complete) first
  simp only at execution
  split at execution
  · cases execution
    exact queued
  rw [Option.bind_eq_some_iff] at execution
  obtain ⟨⟨accepted, last⟩, second, execution⟩ := execution
  have sending : Inv last := sent queued second
  simp only at execution
  split at execution
  · cases execution
    exact sending
  split at execution
  · simp only [Option.bind_eq_bind, Option.bind_eq_some_iff] at execution
    obtain ⟨next, calls, execution⟩ := execution
    cases execution
    exact told sending calls
  · cases execution
    exact sending

theorem onWrite_within (handler : SocketHandler η) (input : TlsInput)
    (socket : Socket (TransmissionSecurity η)) (result : Int)
    (after : Socket (TransmissionSecurity η))
    (execution : onWrite handler input socket = some (result, after)) :
    Socket.SubSteps (Socket.serving socket.fd) socket after := by
  have shaken := (sslHandshake_within input.handshake socket).mono (serving_of_inner socket.fd)
  refine onWrite_keeps (.refl socket) shaken ?_ ?_ ?_ execution
  · intro value next complete first
    have encrypting := encryptQueued_within first
    rw [shaken.fd_eq] at encrypting
    exact shaken.trans (encrypting.mono (serving_of_inner socket.fd))
  · intro value middle next within second
    have sending := sendQueued_within second
    rw [within.fd_eq] at sending
    exact within.trans (sending.mono (serving_of_inner socket.fd))
  · intro middle next within calls
    exact within.trans (callBack_send_serving calls trivial)

/-- The virtual methods of `TransmissionSecurity`. -/
def socketClass (handler : SocketHandler η) :
    SocketClass (TransmissionSecurity η) TlsInput where
  send := send
  onConnect := onConnect handler
  onDisconnect := onDisconnect handler
  onRead := onRead handler
  onWrite := onWrite handler
  send_within := send_within
  onConnect_within := onConnect_within handler
  onDisconnect_within := onDisconnect_within handler
  onRead_within := onRead_within handler
  onWrite_within := onWrite_within handler

end TransmissionSecurity
end NetworkBase
