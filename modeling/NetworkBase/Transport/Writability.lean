import NetworkBase.Library.PartialRun
import NetworkBase.Transport.Transmission
import NetworkBase.Transport.EncryptStream

/-!
# Telling the handler that it may write

`OnWrite` first works off what is queued and then may call the handler.  The plain transport calls
it only where nothing was queued; the encrypted one looks at one of its two queues twice and at the
other one not at all.
-/

namespace NetworkBase

/-- A call that fills the queues of a transport, or works them off. -/
inductive WriteCall (ι : Type)
  | send (data : CharSpan)
  | onWrite (input : ι)

/-- Perform a call. -/
def WriteCall.perform {σ ι : Type} (cls : SocketClass σ ι) :
    WriteCall ι → Socket σ → Option (Socket σ)
  | .send data, socket => (cls.send data socket).map Prod.snd
  | .onWrite input, socket => (cls.onWrite input socket).map Prod.snd

namespace SocketHandler

/-- The handler that makes these calls when it may write, and else does nothing. -/
def telling {η : Type} (calls : List PublicCall) : SocketHandler η where
  onConnect state := ([], state)
  onDisconnect state := ([], state)
  onData _ state := (0, [], state)
  onWrite state := (calls, state)

end SocketHandler

/-! ## The plain transport -/

namespace Transmission

variable {η : Type} {kernel : WriteResult} {socket told : Socket (Transmission η)}

/-- The call of the handler in the state `told`. -/
def tell (handler : SocketHandler η) (told : Socket (Transmission η)) :
    Option (Int × Socket (Transmission η)) := do
  let (calls, state) := handler.onWrite told.sub.handler
  let socket ← Socket.callBack send calls (setHandler state (told.emit .onWrite))
  some (0, socket)

/-- `OnWrite` goes on in the state `told` with the call of the handler, whichever this is. -/
def Tells (kernel : WriteResult) (socket told : Socket (Transmission η)) : Prop :=
  ∀ handler, onWrite handler kernel socket = tell handler told

/-- An `OnWrite` that does not ask the handler does not tell it anything. -/
theorem Tells.depends (tells : Tells kernel socket told)
    (ignores : ∀ handler other : SocketHandler η,
      onWrite handler kernel socket = onWrite other kernel socket) : False := by
  have outcomes : tell (.telling []) told = tell (.telling [.close]) told :=
    (tells _).symm.trans ((ignores _ _).trans (tells _))
  have lengths := congrArg (Option.map fun outcome => outcome.2.log.length) outcomes
  simp [tell, SocketHandler.telling, Socket.callBack, setHandler, Socket.close] at lengths

/-- `OnWrite` calls the handler where nothing is queued, and otherwise does not ask it. -/
theorem tells_or_ignores (kernel : WriteResult) (socket : Socket (Transmission η)) :
    socket.sub.sendBuffer.unread = [] ∧ Tells kernel socket socket ∨
      ∀ handler other : SocketHandler η,
        onWrite handler kernel socket = onWrite other kernel socket := by
  by_cases nothing : socket.sub.sendBuffer.unread = []
  · refine .inl ⟨nothing, fun handler => ?_⟩
    rw [onWrite, if_neg (by rw [SoundBuffer.getSize_eq, nothing]; exact not_not.mpr rfl)]
    rfl
  · refine .inr fun handler other => ?_
    have some_left : socket.sub.sendBuffer.getSize ≠ 0 := by
      rw [SoundBuffer.getSize_eq]
      exact mt List.length_eq_zero_iff.mp nothing
    rw [onWrite, if_pos some_left, onWrite, if_pos some_left]

/-- The state in which the handler is called has the queue that the decision saw. -/
theorem Tells.sendBuffer_eq (tells : Tells kernel socket told) {other : Socket (Transmission η)}
    (tells' : Tells kernel socket other) : told.sub.sendBuffer = other.sub.sendBuffer := by
  have outcomes : tell (.telling []) told = tell (.telling []) other :=
    (tells _).symm.trans (tells' _)
  exact congrArg (fun socket => socket.sub.sendBuffer) (Prod.mk.inj (Option.some.inj outcomes)).2

/-- Whenever `OnWrite` calls the handler, `send_` is empty. -/
def Empties : WriteCall WriteResult → Socket (Transmission η) → Prop
  | .send _, _ => True
  | .onWrite kernel, socket => ∀ told, Tells kernel socket told →
      told.sub.sendBuffer.unread = []

theorem empties (call : WriteCall WriteResult) (socket : Socket (Transmission η)) :
    Empties call socket := by
  cases call with
  | send data => trivial
  | onWrite kernel =>
      intro told tells
      rcases tells_or_ignores kernel socket with ⟨nothing, here⟩ | ignores
      · rw [tells.sendBuffer_eq here, nothing]
      · exact absurd ignores tells.depends

end Transmission

/-! ## The encrypted transport -/

namespace TransmissionSecurity

variable {η : Type} {input : TlsInput} {socket told : Socket (TransmissionSecurity η)}

/-- The call of the handler in the state `told`. -/
def tell (handler : SocketHandler η) (told : Socket (TransmissionSecurity η)) :
    Option (Int × Socket (TransmissionSecurity η)) := do
  let (calls, state) := handler.onWrite told.sub.handler
  let socket ← Socket.callBack send calls
    (update (fun sub => { sub with handler := state }) (told.emit .onWrite))
  some (0, socket)

/-- `OnWrite` goes on in the state `told` with the call of the handler, whichever this is. -/
def Tells (input : TlsInput) (socket told : Socket (TransmissionSecurity η)) : Prop :=
  ∀ handler, onWrite handler input socket = tell handler told

/-- An `OnWrite` that does not ask the handler does not tell it anything. -/
theorem Tells.depends (tells : Tells input socket told)
    (ignores : ∀ handler other : SocketHandler η,
      onWrite handler input socket = onWrite other input socket) : False := by
  have outcomes : tell (.telling []) told = tell (.telling [.close]) told :=
    (tells _).symm.trans ((ignores _ _).trans (tells _))
  have lengths := congrArg (Option.map fun outcome => outcome.2.log.length) outcomes
  simp [tell, SocketHandler.telling, Socket.callBack, update, Socket.close] at lengths

/-- The state in which the handler is called has the queues that the decision saw. -/
theorem Tells.queues_eq (tells : Tells input socket told)
    {other : Socket (TransmissionSecurity η)} (tells' : Tells input socket other) :
    told.sub.sourceSend = other.sub.sourceSend ∧ told.sub.tlsSend = other.sub.tlsSend := by
  have outcomes : tell (.telling []) told = tell (.telling []) other :=
    (tells _).symm.trans (tells' _)
  have last_eq := (Prod.mk.inj (Option.some.inj outcomes)).2
  exact ⟨congrArg (fun socket => socket.sub.sourceSend) last_eq,
    congrArg (fun socket => socket.sub.tlsSend) last_eq⟩

/-- Whenever `OnWrite` calls the handler, `source_send_` and `tls_send_` are empty. -/
def Empties : WriteCall TlsInput → Socket (TransmissionSecurity η) → Prop
  | .send _, _ => True
  | .onWrite input, socket => ∀ told, Tells input socket told →
      told.sub.sourceSend.unread = [] ∧ told.sub.tlsSend.unread = []

/-- The library takes a part of `source_send_` at most, and what is left of `tls_send_` goes out as
a whole. -/
structure Leaves (input : TlsInput) (socket : Socket (TransmissionSecurity η)) : Prop where
  init : socket.sub.init = true
  complete : input.handshake.result = 0
  queued : socket.sub.sourceSend.unread ≠ []
  partly : wants input.write.result = true ∨
    0 < input.write.result ∧ input.write.result < socket.sub.sourceSend.unread.length
  flushed : socket.sub.tlsSend.unread = [] ∨
    input.rawWrite.value socket.sub.tlsSend.unread.length = socket.sub.tlsSend.unread.length

/-- No `OnWrite` leaves bytes in `source_send_` and tells the handler. -/
def Spares : WriteCall TlsInput → Socket (TransmissionSecurity η) → Prop
  | .send _, _ => True
  | .onWrite input, socket => ¬Leaves input socket

/-- Encrypting succeeds with something left exactly where the library takes a part. -/
theorem exists_encryptQueued (write : SslCall) (socket : Socket (TransmissionSecurity η)) :
    ∃ result after, encryptQueued write socket = some (result, after) ∧
      after.sub.tlsSend = socket.sub.tlsSend ∧
      (0 ≤ result ∧ after.sub.sourceSend.unread ≠ [] ↔
        socket.sub.sourceSend.unread ≠ [] ∧ (wants write.result = true ∨
          0 < write.result ∧ write.result < socket.sub.sourceSend.unread.length)) := by
  rw [encryptQueued, SoundBuffer.getSize_eq]
  by_cases nothing : socket.sub.sourceSend.unread = []
  · rw [if_neg (by simp [nothing])]
    exact ⟨0, socket, rfl, rfl, by simp [nothing]⟩
  · have some_left : 0 < socket.sub.sourceSend.unread.length := List.length_pos_iff.mpr nothing
    obtain ⟨⟨value, next⟩, answer⟩ : ∃ answer,
        sourceSendBufferPopData write socket.sub.sourceSend.unread socket = some answer := by
      simp only [sourceSendBufferPopData]
      split
      · split
        · exact ⟨_, rfl⟩
        · exact ⟨_, rfl⟩
      · exact ⟨_, rfl⟩
    have value_eq := value_of_sourceSendBufferPopData answer
    have next_eq := next_of_sourceSendBufferPopData answer
    have pop : socket.sub.sourceSend.popHeadData (sourceSendBufferPopData write) socket =
        some ((socket.sub.sourceSend.consume value).1, (socket.sub.sourceSend.consume value).2,
          next) := SoundBuffer.popHeadData_eq_some_iff.mpr ⟨value, answer, rfl⟩
    obtain ⟨tlsRead, readTempLen, sub_eq⟩ := sub_netCalls write.net socket
    rw [if_pos (by omega), pop]
    refine ⟨_, _, rfl, ?_, ?_⟩
    · rw [update, next_eq, Socket.sub_emit, sub_eq]
    · refine (SoundBuffer.consume_leaves value socket.sub.sourceSend).trans ?_
      rw [and_iff_right nothing, value_eq]
      by_cases waits : wants write.result = true
      · rw [if_pos (nonpos_of_wants waits), if_neg (not_not.mpr waits)]
        simp only [waits, true_or, iff_true]
        omega
      · rw [if_pos waits, or_iff_right waits]
        split
        · omega
        · omega

/-- Sending succeeds with nothing left exactly where the kernel takes the whole. -/
theorem exists_sendQueued (kernel : WriteResult) (socket : Socket (TransmissionSecurity η)) :
    ∃ result after, sendQueued kernel socket = some (result, after) ∧
      after.sub.sourceSend = socket.sub.sourceSend ∧
      (0 ≤ result ∧ after.sub.tlsSend.unread = [] ↔
        socket.sub.tlsSend.unread = [] ∨
          kernel.value socket.sub.tlsSend.unread.length = socket.sub.tlsSend.unread.length) := by
  rw [sendQueued, SoundBuffer.getSize_eq]
  by_cases nothing : socket.sub.tlsSend.unread = []
  · rw [if_neg (by simp [nothing])]
    exact ⟨0, socket, rfl, rfl, by simp [nothing]⟩
  · have some_left : 0 < socket.sub.tlsSend.unread.length := List.length_pos_iff.mpr nothing
    have filled : (CharSpan.bytes socket.sub.tlsSend.unread).nonEmpty = true := by
      simp [CharSpan.nonEmpty, nothing]
    obtain ⟨value, next, written⟩ : ∃ value next,
        socket.rawSend kernel (.bytes socket.sub.tlsSend.unread) = (value, next) := ⟨_, _, rfl⟩
    have pop : socket.sub.tlsSend.popHeadData (tlsSendBufferPopData kernel) socket =
        some ((socket.sub.tlsSend.consume value).1, (socket.sub.tlsSend.consume value).2,
          next) := SoundBuffer.popHeadData_eq_some_iff.mpr ⟨value, congrArg some written, rfl⟩
    rw [Socket.rawSend_eq filled, CharSpan.len_bytes] at written
    obtain ⟨value_eq, next_eq⟩ := Prod.mk.inj written
    rw [if_pos (by omega), pop]
    refine ⟨_, _, rfl, by rw [update, ← next_eq, Socket.sub_emit], ?_⟩
    refine (SoundBuffer.consume_empties value socket.sub.tlsSend).trans ?_
    rw [or_iff_right nothing, ← value_eq]
    split
    · omega
    · exact Iff.rfl

/-- The parts of an `OnWrite` that come before the call of the handler. -/
structure Parts (input : TlsInput) (socket middle last : Socket (TransmissionSecurity η))
    (encrypted sent : Int) : Prop where
  encrypts : encryptQueued input.write (sslHandshake input.handshake socket).2 =
    some (encrypted, middle)
  sends : sendQueued input.rawWrite middle = some (sent, last)

/-- `OnWrite` calls the handler where the handshake is complete, both parts succeed and `tls_send_`
is empty then, and otherwise does not ask it. -/
theorem tells_or_ignores {middle last : Socket (TransmissionSecurity η)} {encrypted sent : Int}
    (parts : Parts input socket middle last encrypted sent) :
    (socket.sub.init = true ∧ input.handshake.result = 0 ∧ 0 ≤ encrypted ∧ 0 ≤ sent ∧
        last.sub.tlsSend.unread = []) ∧ Tells input socket last ∨
      ¬(socket.sub.init = true ∧ input.handshake.result = 0 ∧ 0 ≤ encrypted ∧ 0 ≤ sent ∧
        last.sub.tlsSend.unread = []) ∧
      ∀ handler other : SocketHandler η,
        onWrite handler input socket = onWrite other input socket := by
  have shaken : (sslHandshake input.handshake socket).1 = input.handshake.result := rfl
  by_cases init : socket.sub.init = true
  swap
  · refine .inr ⟨fun asks => init asks.1, fun handler other => ?_⟩
    rw [onWrite, if_pos init, onWrite, if_pos init]
  by_cases complete : input.handshake.result = 0
  swap
  · refine .inr ⟨fun asks => complete asks.2.1, fun handler other => ?_⟩
    simp only [onWrite, init, not_true, if_false, shaken, ne_eq, complete, not_false_eq_true,
      if_true]
  by_cases encrypting : 0 ≤ encrypted
  swap
  · refine .inr ⟨fun asks => encrypting asks.2.2.1, fun handler other => ?_⟩
    simp only [onWrite, init, not_true, if_false, shaken, ne_eq, complete, Option.bind_eq_bind,
      parts.encrypts, Option.bind_some, if_pos (Int.not_le.mp encrypting)]
  by_cases sending : 0 ≤ sent
  swap
  · refine .inr ⟨fun asks => sending asks.2.2.2.1, fun handler other => ?_⟩
    simp only [onWrite, init, not_true, if_false, shaken, ne_eq, complete, Option.bind_eq_bind,
      parts.encrypts, Option.bind_some, if_neg (Int.not_lt.mpr encrypting), parts.sends,
      if_pos (Int.not_le.mp sending)]
  have size_eq : last.sub.tlsSend.getSize = 0 ↔ last.sub.tlsSend.unread = [] := by
    rw [SoundBuffer.getSize_eq]
    exact List.length_eq_zero_iff
  by_cases nothing : last.sub.tlsSend.unread = []
  · refine .inl ⟨⟨init, complete, encrypting, sending, nothing⟩, fun handler => ?_⟩
    simp only [onWrite, init, not_true, if_false, shaken, ne_eq, complete, Option.bind_eq_bind,
      parts.encrypts, Option.bind_some, if_neg (Int.not_lt.mpr encrypting), parts.sends,
      if_neg (Int.not_lt.mpr sending), size_eq.mpr nothing, and_self, not_false_eq_true, if_true]
    rfl
  · refine .inr ⟨fun asks => nothing asks.2.2.2.2, fun handler other => ?_⟩
    simp only [onWrite, init, not_true, if_false, shaken, ne_eq, complete, Option.bind_eq_bind,
      parts.encrypts, Option.bind_some, if_neg (Int.not_lt.mpr encrypting), parts.sends,
      if_neg (Int.not_lt.mpr sending), size_eq, nothing, not_false_eq_true, and_self]

theorem queues_sslHandshake (call : SslCall) (socket : Socket (TransmissionSecurity η)) :
    (sslHandshake call socket).2.sub.sourceSend = socket.sub.sourceSend ∧
      (sslHandshake call socket).2.sub.tlsSend = socket.sub.tlsSend := by
  obtain ⟨tlsRead, readTempLen, sub_eq⟩ := sub_netCalls call.net socket
  rw [sslHandshake, Socket.sub_emit, sub_eq]
  exact ⟨rfl, rfl⟩

/-- An `OnWrite` tells the handler too early exactly where it leaves something. -/
theorem empties_iff (call : WriteCall TlsInput) (socket : Socket (TransmissionSecurity η)) :
    Empties call socket ↔ Spares call socket := by
  cases call with
  | send data => exact Iff.rfl
  | onWrite input =>
      obtain ⟨source_eq, tls_eq⟩ := queues_sslHandshake input.handshake socket
      obtain ⟨encrypted, middle, encrypts, kept, leaves_iff⟩ :=
        exists_encryptQueued input.write (sslHandshake input.handshake socket).2
      obtain ⟨sent, last, sends, kept', flushes_iff⟩ := exists_sendQueued input.rawWrite middle
      rw [source_eq] at leaves_iff
      rw [kept, tls_eq] at flushes_iff
      have outcome := tells_or_ignores ⟨encrypts, sends⟩
      constructor
      · intro empties leaves
        obtain ⟨encrypting, some_left⟩ := leaves_iff.mpr ⟨leaves.queued, leaves.partly⟩
        obtain ⟨sending, nothing⟩ := flushes_iff.mpr leaves.flushed
        rcases outcome with ⟨-, tells⟩ | ⟨silent, -⟩
        · rw [← kept'] at some_left
          exact some_left (empties last tells).1
        · exact silent ⟨leaves.init, leaves.complete, encrypting, sending, nothing⟩
      · intro spares told tells
        rcases outcome with ⟨⟨init, complete, encrypting, sending, nothing⟩, here⟩ | ⟨-, ignores⟩
        · obtain ⟨source_same, tls_same⟩ := tells.queues_eq here
          rw [source_same, tls_same, kept']
          refine ⟨?_, nothing⟩
          by_contra some_left
          obtain ⟨queued, partly⟩ := leaves_iff.mp ⟨encrypting, some_left⟩
          exact spares ⟨init, complete, queued, partly, flushes_iff.mp ⟨sending, nothing⟩⟩
        · exact absurd ignores tells.depends

end TransmissionSecurity

/-- The plain transport never tells the handler that it may write while something is queued, and
the encrypted one does so exactly in the runs in which an `OnWrite` leaves something. -/
theorem writability_iff {η : Type} (handler : SocketHandler η) :
    (∀ (calls : List (WriteCall WriteResult)) (socket : Socket (Transmission η)),
      PartialRun.Guarded (WriteCall.perform (Transmission.socketClass handler))
        Transmission.Empties calls socket) ∧
      ∀ (calls : List (WriteCall TransmissionSecurity.TlsInput))
        (socket : Socket (TransmissionSecurity η)),
        PartialRun.Guarded (WriteCall.perform (TransmissionSecurity.socketClass handler))
          TransmissionSecurity.Empties calls socket ↔
        PartialRun.Guarded (WriteCall.perform (TransmissionSecurity.socketClass handler))
          TransmissionSecurity.Spares calls socket :=
  ⟨fun calls => PartialRun.guarded_of_forall Transmission.empties calls,
    fun calls => PartialRun.guarded_congr TransmissionSecurity.empties_iff calls⟩

namespace TransmissionSecurity

/-- The handshake is complete, and the library does not take anything to encrypt. -/
def wantsWrite : TlsInput where
  handshake := { net := [], result := 0 }
  reads := []
  write := { net := [], result := errSslWantWrite }
  rawWrite := .accepts 0

/-- An encrypted socket that may be used. -/
def licensed : Socket (TransmissionSecurity Unit) :=
  (setSecurityLicence ⟨0, 0, 0, 0⟩ (construct ())).2

/-- After a `Send` of two bytes, of which the library takes none, the handler is told that it may
write. -/
theorem writability_wantsWrite :
    ¬((∀ (calls : List (WriteCall WriteResult)) (socket : Socket (Transmission Unit)),
      PartialRun.Guarded (WriteCall.perform (Transmission.socketClass SocketHandler.sink))
        Transmission.Empties calls socket) ∧
      ∀ (calls : List (WriteCall TlsInput)) (socket : Socket (TransmissionSecurity Unit)),
        PartialRun.Guarded (WriteCall.perform (socketClass SocketHandler.sink)) Empties calls
          socket) := by
  rintro ⟨-, empties⟩
  obtain ⟨added_eq, -⟩ := AutoGrowBuffer.added_of_length_le
    (by decide : [(1 : UInt8), 2].length ≤ AutoGrowBuffer.kMaxLen)
  obtain ⟨sourceSend, stored⟩ := SoundBuffer.exists_addTailData licensed.sub.sourceSend
    (.bytes [1, 2]) (by rw [added_eq]; decide)
  have unread_eq := (SoundBuffer.addTailData_of_some stored).2
  rw [added_eq] at unread_eq
  have sent : WriteCall.perform (socketClass SocketHandler.sink) (.send (.bytes [1, 2])) licensed =
      some ((update (fun sub => { sub with sourceSend }) licensed).emit
        (.send (.bytes [1, 2]) (AutoGrowBuffer.addResult (.bytes [1, 2])))) := by
    have stored' : licensed.sub.sourceSend.addTailData (.bytes [1, 2]) = _ := stored
    change (send (.bytes [1, 2]) licensed).map Prod.snd = _
    rw [send, if_neg (by decide), stored']
    rfl
  obtain ⟨-, later⟩ := empties [.send (.bytes [1, 2]), .onWrite wantsWrite] licensed
  refine (empties_iff _ _).mp (later _ sent).1 ⟨rfl, rfl, ?_, Or.inl rfl, Or.inl rfl⟩
  change sourceSend.unread ≠ []
  rw [unread_eq]
  exact List.append_ne_nil_of_right_ne_nil _ (List.cons_ne_nil _ _)

end TransmissionSecurity
end NetworkBase
