import NetworkBase.Tool.SoundBuffer
import NetworkBase.Transport.SocketHandler

/-!
# The plain transport

`Transmission` stages outgoing bytes in `send_` and incoming bytes in `read_`.  `OnWrite` hands the
whole send queue to one `write`; `OnRead` collects chunks and offers the whole read queue to the
handler when it is told that a read is finished.
-/

namespace NetworkBase

/-- The members of `Transmission`: the queues `send_` and `read_`, and the state of the handler. -/
structure Transmission (η : Type) where
  sendBuffer : SoundBuffer
  readBuffer : SoundBuffer
  handler : η

namespace Transmission

variable {η : Type}

/-- Initial size of `send_`. -/
def kSendBufLen : Nat := 64 * 1024

/-- Initial size of `read_`. -/
def kReadBufLen : Nat := 64 * 1024

/-- The constructor. -/
def construct (handler : η) : Socket (Transmission η) :=
  Socket.construct
    { sendBuffer := SoundBuffer.construct kSendBufLen
      readBuffer := SoundBuffer.construct kReadBufLen
      handler }

/-- Replace `send_`. -/
def setSendBuffer (sendBuffer : SoundBuffer) (socket : Socket (Transmission η)) :
    Socket (Transmission η) :=
  { socket with sub := { socket.sub with sendBuffer } }

/-- Replace `read_`. -/
def setReadBuffer (readBuffer : SoundBuffer) (socket : Socket (Transmission η)) :
    Socket (Transmission η) :=
  { socket with sub := { socket.sub with readBuffer } }

/-- Move the handler to its next state. -/
def setHandler (handler : η) (socket : Socket (Transmission η)) : Socket (Transmission η) :=
  { socket with sub := { socket.sub with handler } }

/-- `Send`. -/
def send (data : CharSpan) (socket : Socket (Transmission η)) :
    Option (Int × Socket (Transmission η)) := do
  let (result, sendBuffer) ← socket.sub.sendBuffer.addTailData data
  some (result, (setSendBuffer sendBuffer socket).emit (.send data result))

variable (handler : SocketHandler η)

/-- `OnConnect`. -/
def onConnect (socket : Socket (Transmission η)) : Option (Socket (Transmission η)) :=
  let (calls, state) := handler.onConnect socket.sub.handler
  Socket.callBack send calls (setHandler state (socket.emit .onConnect))

/-- `OnDisconnect`. -/
def onDisconnect (socket : Socket (Transmission η)) : Option (Socket (Transmission η)) :=
  let (calls, state) := handler.onDisconnect socket.sub.handler
  Socket.callBack send calls (setHandler state (socket.emit .onDisconnect))

/-- `readBufferPopData`. -/
def readBufferPopData (offer : List UInt8) (socket : Socket (Transmission η)) :
    Option (Int × Socket (Transmission η)) := do
  let (result, calls, state) := handler.onData offer socket.sub.handler
  let socket ← Socket.callBack send calls (setHandler state (socket.emit (.onData offer result)))
  some (result, socket)

/-- `OnRead`. -/
def onRead (chunk : Chunk) (finish : Bool) (socket : Socket (Transmission η)) :
    Option (Int × Socket (Transmission η)) := do
  let (added, readBuffer) ← socket.sub.readBuffer.addTailData (.bytes chunk.val)
  let socket := setReadBuffer readBuffer socket
  if added < 0 then
    some (-1, socket)
  else if finish then do
    let (_, readBuffer, socket) ← readBuffer.popHeadData (readBufferPopData handler) socket
    some (chunk.val.length, setReadBuffer readBuffer socket)
  else
    some (chunk.val.length, socket)

/-- `writeBufferPopData`. -/
def writeBufferPopData (kernel : WriteResult) (offer : List UInt8)
    (socket : Socket (Transmission η)) : Option (Int × Socket (Transmission η)) :=
  some (socket.rawSend kernel (.bytes offer))

/-- `OnWrite`. -/
def onWrite (kernel : WriteResult) (socket : Socket (Transmission η)) :
    Option (Int × Socket (Transmission η)) :=
  if socket.sub.sendBuffer.getSize ≠ 0 then do
    let (result, sendBuffer, socket) ←
      socket.sub.sendBuffer.popHeadData (writeBufferPopData kernel) socket
    some (result, setSendBuffer sendBuffer socket)
  else do
    let (calls, state) := handler.onWrite socket.sub.handler
    let socket ← Socket.callBack send calls (setHandler state (socket.emit .onWrite))
    some (0, socket)

/-! ## The virtual method table -/

theorem setSendBuffer_within {allowed : Event → Prop} (sendBuffer : SoundBuffer)
    (socket : Socket (Transmission η)) :
    Socket.SubSteps allowed socket (setSendBuffer sendBuffer socket) :=
  .single (.members socket _)

theorem setReadBuffer_within {allowed : Event → Prop} (readBuffer : SoundBuffer)
    (socket : Socket (Transmission η)) :
    Socket.SubSteps allowed socket (setReadBuffer readBuffer socket) :=
  .single (.members socket _)

theorem setHandler_within {allowed : Event → Prop} (state : η)
    (socket : Socket (Transmission η)) :
    Socket.SubSteps allowed socket (setHandler state socket) :=
  .single (.members socket _)

theorem send_eq_some {data : CharSpan} {socket after : Socket (Transmission η)} {result : Int} :
    send data socket = some (result, after) ↔
      ∃ sendBuffer, socket.sub.sendBuffer.addTailData data = some (result, sendBuffer) ∧
        (setSendBuffer sendBuffer socket).emit (.send data result) = after := by
  rw [send, Option.bind_eq_bind, Option.bind_eq_some_iff]
  constructor
  · rintro ⟨⟨value, sendBuffer⟩, added, execution⟩
    obtain ⟨rfl, rfl⟩ : value = result ∧ _ = after := by simpa using execution
    exact ⟨sendBuffer, added, rfl⟩
  · rintro ⟨sendBuffer, added, rfl⟩
    exact ⟨(result, sendBuffer), added, rfl⟩

theorem send_within (data : CharSpan) (socket : Socket (Transmission η)) (result : Int)
    (after : Socket (Transmission η)) (execution : send data socket = some (result, after)) :
    Socket.SubSteps Socket.quiet socket after := by
  obtain ⟨sendBuffer, -, rfl⟩ := send_eq_some.mp execution
  exact (setSendBuffer_within sendBuffer socket).trans (.single (.event _ _ trivial))

/-- A callback of the handler: the event, the handler's next state and its calls. -/
theorem callBack_send_within {calls : List PublicCall} {state : η}
    {socket after : Socket (Transmission η)}
    (execution : Socket.callBack send calls (setHandler state socket) = some after) :
    Socket.SubSteps Socket.quiet socket after :=
  (setHandler_within state socket).trans (Socket.callBack_within send_within execution)

theorem callBack_send_serving {calls : List PublicCall} {state : η} {event : Event} {fd : Int}
    {socket after : Socket (Transmission η)}
    (execution : Socket.callBack send calls (setHandler state (socket.emit event)) = some after)
    (ok : Socket.serving fd event) :
    Socket.SubSteps (Socket.serving fd) socket after :=
  Socket.SubSteps.trans (.single (.event socket event ok))
    ((callBack_send_within execution).mono (Socket.serving_of_quiet fd))

theorem readBufferPopData_eq_some {offer : List UInt8} {socket after : Socket (Transmission η)}
    {result : Int} :
    readBufferPopData handler offer socket = some (result, after) ↔
      (handler.onData offer socket.sub.handler).1 = result ∧
        Socket.callBack send (handler.onData offer socket.sub.handler).2.1
          (setHandler (handler.onData offer socket.sub.handler).2.2
            (socket.emit (.onData offer result))) = some after := by
  rw [readBufferPopData]
  simp only [Option.bind_eq_bind, Option.bind_eq_some_iff, Option.some.injEq, Prod.mk.injEq]
  constructor
  · rintro ⟨next, execution, rfl, rfl⟩
    exact ⟨rfl, execution⟩
  · rintro ⟨rfl, execution⟩
    exact ⟨after, execution, rfl, rfl⟩

theorem onConnect_within (socket after : Socket (Transmission η))
    (execution : onConnect handler socket = some after) :
    Socket.SubSteps Socket.quiet (socket.emit .onConnect) after :=
  callBack_send_within execution

theorem onDisconnect_within (socket after : Socket (Transmission η))
    (execution : onDisconnect handler socket = some after) :
    Socket.SubSteps Socket.quiet (socket.emit .onDisconnect) after :=
  callBack_send_within execution

theorem added_chunk (chunk : Chunk) :
    AutoGrowBuffer.added (.bytes chunk.val) = chunk.val ∧
      AutoGrowBuffer.addResult (.bytes chunk.val) = chunk.val.length :=
  AutoGrowBuffer.added_of_length_le (chunk.property.trans (by decide))

theorem addResult_chunk_nonneg (chunk : Chunk) :
    ¬AutoGrowBuffer.addResult (.bytes chunk.val) < 0 := by
  rw [(added_chunk chunk).2]
  omega

/-- A chunk fits into the queue: `OnRead` stores it and, when told that the read is finished, offers
the whole queue. -/
theorem onRead_eq_some {handler : SocketHandler η} {chunk : Chunk} {finish : Bool}
    {before after : Socket (Transmission η)} {result : Int}
    (execution : onRead handler chunk finish before = some (result, after)) :
    ∃ readBuffer : SoundBuffer,
      readBuffer.unread = before.sub.readBuffer.unread ++ chunk.val ∧
      result = chunk.val.length ∧
      (finish = false ∧ after = setReadBuffer readBuffer before ∨
        ∃ value next, finish = true ∧
          readBufferPopData handler readBuffer.unread (setReadBuffer readBuffer before) =
            some (value, next) ∧
          after = setReadBuffer (readBuffer.consume value).2 next) := by
  rw [onRead, Option.bind_eq_bind, Option.bind_eq_some_iff] at execution
  obtain ⟨⟨added, readBuffer⟩, stored, execution⟩ := execution
  obtain ⟨rfl, unread_eq⟩ := SoundBuffer.addTailData_of_some stored
  rw [(added_chunk chunk).1] at unread_eq
  refine ⟨readBuffer, unread_eq, ?_⟩
  simp only [if_neg (addResult_chunk_nonneg chunk)] at execution
  cases finish with
  | false =>
      obtain ⟨rfl, rfl⟩ : (chunk.val.length : Int) = result ∧ _ = after := by
        simpa using execution
      exact ⟨rfl, Or.inl ⟨rfl, rfl⟩⟩
  | true =>
      rw [if_pos rfl, Option.bind_eq_bind, Option.bind_eq_some_iff] at execution
      obtain ⟨⟨popped, popBuffer, next⟩, pop, execution⟩ := execution
      obtain ⟨value, answer, consumed⟩ := SoundBuffer.popHeadData_eq_some_iff.mp pop
      cases execution
      refine ⟨rfl, Or.inr ⟨value, next, rfl, answer, ?_⟩⟩
      rw [consumed]

/-- `OnWrite` offers the whole queue to the kernel, or calls the handler when nothing waits. -/
theorem onWrite_cases {handler : SocketHandler η} {kernel : WriteResult}
    {before after : Socket (Transmission η)} {result : Int}
    (execution : onWrite handler kernel before = some (result, after)) :
    (before.sub.sendBuffer.unread ≠ [] ∧ after = setSendBuffer
        (before.sub.sendBuffer.consume
          (before.rawSend kernel (.bytes before.sub.sendBuffer.unread)).1).2
        (before.rawSend kernel (.bytes before.sub.sendBuffer.unread)).2) ∨
      (before.sub.sendBuffer.unread = [] ∧
        Socket.callBack send (handler.onWrite before.sub.handler).1
          (setHandler (handler.onWrite before.sub.handler).2 (before.emit .onWrite)) =
            some after) := by
  rw [onWrite, SoundBuffer.getSize_eq] at execution
  split at execution
  · rename_i queued
    rw [Option.bind_eq_bind, Option.bind_eq_some_iff] at execution
    obtain ⟨⟨popped, popBuffer, next⟩, pop, execution⟩ := execution
    obtain ⟨popLen, answer, consumed⟩ := SoundBuffer.popHeadData_eq_some_iff.mp pop
    cases execution
    refine .inl ⟨fun empty => queued (List.length_eq_zero_iff.mpr empty), ?_⟩
    rw [Option.some.inj answer, consumed]
  · rename_i none_queued
    simp only [Option.bind_eq_bind, Option.bind_eq_some_iff] at execution
    obtain ⟨next, calls, execution⟩ := execution
    cases execution
    exact .inr ⟨List.length_eq_zero_iff.mp (not_not.mp none_queued), calls⟩

theorem onRead_within (chunk : Chunk) (finish : Bool) (socket : Socket (Transmission η))
    (result : Int) (after : Socket (Transmission η))
    (execution : onRead handler chunk finish socket = some (result, after)) :
    Socket.SubSteps (Socket.serving socket.fd) socket after := by
  obtain ⟨readBuffer, -, -, outcome⟩ := onRead_eq_some execution
  have first : Socket.SubSteps (Socket.serving socket.fd) socket
      (setReadBuffer readBuffer socket) := setReadBuffer_within readBuffer socket
  rcases outcome with ⟨-, rfl⟩ | ⟨value, next, -, answer, rfl⟩
  · exact first
  · obtain ⟨-, calls⟩ := (readBufferPopData_eq_some handler).mp answer
    exact (first.trans (callBack_send_serving calls trivial)).trans (setReadBuffer_within _ next)

theorem onWrite_within (kernel : WriteResult) (socket : Socket (Transmission η)) (result : Int)
    (after : Socket (Transmission η))
    (execution : onWrite handler kernel socket = some (result, after)) :
    Socket.SubSteps (Socket.serving socket.fd) socket after := by
  rcases onWrite_cases execution with ⟨-, rfl⟩ | ⟨-, calls⟩
  · exact (Socket.rawSend_within (fun _ _ => rfl) kernel _).trans (setSendBuffer_within _ _)
  · exact callBack_send_serving calls trivial

/-- The virtual methods of `Transmission`; a write asks the kernel once, a read not at all. -/
def socketClass : SocketClass (Transmission η) WriteResult where
  send := send
  onConnect := onConnect handler
  onDisconnect := onDisconnect handler
  onRead _ := onRead handler
  onWrite := onWrite handler
  send_within := send_within
  onConnect_within := onConnect_within handler
  onDisconnect_within := onDisconnect_within handler
  onRead_within _ := onRead_within handler
  onWrite_within := onWrite_within handler

end Transmission
end NetworkBase
