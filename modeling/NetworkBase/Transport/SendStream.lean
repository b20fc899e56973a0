import NetworkBase.Transport.QueueStream
import NetworkBase.Transport.StatusOrder

/-!
# The outgoing stream of the plain transport

The log of a socket shows which buffers `Send` took over and which bytes the kernel accepted.  In
every reachable state the accepted bytes, followed by the unread contents of `send_`, are the
buffers taken over, in the order of the calls.
-/

namespace NetworkBase
namespace Transmission

variable {η : Type}

/-- The bytes a `Send` with a positive value took over in an event. -/
def suppliedBy : Event → List UInt8
  | .send data result => if 0 < result then data.content else []
  | _ => []

/-- The outgoing stream: `Send` supplies it and the kernel accepts it. -/
def sendView : StreamView where
  outOf := acceptedBy
  inpOf := suppliedBy
  plain event plain := by
    cases event with
    | assigned status => exact ⟨rfl, rfl⟩
    | realConnect => exact ⟨rfl, rfl⟩
    | opened fd => exact ⟨rfl, rfl⟩
    | _ => exact absurd plain id

/-- `send_` conserves the outgoing stream. -/
abbrev SendStaged (base : List Event) (held₀ : List UInt8) (socket : Socket (Transmission η)) :
    Prop :=
  StreamStaged sendView Transmission.sendBuffer base held₀ socket

theorem suppliedBy_send (data : CharSpan) :
    suppliedBy (.send data (AutoGrowBuffer.addResult data)) = AutoGrowBuffer.added data := by
  by_cases filled : data.nonEmpty = true
  · obtain ⟨-, len_pos⟩ := CharSpan.content_length_of_nonEmpty filled
    by_cases len_le : data.len ≤ AutoGrowBuffer.kMaxLen
    · have positive : (0 : Int) < data.len := by omega
      simp [suppliedBy, AutoGrowBuffer.addResult, AutoGrowBuffer.added, filled, len_le, len_pos]
    · simp [suppliedBy, AutoGrowBuffer.addResult, AutoGrowBuffer.added, filled, len_le]
  · simp [suppliedBy, AutoGrowBuffer.addResult, AutoGrowBuffer.added, filled]

/-- `send` shows the kernel's count, and its own value makes the queue drop exactly that many. -/
theorem rawSend_counts {σ : Type} (kernel : WriteResult) (offer : List UInt8)
    (offer_ne : offer ≠ []) (socket : Socket σ) :
    (socket.rawSend kernel (.bytes offer)).2 =
        socket.emit (.kernelWrite socket.fd offer (kernel.value offer.length)) ∧
      AutoGrowBuffer.popCount (socket.rawSend kernel (.bytes offer)).1 offer.length =
        (kernel.value offer.length).toNat := by
  have filled : (CharSpan.bytes offer).nonEmpty = true := by simp [CharSpan.nonEmpty, offer_ne]
  have value_le := kernel.value_le offer.length
  rw [Socket.rawSend_eq filled]
  refine ⟨rfl, ?_⟩
  rw [CharSpan.len_bytes, AutoGrowBuffer.popCount]
  by_cases refused : kernel.value offer.length ≤ 0
  · rw [if_pos refused, if_pos (by omega)]
    omega
  · rw [if_neg refused, if_neg (by omega)]

section Conservation

variable {handler : SocketHandler η} {base : List Event} {held₀ : List UInt8}
  {before after : Socket (Transmission η)} {result : Int}

/-- `Send` appends what it takes over to the queue and to the supplied stream. -/
theorem sendStaged_send {data : CharSpan} (staged : SendStaged base held₀ before)
    (execution : send data before = some (result, after)) : SendStaged base held₀ after := by
  obtain ⟨sendBuffer, added, rfl⟩ := send_eq_some.mp execution
  obtain ⟨rfl, unread_eq⟩ := SoundBuffer.addTailData_of_some added
  have pushed := staged.push (.send data (AutoGrowBuffer.addResult data)) rfl
  have supplied : sendView.inpOf (.send data (AutoGrowBuffer.addResult data)) =
      AutoGrowBuffer.added data := suppliedBy_send data
  rw [supplied, ← unread_eq] at pushed
  exact pushed

/-- A callback: a silent event, the handler's next state and its calls. -/
theorem sendStaged_told {calls : List PublicCall} {state : η} {event : Event}
    (staged : SendStaged base held₀ before) (silent : sendView.Silent event)
    (execution : Socket.callBack send calls (setHandler state (before.emit event)) = some after) :
    SendStaged base held₀ after := by
  have next : SendStaged base held₀ (setHandler state (before.emit event)) :=
    (staged.emit silent).congr rfl rfl
  exact StreamStaged.callBack (fun _ _ _ _ staged sent => sendStaged_send staged sent)
    execution next

/-- `OnWrite` removes from the queue exactly the bytes the kernel accepted. -/
theorem sendStaged_onWrite {kernel : WriteResult} (staged : SendStaged base held₀ before)
    (execution : onWrite handler kernel before = some (result, after)) :
    SendStaged base held₀ after := by
  rcases onWrite_cases execution with ⟨offer_ne, rfl⟩ | ⟨-, calls⟩
  · obtain ⟨socket_eq, count_eq⟩ :=
      rawSend_counts kernel before.sub.sendBuffer.unread offer_ne before
    obtain ⟨-, unread_eq⟩ := SoundBuffer.consume_spec
      (before.rawSend kernel (.bytes before.sub.sendBuffer.unread)).1 before.sub.sendBuffer
    have popped_stream := staged.pop
      (.kernelWrite before.fd before.sub.sendBuffer.unread
        (kernel.value before.sub.sendBuffer.unread.length)) rfl rfl
    rw [count_eq] at unread_eq
    rw [← unread_eq] at popped_stream
    rw [socket_eq]
    exact popped_stream
  · exact sendStaged_told staged ⟨rfl, rfl⟩ calls

/-- `OnRead` touches the outgoing stream only through the calls of the handler. -/
theorem sendStaged_onRead {chunk : Chunk} {finish : Bool} (staged : SendStaged base held₀ before)
    (execution : onRead handler chunk finish before = some (result, after)) :
    SendStaged base held₀ after := by
  obtain ⟨readBuffer, -, -, outcome⟩ := onRead_eq_some execution
  have first : SendStaged base held₀ (setReadBuffer readBuffer before) :=
    staged.congr rfl rfl
  rcases outcome with ⟨-, rfl⟩ | ⟨value, next, -, answer, rfl⟩
  · exact first
  · obtain ⟨-, calls⟩ := (readBufferPopData_eq_some handler).mp answer
    have told : SendStaged base held₀ next := sendStaged_told first ⟨rfl, rfl⟩ calls
    exact told.congr rfl rfl

end Conservation

/-- The engine's reads and writes conserve the outgoing stream. -/
theorem kept_sendStaged (handler : SocketHandler η) (base : List Event) (held₀ : List UInt8) :
    Socket.Kept (socketClass handler) (SendStaged base held₀) where
  disconnect _ staged := staged.assign .disconnected
  barren _ _ staged _ := staged.emit ⟨rfl, rfl⟩
  onRead _ _ _ _ _ _ staged execution := sendStaged_onRead (staged.emit ⟨rfl, rfl⟩) execution
  onWrite _ _ _ _ staged execution := sendStaged_onWrite staged execution
  report _ _ staged _ execution :=
    sendStaged_told (staged.assign .connected) ⟨rfl, rfl⟩ execution

/-- In every reachable state the outgoing stream is conserved. -/
theorem sendStaged_of_reached {handler : SocketHandler η} {state : η}
    {calls : List (Socket.Call WriteResult)} {reached : Socket (Transmission η)}
    (execution : PartialRun.run (Socket.perform (socketClass handler)) calls (construct state) =
      some reached) : SendStaged [] [] reached :=
  StreamStaged.run (kept_sendStaged handler [] [])
    (fun _ _ _ _ staged sent => sendStaged_send staged sent) execution
    (StreamStaged.construct rfl)

/-! ## Runs of a connected socket -/

/-- A call of the outgoing side. -/
inductive StreamCall
  | send (data : CharSpan)
  | realWrite (soError : SoError) (kernel : WriteResult)
  | onWrite (kernel : WriteResult)

/-- One call of the outgoing side. -/
def streamStep (handler : SocketHandler η) :
    StreamCall → Socket (Transmission η) → Option (Socket (Transmission η))
  | .send data, socket => (send data socket).map Prod.snd
  | .realWrite soError kernel, socket =>
      Socket.realWrite (socketClass handler) soError kernel socket
  | .onWrite kernel, socket => (onWrite handler kernel socket).map Prod.snd

/-- The bytes the calls of a callback add to the queue. -/
def addedByCalls : List PublicCall → List UInt8
  | [] => []
  | .send data :: calls => AutoGrowBuffer.added data ++ addedByCalls calls
  | _ :: calls => addedByCalls calls

/-- The handler's `OnWrite`, which a write of an empty queue leads to, keeps the queue small. -/
def OnWriteFits (handler : SocketHandler η) (socket : Socket (Transmission η)) : Prop :=
  socket.sub.sendBuffer.getSize = 0 →
    (addedByCalls (handler.onWrite socket.sub.handler).1).length < 2 ^ 30

/-- The call leaves fewer than `2 ^ 30` bytes queued. -/
def StreamCall.Fits (handler : SocketHandler η) :
    StreamCall → Socket (Transmission η) → Prop
  | .send data, socket =>
      socket.sub.sendBuffer.getSize + (AutoGrowBuffer.added data).length < 2 ^ 30
  | .realWrite _ _, socket => socket.status = .connected → OnWriteFits handler socket
  | .onWrite _, socket => OnWriteFits handler socket

/-- A connected socket stays connected or is given up. -/
def Served (socket : Socket (Transmission η)) : Prop :=
  socket.status = .connected ∨ socket.status = .disconnected

theorem Served.callBack {calls : List PublicCall} {before after : Socket (Transmission η)}
    (execution : Socket.callBack send calls before = some after) (served : Served before) :
    Served after := by
  refine Socket.callBack_preserves Served ?_ ?_ ?_ ?_ ?_ execution served
  · intro data first result next served sent
    obtain ⟨sendBuffer, -, rfl⟩ := send_eq_some.mp sent
    exact served
  · intro socket served
    exact Or.inr rfl
  · intro now timeoutMs socket served
    rcases Socket.connect_cases now timeoutMs socket with ⟨fresh, -, -⟩ | ⟨status_eq, -⟩
    · rw [Served, fresh] at served
      exact absurd served (by decide)
    · rw [Served, status_eq]
      exact served
  · intro protocol socket served
    exact served
  · intro ip port socket served
    exact served

/-- A `Send` that fits is defined. -/
theorem exists_send (data : CharSpan) {socket : Socket (Transmission η)}
    (fits : socket.sub.sendBuffer.unread.length + (AutoGrowBuffer.added data).length < 2 ^ 30) :
    ∃ result after, send data socket = some (result, after) ∧
      after.sub.sendBuffer.unread =
        socket.sub.sendBuffer.unread ++ AutoGrowBuffer.added data := by
  obtain ⟨sendBuffer, added⟩ := socket.sub.sendBuffer.exists_addTailData data fits
  obtain ⟨-, unread_eq⟩ := SoundBuffer.addTailData_of_some added
  exact ⟨_, _, send_eq_some.mpr ⟨sendBuffer, added, rfl⟩, unread_eq⟩

/-- The calls of a callback are defined if a `Send` that fits is defined and queues no more than it
takes over. -/
theorem exists_callBack_of_sends {σ : Type} {send : CharSpan → Socket σ → Option (Int × Socket σ)}
    (queue : σ → SoundBuffer)
    (sends : ∀ data (socket : Socket σ),
      (queue socket.sub).unread.length + (AutoGrowBuffer.added data).length < 2 ^ 30 →
      ∃ result after, send data socket = some (result, after) ∧
        (queue after.sub).unread.length ≤
          (queue socket.sub).unread.length + (AutoGrowBuffer.added data).length)
    {calls : List PublicCall} {socket : Socket σ}
    (fits : (queue socket.sub).unread.length + (addedByCalls calls).length < 2 ^ 30) :
    ∃ after, Socket.callBack send calls socket = some after := by
  induction calls generalizing socket with
  | nil => exact ⟨socket, rfl⟩
  | cons call calls ih =>
      cases call with
      | send data =>
          rw [addedByCalls, List.length_append] at fits
          obtain ⟨result, middle, sent, queued⟩ := sends data socket (by omega)
          have later : (queue middle.sub).unread.length + (addedByCalls calls).length <
              2 ^ 30 := by omega
          obtain ⟨after, rest⟩ := ih later
          refine ⟨after, ?_⟩
          rw [Socket.callBack, sent]
          exact rest
      | close => exact ih fits
      | connect now timeoutMs =>
          have sub_eq := (Socket.connect_frame now timeoutMs socket).2
          exact ih (by rw [sub_eq]; exact fits)
      | setProtocol protocol => exact ih fits
      | setIpPort ip port => exact ih fits

/-- The calls of a callback that fit are defined. -/
theorem exists_callBack {calls : List PublicCall} {socket : Socket (Transmission η)}
    (fits : socket.sub.sendBuffer.unread.length + (addedByCalls calls).length < 2 ^ 30) :
    ∃ after, Socket.callBack send calls socket = some after := by
  refine exists_callBack_of_sends Transmission.sendBuffer ?_ fits
  intro data socket room
  obtain ⟨result, after, sent, unread_eq⟩ := exists_send data room
  exact ⟨result, after, sent, by rw [unread_eq, List.length_append]⟩

/-- `OnWrite` is defined and keeps the socket served. -/
theorem exists_onWrite {handler : SocketHandler η} {socket : Socket (Transmission η)}
    (served : Served socket) (fits : OnWriteFits handler socket) (kernel : WriteResult) :
    ∃ result after, onWrite handler kernel socket = some (result, after) ∧ Served after := by
  by_cases queued : socket.sub.sendBuffer.getSize ≠ 0
  · rw [onWrite, if_pos queued]
    refine ⟨_, _, rfl, ?_⟩
    have offer_ne : socket.sub.sendBuffer.unread ≠ [] := by
      intro empty
      rw [SoundBuffer.getSize_eq, empty] at queued
      exact queued rfl
    change Served (socket.rawSend kernel (.bytes socket.sub.sendBuffer.unread)).2
    rw [Served, (rawSend_counts kernel _ offer_ne socket).1]
    exact served
  · have empty : socket.sub.sendBuffer.getSize = 0 := not_not.mp queued
    have small : socket.sub.sendBuffer.unread.length +
        (addedByCalls (handler.onWrite socket.sub.handler).1).length < 2 ^ 30 := by
      rw [← SoundBuffer.getSize_eq, empty, Nat.zero_add]
      exact fits empty
    have answered : ∃ after, Socket.callBack send (handler.onWrite socket.sub.handler).1
        (setHandler (handler.onWrite socket.sub.handler).2 (socket.emit .onWrite)) = some after :=
      exists_callBack small
    obtain ⟨after, calls⟩ := answered
    refine ⟨0, after, ?_, Served.callBack calls served⟩
    rw [onWrite, if_neg queued]
    simp only [calls, Option.bind_eq_bind, Option.bind_some]

/-- A call of the outgoing side that fits is defined and keeps the stream and the status. -/
theorem exists_streamStep {handler : SocketHandler η} {base : List Event} {held₀ : List UInt8}
    {call : StreamCall} {before : Socket (Transmission η)}
    (kept : SendStaged base held₀ before ∧ Served before) (fits : call.Fits handler before) :
    ∃ after, streamStep handler call before = some after ∧
      SendStaged base held₀ after ∧ Served after := by
  obtain ⟨staged, served⟩ := kept
  cases call with
  | send data =>
      rw [StreamCall.Fits, SoundBuffer.getSize_eq] at fits
      obtain ⟨result, after, sent, -⟩ := exists_send data fits
      obtain ⟨sendBuffer, -, rfl⟩ := send_eq_some.mp sent
      exact ⟨_, by rw [streamStep, sent]; rfl, sendStaged_send staged sent, served⟩
  | onWrite kernel =>
      obtain ⟨result, after, written, after_served⟩ :=
        exists_onWrite served fits kernel
      exact ⟨after, by rw [streamStep, written]; rfl, sendStaged_onWrite staged written,
        after_served⟩
  | realWrite soError kernel =>
      have answered : ∃ after, streamStep handler (.realWrite soError kernel) before =
          some after ∧ Served after := by
        rcases served with connected | disconnected
        · obtain ⟨result, after, written, after_served⟩ :=
            exists_onWrite (Or.inl connected) (fits connected) kernel
          have written' : (socketClass handler).onWrite kernel before = some (result, after) :=
            written
          simp only [streamStep, Socket.realWrite, connected, Socket.writeData, written',
            Option.bind_eq_bind, Option.bind_some]
          split
          · exact ⟨_, rfl, Or.inr rfl⟩
          · exact ⟨_, rfl, after_served⟩
        · simp only [streamStep, Socket.realWrite, disconnected]
          exact ⟨_, rfl, Or.inr rfl⟩
      obtain ⟨after, written, after_served⟩ := answered
      have staged_after := (kept_sendStaged handler base held₀).realWrite written staged
      exact ⟨after, written, staged_after, after_served⟩

/-- Each `Send` shows itself once, with the value it returns. -/
theorem send_shows {data : CharSpan} {socket after : Socket (Transmission η)} {result : Int}
    (sent : send data socket = some (result, after)) :
    after.log = socket.log ++ [.send data result] := by
  obtain ⟨sendBuffer, -, rfl⟩ := send_eq_some.mp sent
  rfl

/-- Once a socket is connected, whatever the order of its sends and writes, the kernel has accepted
and `send_` still holds exactly the buffers that `Send` took over; each `Send` shows itself once,
with the value it returns. -/
theorem send_stream_conserved (handler : SocketHandler η) (state : η)
    (prior : List (Socket.Call WriteResult)) (start : Socket (Transmission η))
    (reached : PartialRun.run (Socket.perform (socketClass handler)) prior (construct state) =
      some start)
    (connected : start.status = .connected) (calls : List StreamCall)
    (fits : PartialRun.Guarded (streamStep handler) (StreamCall.Fits handler) calls start) :
    (∃ final, PartialRun.run (streamStep handler) calls start = some final ∧
      final.log.flatMap acceptedBy ++ final.sub.sendBuffer.unread =
        final.log.flatMap suppliedBy) ∧
      ∀ (data : CharSpan) (socket after : Socket (Transmission η)) (result : Int),
        send data socket = some (result, after) →
          after.log = socket.log ++ [.send data result] := by
  refine ⟨?_, fun _ _ _ _ sent => send_shows sent⟩
  have staged : SendStaged [] [] start := sendStaged_of_reached reached
  obtain ⟨final, execution, final_staged, -⟩ :=
    PartialRun.defined_of_guarded (fun socket => SendStaged [] [] socket ∧ Served socket)
      (fun _ _ kept fits => exists_streamStep kept fits) calls fits ⟨staged, Or.inl connected⟩
  obtain ⟨shown, log_eq, conserved⟩ := final_staged
  rw [List.nil_append] at log_eq
  rw [← log_eq, List.nil_append] at conserved
  exact ⟨final, execution, conserved⟩

/-- A buffer that leaves in two parts, with a failing write between them. -/
def partialWrites : List StreamCall :=
  [.send (.bytes [1, 2, 3]), .realWrite .clear (.accepts 2), .onWrite (.failed .eagain),
    .realWrite .clear (.accepts 9)]

theorem send_stream_conserved_partialWrites :
    ∃ start, PartialRun.run (Socket.perform (socketClass SocketHandler.sink))
      (Socket.connectCalls (.accepts 0))
        (construct ()) = some start ∧ start.status = .connected ∧
      ∃ final, PartialRun.run (streamStep SocketHandler.sink) partialWrites start =
          some final ∧
        final.log.flatMap acceptedBy ++ final.sub.sendBuffer.unread =
          final.log.flatMap suppliedBy := by
  have silent : ∀ socket, OnWriteFits SocketHandler.sink socket :=
    fun _ _ => Nat.two_pow_pos 30
  refine ⟨_, rfl, rfl, (send_stream_conserved SocketHandler.sink ()
    (Socket.connectCalls (.accepts 0)) _ rfl rfl
    partialWrites ⟨?_, fun _ _ => ⟨?_, fun _ _ => ⟨?_, fun _ _ => ⟨?_, fun _ _ => trivial⟩⟩⟩⟩).1⟩
  · rw [StreamCall.Fits]
    decide
  · exact fun _ => silent _
  · exact silent _
  · exact fun _ => silent _

end Transmission
end NetworkBase
