import NetworkBase.Transport.QueueStream
import NetworkBase.Transport.StatusOrder

/-!
# The incoming stream of the plain transport

The log of a socket shows which bytes the kernel brought and which bytes the handler consumed.
What is still owed to the handler waits in `read_`, and only an `OnRead` that is told the read is
finished offers it.  `RealRead` says so for a short chunk only, so a call that ends right after a
full chunk leaves its bytes behind.
-/

namespace NetworkBase
namespace Transmission

variable {η : Type}

/-- The bytes the kernel brought in an event. -/
def receivedBy : Event → List UInt8
  | .kernelRead _ (.got chunk) => chunk.val
  | _ => []

/-- The incoming stream: the kernel brings it and the handler consumes it. -/
def readView : StreamView where
  outOf := consumedBy
  inpOf := receivedBy
  plain event plain := by
    cases event with
    | assigned status => exact ⟨rfl, rfl⟩
    | realConnect => exact ⟨rfl, rfl⟩
    | opened fd => exact ⟨rfl, rfl⟩
    | _ => exact absurd plain id

/-- `read_` conserves the incoming stream. -/
abbrev ReadStaged (base : List Event) (held₀ : List UInt8) (socket : Socket (Transmission η)) :
    Prop :=
  StreamStaged readView Transmission.readBuffer base held₀ socket

/-- The calls of a callback leave `read_` alone and show nothing of the incoming stream. -/
theorem callBack_readBuffer {calls : List PublicCall} {before after : Socket (Transmission η)}
    (execution : Socket.callBack send calls before = some after) :
    after.sub.readBuffer = before.sub.readBuffer ∧
      ∃ shown, after.log = before.log ++ shown ∧
        ∀ event ∈ shown, readView.Silent event := by
  constructor
  · refine Socket.callBack_preserves
      (fun socket => socket.sub.readBuffer = before.sub.readBuffer) ?_ ?_ ?_ ?_ ?_ execution rfl
    · intro data first result next same sent
      obtain ⟨sendBuffer, -, rfl⟩ := send_eq_some.mp sent
      exact same
    · intro socket same
      exact same
    · intro now timeoutMs socket same
      rw [(Socket.connect_frame now timeoutMs socket).2]
      exact same
    · intro protocol socket same
      exact same
    · intro ip port socket same
      exact same
  · obtain ⟨shown, log_eq, all⟩ := (Socket.callBack_within send_within execution).log_extends
    refine ⟨shown, log_eq, ?_⟩
    intro event mem
    rcases all event mem with ok | ⟨status, rfl⟩
    · cases event with
      | send data result => exact ⟨rfl, rfl⟩
      | _ => exact absurd ok id
    · exact ⟨rfl, rfl⟩

section Conservation

variable {handler : SocketHandler η} {base : List Event} {held₀ : List UInt8}
  {before after : Socket (Transmission η)} {result : Int}

/-- `Send` has no part in the incoming stream. -/
theorem readStaged_send {data : CharSpan} (staged : ReadStaged base held₀ before)
    (execution : send data before = some (result, after)) : ReadStaged base held₀ after := by
  obtain ⟨sendBuffer, -, rfl⟩ := send_eq_some.mp execution
  have sent : ReadStaged base held₀ (before.emit (.send data result)) := staged.emit ⟨rfl, rfl⟩
  exact sent.congr rfl rfl

/-- A callback: a silent event, the handler's next state and its calls. -/
theorem readStaged_told {calls : List PublicCall} {state : η} {event : Event}
    (staged : ReadStaged base held₀ before) (silent : readView.Silent event)
    (execution : Socket.callBack send calls (setHandler state (before.emit event)) = some after) :
    ReadStaged base held₀ after := by
  have next : ReadStaged base held₀ (setHandler state (before.emit event)) :=
    (staged.emit silent).congr rfl rfl
  exact StreamStaged.callBack (fun _ _ _ _ staged sent => readStaged_send staged sent)
    execution next

/-- A chunk in the queue is accounted for. -/
theorem readStaged_stored {chunk : Chunk} {readBuffer : SoundBuffer}
    (staged : ReadStaged base held₀ before)
    (unread_eq : readBuffer.unread = before.sub.readBuffer.unread ++ chunk.val) :
    ReadStaged base held₀
      (setReadBuffer readBuffer (before.emit (.kernelRead before.fd (.got chunk)))) := by
  have stored := staged.push (.kernelRead before.fd (.got chunk)) rfl
  have received : readView.inpOf (.kernelRead before.fd (.got chunk)) = chunk.val := rfl
  rw [received, ← unread_eq] at stored
  exact stored

/-- A chunk that `OnRead` stored and perhaps offered is accounted for. -/
theorem readStaged_onRead {chunk : Chunk} {finish : Bool} (staged : ReadStaged base held₀ before)
    (execution : onRead handler chunk finish
      (before.emit (.kernelRead before.fd (.got chunk))) = some (result, after)) :
    ReadStaged base held₀ after := by
  obtain ⟨readBuffer, unread_eq, -, outcome⟩ := onRead_eq_some execution
  have stored := readStaged_stored staged unread_eq
  rcases outcome with ⟨-, rfl⟩ | ⟨value, next, -, answer, rfl⟩
  · exact stored
  · obtain ⟨-, calls⟩ := (readBufferPopData_eq_some handler).mp answer
    obtain ⟨-, shown, log_eq, quiet⟩ := callBack_readBuffer calls
    obtain ⟨-, consumed_eq⟩ := SoundBuffer.consume_spec value readBuffer
    have popped := (stored.pop (.onData readBuffer.unread value) rfl rfl).neutral quiet
    have held : (setReadBuffer readBuffer (before.emit
        (.kernelRead before.fd (.got chunk)))).sub.readBuffer = readBuffer := rfl
    rw [held, ← consumed_eq] at popped
    have log_next : next.log = before.log ++ [.kernelRead before.fd (.got chunk)] ++
        [.onData readBuffer.unread value] ++ shown := log_eq
    have base_log : (setReadBuffer readBuffer (before.emit
        (.kernelRead before.fd (.got chunk)))).log =
          before.log ++ [.kernelRead before.fd (.got chunk)] := rfl
    rw [base_log, ← log_next] at popped
    exact popped

/-- `OnWrite` touches the incoming stream only through the calls of the handler. -/
theorem readStaged_onWrite {kernel : WriteResult} (staged : ReadStaged base held₀ before)
    (execution : onWrite handler kernel before = some (result, after)) :
    ReadStaged base held₀ after := by
  rcases onWrite_cases execution with ⟨-, rfl⟩ | ⟨-, calls⟩
  · rcases Socket.rawSend_cases kernel (.bytes before.sub.sendBuffer.unread) before with
      same | shown
    · rw [same]
      exact staged.congr rfl rfl
    · rw [shown]
      have written : ReadStaged base held₀ (before.emit (.kernelWrite before.fd
        before.sub.sendBuffer.unread (kernel.value before.sub.sendBuffer.unread.length))) :=
          staged.emit ⟨rfl, rfl⟩
      exact written.congr rfl rfl
  · exact readStaged_told staged ⟨rfl, rfl⟩ calls

end Conservation

/-- The engine's reads and writes conserve the incoming stream. -/
theorem kept_readStaged (handler : SocketHandler η) (base : List Event) (held₀ : List UInt8) :
    Socket.Kept (socketClass handler) (ReadStaged base held₀) where
  disconnect _ staged := staged.assign .disconnected
  barren socket result staged empty := by
    cases result with
    | failed errno => exact staged.emit ⟨rfl, rfl⟩
    | got chunk => exact staged.emit ⟨rfl, empty⟩
  onRead _ _ _ _ _ _ staged execution := readStaged_onRead staged execution
  onWrite _ _ _ _ staged execution := readStaged_onWrite staged execution
  report _ _ staged _ execution :=
    readStaged_told (staged.assign .connected) ⟨rfl, rfl⟩ execution

/-! ## What `RealRead` leaves behind -/

/-- The answers run through full chunks to a short one. -/
def EndsShort {ι : Type} : List (ReadResult × ι) → Prop
  | (.got chunk, _) :: reads =>
      if chunk.val.length = kRecvCacheLen then EndsShort reads else chunk.val ≠ []
  | _ => False

/-- The first answer brings no bytes. -/
def NoData {ι : Type} : List (ReadResult × ι) → Prop
  | [] => True
  | (result, _) :: _ => result.Barren

/-- Nothing is left in `read_`: what waited there before and what the kernel brought meanwhile was
consumed in this order. -/
def Delivered (before after : Socket (Transmission η)) : Prop :=
  after.sub.readBuffer.unread = [] ∧
    ∃ shown, after.log = before.log ++ shown ∧
      shown.flatMap consumedBy = before.sub.readBuffer.unread ++ shown.flatMap receivedBy

/-- Conservation makes an empty queue the whole of a delivery. -/
theorem delivered_iff {before after : Socket (Transmission η)}
    (staged : ReadStaged before.log before.sub.readBuffer.unread after) :
    Delivered before after ↔ after.sub.readBuffer.unread = [] := by
  obtain ⟨shown, log_eq, conserved⟩ := staged
  constructor
  · intro delivered
    exact delivered.1
  · intro empty
    exact ⟨empty, shown, log_eq, conserved.staged_eq_nil_iff.mp empty⟩

/-- A handler that consumes all it is offered empties the queue. -/
theorem consume_all {handler : SocketHandler η} (consumes : handler.ConsumesAll)
    (readBuffer : SoundBuffer) {value : Int} {state : η}
    (answer : (handler.onData readBuffer.unread state).1 = value) :
    (readBuffer.consume value).2.unread = [] := by
  obtain rfl : value = readBuffer.unread.length := answer.symm.trans (consumes _ _)
  exact readBuffer.consume_length.2

/-- The loop leaves nothing behind exactly if the last chunk is a short one, or there was nothing
to leave. -/
theorem readLoop_drains_iff {handler : SocketHandler η} (consumes : handler.ConsumesAll)
    {reads : List (ReadResult × WriteResult)} {before after : Socket (Transmission η)}
    (returned : Socket.readLoop (socketClass handler) reads before = some after) :
    after.sub.readBuffer.unread = [] ↔
      EndsShort reads ∨ NoData reads ∧ before.sub.readBuffer.unread = [] := by
  induction reads generalizing before with
  | nil =>
      cases returned
      simp [EndsShort, NoData]
  | cons read reads ih =>
      obtain ⟨result, kernel⟩ := read
      cases result with
      | failed errno =>
          have same : after.sub = before.sub := by
            simp only [Socket.readLoop] at returned
            split at returned
            · cases returned
              rfl
            · cases returned
              rfl
          simp [same, EndsShort, NoData, ReadResult.Barren]
      | got chunk =>
          simp only [Socket.readLoop] at returned
          by_cases empty : chunk.val.length = 0
          · rw [if_pos empty] at returned
            cases returned
            have none_read : chunk.val = [] := List.length_eq_zero_iff.mp empty
            have short : ¬chunk.val.length = kRecvCacheLen := by
              rw [empty]
              decide
            rw [EndsShort, if_neg short]
            simp [NoData, ReadResult.Barren, none_read]
          · rw [if_neg empty, if_neg (Nat.not_lt.mpr chunk.property), Option.bind_eq_bind,
              Option.bind_eq_some_iff] at returned
            obtain ⟨⟨value, middle⟩, onRead, returned⟩ := returned
            obtain ⟨readBuffer, unread_eq, rfl, outcome⟩ := onRead_eq_some onRead
            have brought : ¬NoData ((.got chunk, kernel) :: reads) := by
              intro barren
              exact empty (List.length_eq_zero_iff.mpr barren)
            simp only [if_neg (Int.not_lt.mpr (Int.natCast_nonneg chunk.val.length))] at returned
            by_cases full : chunk.val.length = kRecvCacheLen
            · -- A full chunk is never offered, so the queue is not empty when the loop goes on.
              rcases outcome with ⟨-, rfl⟩ | ⟨-, -, finished, -⟩
              · rw [if_pos (by simpa using full)] at returned
                have waiting : readBuffer.unread ≠ [] := by
                  intro none_left
                  rw [unread_eq, List.append_eq_nil_iff] at none_left
                  exact empty (List.length_eq_zero_iff.mpr none_left.2)
                have rest : after.sub.readBuffer.unread = [] ↔
                    EndsShort reads ∨ NoData reads ∧ readBuffer.unread = [] :=
                  ih returned
                rw [rest, EndsShort, if_pos full]
                simp [brought, waiting]
              · simp [full] at finished
            · rcases outcome with ⟨unfinished, -⟩ | ⟨value, next, -, answer, rfl⟩
              · simp [full] at unfinished
              · rw [if_neg (by simpa using full)] at returned
                cases returned
                obtain ⟨value_eq, -⟩ := (readBufferPopData_eq_some handler).mp answer
                have drained := consume_all consumes readBuffer value_eq
                have filled : chunk.val ≠ [] := fun none_read =>
                  empty (List.length_eq_zero_iff.mpr none_read)
                rw [EndsShort, if_neg full]
                simp [setReadBuffer, drained, filled]

/-- A chunk for which there is room goes to the tail of the queue. -/
theorem exists_stored (readBuffer : SoundBuffer) (chunk : Chunk)
    (room : readBuffer.unread.length + chunk.val.length < 2 ^ 30) :
    ∃ after, readBuffer.addTailData (.bytes chunk.val) =
        some (AutoGrowBuffer.addResult (.bytes chunk.val), after) ∧
      after.unread = readBuffer.unread ++ chunk.val := by
  rw [← (added_chunk chunk).1] at room
  obtain ⟨after, stored⟩ := readBuffer.exists_addTailData (.bytes chunk.val) room
  obtain ⟨-, unread_eq⟩ := SoundBuffer.addTailData_of_some stored
  rw [(added_chunk chunk).1] at unread_eq
  exact ⟨after, stored, unread_eq⟩

/-- A chunk for which there is room is stored and not offered while the read is unfinished. -/
theorem exists_onRead_gathers (handler : SocketHandler η) (chunk : Chunk)
    {socket : Socket (Transmission η)}
    (room : socket.sub.readBuffer.unread.length + chunk.val.length < 2 ^ 30) :
    ∃ readBuffer, readBuffer.unread = socket.sub.readBuffer.unread ++ chunk.val ∧
      onRead handler chunk false socket =
        some ((chunk.val.length : Int), setReadBuffer readBuffer socket) := by
  obtain ⟨readBuffer, stored, unread_eq⟩ := exists_stored socket.sub.readBuffer chunk room
  refine ⟨readBuffer, unread_eq, ?_⟩
  simp [onRead, stored, addResult_chunk_nonneg]

/-- The peer sends a chunk and closes. -/
def thenEnd (chunk : Chunk) : List (ReadResult × WriteResult) :=
  [(.got chunk, .accepts 0), (.got ⟨[], Nat.zero_le _⟩, .accepts 0)]

/-- On an empty queue a full chunk and the end of the stream leave a closed connection. -/
theorem exists_realRead_thenEnd (handler : SocketHandler η) {chunk : Chunk}
    (full : chunk.val.length = kRecvCacheLen) {socket : Socket (Transmission η)}
    (empty : socket.sub.readBuffer.unread = [])
    (connected : socket.status = .connected) :
    ∃ after, Socket.realRead (socketClass handler) (thenEnd chunk) socket = some after ∧
      after.status = .disconnected := by
  have room : (socket.emit (.kernelRead socket.fd (.got chunk))).sub.readBuffer.unread.length +
      chunk.val.length < 2 ^ 30 := by
    rw [Socket.sub_emit, empty, full]
    decide
  obtain ⟨readBuffer, -, gathered⟩ := exists_onRead_gathers handler chunk room
  have gathered' : (socketClass handler).onRead (.accepts 0) chunk false
      (socket.emit (.kernelRead socket.fd (.got chunk))) =
        some ((chunk.val.length : Int), setReadBuffer readBuffer
          (socket.emit (.kernelRead socket.fd (.got chunk)))) := gathered
  have nonempty : ¬chunk.val.length = 0 := by
    rw [full]
    decide
  have nonneg : ¬(chunk.val.length : Int) < 0 := by omega
  have whole : (decide (chunk.val.length = kRecvCacheLen)) = true := decide_eq_true full
  simp only [Socket.realRead, connected, thenEnd, Socket.readLoop, whole, Bool.not_true,
    gathered', Option.bind_eq_bind, Option.bind_some, if_neg nonempty, if_neg nonneg,
    if_neg (Nat.not_lt.mpr chunk.property), if_true, List.length_nil]
  exact ⟨_, rfl, rfl⟩

/-- A full chunk and the end of the stream are no reads that deliver. -/
theorem thenEnd_stays {chunk : Chunk} (full : chunk.val.length = kRecvCacheLen)
    (pending : List UInt8) :
    ¬(EndsShort (thenEnd chunk) ∨ NoData (thenEnd chunk) ∧ pending = []) := by
  rintro (short | ⟨barren, -⟩)
  · have unequal : ¬([] : List UInt8).length = kRecvCacheLen := by decide
    rw [thenEnd, EndsShort, if_pos full, EndsShort, if_neg unequal] at short
    exact short rfl
  · have empty : chunk.val = [] := barren
    rw [empty] at full
    exact absurd full (by decide)

/-- The connecting calls leave a connected socket with a fresh queue. -/
theorem connectCalls_reach :
    ∃ start, PartialRun.run (Socket.perform (socketClass SocketHandler.sink))
        (Socket.connectCalls (.accepts 0)) (construct ()) = some start ∧
      start.sub.readBuffer = .construct kReadBufLen ∧
      start.status = .connected :=
  ⟨_, rfl, rfl, rfl⟩

/-- A read that fills the cache. -/
def fullChunk : Chunk := ⟨List.replicate kRecvCacheLen 0, by simp⟩

theorem fullChunk_length : fullChunk.val.length = kRecvCacheLen := List.length_replicate

/-- A `RealRead` on a connected socket delivers everything exactly if the last chunk it gets is a
short one, or there is nothing to deliver.  A full chunk followed by the end of the stream, an error
or a would-block stays behind. -/
theorem delivered_iff_endsShort (handler : SocketHandler η) (consumes : handler.ConsumesAll)
    (start : Socket (Transmission η)) (connected : start.status = .connected)
    (reads : List (ReadResult × WriteResult)) (after : Socket (Transmission η))
    (returned : Socket.realRead (socketClass handler) reads start = some after) :
    Delivered start after ↔
      EndsShort reads ∨ NoData reads ∧ start.sub.readBuffer.unread = [] := by
  have during : ReadStaged start.log start.sub.readBuffer.unread after :=
    (kept_readStaged handler _ _).realRead returned (StreamStaged.start start)
  rw [Socket.realRead, connected] at returned
  rw [delivered_iff during]
  exact readLoop_drains_iff consumes returned

theorem delivered_iff_endsShort_thenEnd :
    ∃ start after, PartialRun.run (Socket.perform (socketClass SocketHandler.sink))
        (Socket.connectCalls (.accepts 0)) (construct ()) = some start ∧
      Socket.realRead (socketClass SocketHandler.sink) (thenEnd fullChunk) start = some after ∧
      (Delivered start after ↔ EndsShort (thenEnd fullChunk) ∨
        NoData (thenEnd fullChunk) ∧ start.sub.readBuffer.unread = []) := by
  obtain ⟨start, reached, fresh, connected⟩ := connectCalls_reach
  obtain ⟨after, returned, -⟩ := exists_realRead_thenEnd SocketHandler.sink fullChunk_length
    (fresh ▸ SoundBuffer.construct_unread kReadBufLen) connected
  exact ⟨start, after, reached, returned, delivered_iff_endsShort SocketHandler.sink
    SocketHandler.sink_consumesAll start connected (thenEnd fullChunk) after returned⟩

/-- The bytes of a full chunk are not delivered when the stream ends right after it. -/
theorem full_chunk_left_behind :
    ∃ start after, PartialRun.run (Socket.perform (socketClass SocketHandler.sink))
        (Socket.connectCalls (.accepts 0)) (construct ()) = some start ∧ start.status = .connected ∧
      Socket.realRead (socketClass SocketHandler.sink) (thenEnd fullChunk) start = some after ∧
      after.status = .disconnected ∧ ¬Delivered start after := by
  obtain ⟨start, reached, fresh, connected⟩ := connectCalls_reach
  obtain ⟨after, returned, ended⟩ := exists_realRead_thenEnd SocketHandler.sink fullChunk_length
    (fresh ▸ SoundBuffer.construct_unread kReadBufLen) connected
  refine ⟨start, after, reached, connected, returned, ended, ?_⟩
  rintro ⟨drained, -⟩
  rw [Socket.realRead, connected] at returned
  rw [readLoop_drains_iff SocketHandler.sink_consumesAll returned] at drained
  exact thenEnd_stays fullChunk_length _ drained

end Transmission
end NetworkBase
