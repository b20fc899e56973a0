import NetworkBase.Library.History
import NetworkBase.Transport.ReadStream
import NetworkBase.Transport.SendStream

/-!
# What the handler is offered

Whatever the handler answers, and however the kernel cuts the stream, each `OnData` is offered
everything that was received and not consumed before.  So the consumed bytes, followed by what is
left in `read_`, are the received bytes at any time.
-/

namespace NetworkBase
namespace Transmission

variable {η : Type}

/-- An offer is what was received and not consumed before. -/
def WholeOffer (earlier : List Event) : Event → Prop
  | .onData offer _ => earlier.flatMap consumedBy ++ offer = earlier.flatMap receivedBy
  | _ => True

/-- An event that offers nothing. -/
def NoOffer (event : Event) : Prop := ∀ earlier, WholeOffer earlier event

theorem noOffer_of_quiet (event : Event) (ok : Socket.quiet event) : NoOffer event := by
  cases event with
  | send data result => exact fun _ => trivial
  | _ => exact absurd ok id

theorem noOffer_of_plain (event : Event) (plain : event.Plain) : NoOffer event := by
  cases event with
  | assigned status => exact fun _ => trivial
  | realConnect => exact fun _ => trivial
  | opened fd => exact fun _ => trivial
  | _ => exact absurd plain id

/-- The incoming stream is conserved, and every offer was whole. -/
structure Offering (socket : Socket (Transmission η)) : Prop where
  staged : ReadStaged [] [] socket
  offers : History.Throughout WholeOffer [] socket.log

/-- What was consumed and what waits is what was received. -/
theorem Offering.conserved {socket : Socket (Transmission η)} (offering : Offering socket) :
    socket.log.flatMap consumedBy ++ socket.sub.readBuffer.unread =
      socket.log.flatMap receivedBy := by
  obtain ⟨shown, log_eq, conserved⟩ := offering.staged
  rw [List.nil_append] at log_eq
  rw [← log_eq, List.nil_append] at conserved
  exact conserved

section Steps

variable {handler : SocketHandler η} {before after : Socket (Transmission η)} {result : Int}

/-- Events that offer nothing. -/
theorem Offering.extend (offering : Offering before) (staged : ReadStaged [] [] after)
    {shown : List Event} (log_eq : after.log = before.log ++ shown)
    (silent : ∀ event ∈ shown, NoOffer event) : Offering after :=
  ⟨staged, by rw [log_eq]; exact offering.offers.append List.nil_prefix silent⟩

/-- A method that offers nothing. -/
theorem Offering.steps (offering : Offering before) (staged : ReadStaged [] [] after)
    (steps : Socket.SubSteps NoOffer before after) : Offering after := by
  obtain ⟨shown, log_eq, all⟩ := steps.log_extends
  refine offering.extend staged log_eq ?_
  intro event mem
  rcases all event mem with silent | ⟨status, rfl⟩
  · exact silent
  · exact fun _ => trivial

theorem Offering.bare (offering : Offering before) (alone : Socket.Bare before after) :
    Offering after := by
  have staged := offering.staged.bare alone
  obtain ⟨-, shown, log_eq, plain⟩ := alone
  exact offering.extend staged log_eq
    fun event mem => noOffer_of_plain event (plain event mem)

theorem Offering.send {data : CharSpan} (offering : Offering before)
    (execution : send data before = some (result, after)) : Offering after :=
  offering.steps (readStaged_send offering.staged execution)
    ((send_within data before result after execution).mono noOffer_of_quiet)

/-- `OnWrite` offers nothing to `OnData`. -/
theorem onWrite_offers_nothing {kernel : WriteResult}
    (execution : onWrite handler kernel before = some (result, after)) :
    Socket.SubSteps NoOffer before after := by
  rcases onWrite_cases execution with ⟨-, rfl⟩ | ⟨-, calls⟩
  · have written : Socket.SubSteps NoOffer before
        (before.rawSend kernel (.bytes before.sub.sendBuffer.unread)).2 :=
      Socket.rawSend_within (fun _ _ _ => trivial) kernel _
    exact written.trans (setSendBuffer_within _ _)
  · have told : Socket.SubSteps NoOffer before (before.emit .onWrite) :=
      .single (.event before .onWrite fun _ => trivial)
    exact told.trans ((callBack_send_within calls).mono noOffer_of_quiet)

/-- `OnRead` stores the chunk, and offers the whole queue or nothing. -/
theorem Offering.onRead {chunk : Chunk} {finish : Bool} (offering : Offering before)
    (execution : onRead handler chunk finish
      (before.emit (.kernelRead before.fd (.got chunk))) = some (result, after)) :
    Offering after := by
  have staged := readStaged_onRead offering.staged execution
  obtain ⟨readBuffer, unread_eq, -, outcome⟩ := onRead_eq_some execution
  have stored : Offering (setReadBuffer readBuffer
      (before.emit (.kernelRead before.fd (.got chunk)))) :=
    ⟨readStaged_stored offering.staged unread_eq, offering.offers.concat rfl trivial⟩
  rcases outcome with ⟨-, rfl⟩ | ⟨value, next, -, answer, rfl⟩
  · exact stored
  · obtain ⟨-, calls⟩ := (readBufferPopData_eq_some handler).mp answer
    obtain ⟨shown, log_eq, all⟩ := (callBack_send_within calls).log_extends
    have whole : WholeOffer (before.emit (.kernelRead before.fd (.got chunk))).log
        (.onData readBuffer.unread value) := stored.conserved
    refine ⟨staged, ?_⟩
    have log_after : (setReadBuffer (readBuffer.consume value).2 next).log =
        (before.emit (.kernelRead before.fd (.got chunk))).log ++
          [.onData readBuffer.unread value] ++ shown := log_eq
    rw [log_after]
    refine (stored.offers.concat rfl whole).append List.nil_prefix ?_
    intro event mem
    rcases all event mem with quiet | ⟨status, rfl⟩
    · exact noOffer_of_quiet event quiet
    · exact fun _ => trivial

end Steps

/-- The engine's reads and writes keep the offers whole. -/
theorem kept_offering (handler : SocketHandler η) :
    Socket.Kept (socketClass handler) Offering where
  disconnect socket offering := offering.bare (.assign .disconnected socket)
  barren socket result offering empty := by
    refine offering.steps ?_ (.single (.event _ _ fun _ => trivial))
    exact (kept_readStaged handler [] []).barren socket result offering.staged empty
  onRead _ _ _ _ _ _ offering execution := offering.onRead execution
  onWrite _ _ _ _ offering execution :=
    offering.steps (readStaged_onWrite offering.staged execution)
      (onWrite_offers_nothing execution)
  report socket after offering connecting execution := by
    have told : Socket.SubSteps NoOffer (socket.assign .connected)
        ((socket.assign .connected).emit .onConnect) := .single (.event _ _ fun _ => trivial)
    refine (offering.bare (.assign .connected socket)).steps
      ((kept_readStaged handler [] []).report socket after offering.staged connecting execution) ?_
    exact told.trans ((onConnect_within handler _ _ execution).mono noOffer_of_quiet)

/-- In every reachable state the incoming stream is conserved and all offers were whole. -/
theorem offering_of_reached {handler : SocketHandler η} {state : η}
    {calls : List (Socket.Call WriteResult)} {reached : Socket (Transmission η)}
    (execution : PartialRun.run (Socket.perform (socketClass handler)) calls (construct state) =
      some reached) : Offering reached :=
  Socket.run_keeps (kept_offering handler) (fun _ _ => Offering.bare)
    (fun _ _ _ _ offering sent => offering.send sent) execution
    ⟨StreamStaged.construct rfl, .start WholeOffer []⟩

/-! ## Runs of reads -/

/-- The bytes that the loop of `RealRead` takes from the kernel. -/
def taken {ι : Type} : List (ReadResult × ι) → List UInt8
  | (.got chunk, _) :: reads =>
      chunk.val ++ if chunk.val.length = kRecvCacheLen then taken reads else []
  | _ => []

/-- With all it reads the call leaves fewer than `2 ^ 30` bytes unconsumed, and what the handler
sends while it is offered them fits into `send_`. -/
structure LoopFits (handler : SocketHandler η) (reads : List (ReadResult × WriteResult))
    (socket : Socket (Transmission η)) : Prop where
  unconsumed : socket.sub.readBuffer.unread.length + (taken reads).length < 2 ^ 30
  answer : EndsShort reads → socket.sub.sendBuffer.unread.length + (addedByCalls
    (handler.onData (socket.sub.readBuffer.unread ++ taken reads) socket.sub.handler).2.1).length <
      2 ^ 30

/-- The call fits if it reads at all. -/
def ReadFits (handler : SocketHandler η) (reads : List (ReadResult × WriteResult))
    (socket : Socket (Transmission η)) : Prop :=
  socket.status = .connected → LoopFits handler reads socket

/-- A last chunk for which there is room is stored and offered with all that waits. -/
theorem exists_onRead_offers {handler : SocketHandler η} {chunk : Chunk}
    {socket : Socket (Transmission η)}
    (room : socket.sub.readBuffer.unread.length + chunk.val.length < 2 ^ 30)
    (answer : socket.sub.sendBuffer.unread.length + (addedByCalls
      (handler.onData (socket.sub.readBuffer.unread ++ chunk.val) socket.sub.handler).2.1).length <
        2 ^ 30) :
    ∃ after, onRead handler chunk true socket = some ((chunk.val.length : Int), after) := by
  obtain ⟨readBuffer, stored, unread_eq⟩ := exists_stored socket.sub.readBuffer chunk room
  rw [← unread_eq] at answer
  have told : ∃ next, Socket.callBack send
      (handler.onData readBuffer.unread socket.sub.handler).2.1
      (setHandler (handler.onData readBuffer.unread socket.sub.handler).2.2
        ((setReadBuffer readBuffer socket).emit (.onData readBuffer.unread
          (handler.onData readBuffer.unread socket.sub.handler).1))) = some next :=
    exists_callBack answer
  obtain ⟨next, calls⟩ := told
  have offered : readBufferPopData handler readBuffer.unread (setReadBuffer readBuffer socket) =
      some ((handler.onData readBuffer.unread socket.sub.handler).1, next) :=
    (readBufferPopData_eq_some handler).mpr ⟨rfl, calls⟩
  obtain ⟨popped, popBuffer, pop⟩ : ∃ popped popBuffer,
      readBuffer.popHeadData (readBufferPopData handler) (setReadBuffer readBuffer socket) =
        some (popped, popBuffer, next) :=
    ⟨_, _, SoundBuffer.popHeadData_eq_some_iff.mpr ⟨_, offered, rfl⟩⟩
  refine ⟨setReadBuffer popBuffer next, ?_⟩
  simp [onRead, stored, addResult_chunk_nonneg, pop]

/-- The loop returns while there is room. -/
theorem exists_readLoop {handler : SocketHandler η} {reads : List (ReadResult × WriteResult)}
    {socket : Socket (Transmission η)} (fits : LoopFits handler reads socket) :
    ∃ after, Socket.readLoop (socketClass handler) reads socket = some after := by
  induction reads generalizing socket with
  | nil => exact ⟨_, rfl⟩
  | cons read reads ih =>
      obtain ⟨result, kernel⟩ := read
      cases result with
      | failed errno =>
          simp only [Socket.readLoop]
          split
          · exact ⟨_, rfl⟩
          · exact ⟨_, rfl⟩
      | got chunk =>
          obtain ⟨unconsumed, answer⟩ := fits
          simp only [Socket.readLoop]
          by_cases empty : chunk.val.length = 0
          · rw [if_pos empty]
            exact ⟨_, rfl⟩
          · rw [if_neg empty, if_neg (Nat.not_lt.mpr chunk.property)]
            have nonneg : ¬(chunk.val.length : Int) < 0 := by omega
            by_cases full : chunk.val.length = kRecvCacheLen
            · simp only [taken, if_pos full, List.length_append] at unconsumed
              simp only [EndsShort, taken, if_pos full] at answer
              have room : (socket.emit
                  (.kernelRead socket.fd (.got chunk))).sub.readBuffer.unread.length +
                    chunk.val.length < 2 ^ 30 := by
                rw [Socket.sub_emit]
                omega
              obtain ⟨readBuffer, unread_eq, gathered⟩ := exists_onRead_gathers handler chunk room
              rw [Socket.sub_emit] at unread_eq
              have later : LoopFits handler reads (setReadBuffer readBuffer
                  (socket.emit (.kernelRead socket.fd (.got chunk)))) := by
                constructor
                · change readBuffer.unread.length + (taken reads).length < 2 ^ 30
                  rw [unread_eq, List.length_append]
                  omega
                · intro short
                  change _ + (addedByCalls (handler.onData (readBuffer.unread ++ taken reads)
                    socket.sub.handler).2.1).length < 2 ^ 30
                  rw [unread_eq, List.append_assoc]
                  exact answer short
              obtain ⟨after, rest⟩ := ih later
              have served : (socketClass handler).onRead kernel chunk false
                  (socket.emit (.kernelRead socket.fd (.got chunk))) = some _ := gathered
              have whole : decide (chunk.val.length = kRecvCacheLen) = true := decide_eq_true full
              refine ⟨after, ?_⟩
              simp only [whole, Bool.not_true, served, Option.bind_eq_bind, Option.bind_some,
                if_neg nonneg, if_true]
              exact rest
            · simp only [taken, if_neg full, List.append_nil] at unconsumed answer
              have filled : chunk.val ≠ [] := fun none_read =>
                empty (List.length_eq_zero_iff.mpr none_read)
              simp only [EndsShort, if_neg full] at answer
              have offered : ∃ after, (socketClass handler).onRead kernel chunk true
                  (socket.emit (.kernelRead socket.fd (.got chunk))) =
                    some ((chunk.val.length : Int), after) :=
                exists_onRead_offers unconsumed (answer filled)
              obtain ⟨after, served⟩ := offered
              refine ⟨after, ?_⟩
              simp [full, served, nonneg]

/-- A call that fits returns. -/
theorem exists_realRead {handler : SocketHandler η} {reads : List (ReadResult × WriteResult)}
    {socket : Socket (Transmission η)} (fits : ReadFits handler reads socket) :
    ∃ after, Socket.realRead (socketClass handler) reads socket = some after := by
  rw [Socket.realRead]
  split
  · exact ⟨_, rfl⟩
  · exact ⟨_, rfl⟩
  · exact ⟨_, rfl⟩
  · exact ⟨_, rfl⟩
  · rename_i connected
    exact exists_readLoop (fits connected)

/-- An answer outside the offer consumes nothing of it. -/
theorem consumedBy_outside {offer : List UInt8} {result : Int}
    (outside : ¬(0 ≤ result ∧ result ≤ offer.length)) :
    consumedBy (.onData offer result) = [] := by
  have refused : result < 0 ∨ result > offer.length := by omega
  rw [consumedBy, AutoGrowBuffer.popCount, if_pos refused, List.take_zero]

/-- Reads on a connected socket, however the kernel cuts the stream and whatever the handler
answers: what the handler consumed, followed by what is left in `read_`, is what was received; every
offer was the whole unconsumed rest; and an answer outside the offer consumed nothing.  The reads
return as long as there is room. -/
theorem read_stream_conserved (handler : SocketHandler η) (state : η)
    (prior : List (Socket.Call WriteResult)) (start : Socket (Transmission η))
    (reached : PartialRun.run (Socket.perform (socketClass handler)) prior (construct state) =
      some start)
    (calls : List (List (ReadResult × WriteResult))) :
    (∀ final, PartialRun.run (Socket.realRead (socketClass handler)) calls start = some final →
      final.log.flatMap consumedBy ++ final.sub.readBuffer.unread =
        final.log.flatMap receivedBy ∧
      (∀ earlier offer result later, final.log = earlier ++ .onData offer result :: later →
        earlier.flatMap consumedBy ++ offer = earlier.flatMap receivedBy ∧
          (¬(0 ≤ result ∧ result ≤ offer.length) → consumedBy (.onData offer result) = []))) ∧
    (PartialRun.Guarded (Socket.realRead (socketClass handler)) (ReadFits handler) calls start →
      ∃ final, PartialRun.run (Socket.realRead (socketClass handler)) calls start =
        some final) := by
  have start_offering : Offering start := offering_of_reached reached
  constructor
  · intro final execution
    have offering : Offering final :=
      PartialRun.invariant Offering
        (fun _ _ _ offering step => (kept_offering handler).realRead step offering) execution
        start_offering
    refine ⟨offering.conserved, ?_⟩
    intro earlier offer result later log_eq
    exact ⟨offering.offers earlier _ later log_eq, consumedBy_outside⟩
  · intro fits
    obtain ⟨final, execution, -⟩ :=
      PartialRun.defined_of_guarded (fun _ => True)
        (fun reads before _ fits => by
          obtain ⟨after, returned⟩ := exists_realRead fits
          exact ⟨after, returned, trivial⟩)
        calls fits trivial
    exact ⟨final, execution⟩

/-- A full chunk and two more bytes in one call. -/
def longRead : List (ReadResult × WriteResult) :=
  [(.got fullChunk, .accepts 0), (.got ⟨[1, 2], by decide⟩, .accepts 0)]

theorem read_stream_conserved_longRead :
    ∃ start, PartialRun.run (Socket.perform (socketClass SocketHandler.sink))
        (Socket.connectCalls (.accepts 0)) (construct ()) = some start ∧
      start.status = .connected ∧
      ∃ final, PartialRun.run (Socket.realRead (socketClass SocketHandler.sink)) [longRead] start =
          some final ∧
        final.log.flatMap consumedBy ++ final.sub.readBuffer.unread =
          final.log.flatMap receivedBy ∧
        (∀ earlier offer result later, final.log = earlier ++ .onData offer result :: later →
          earlier.flatMap consumedBy ++ offer = earlier.flatMap receivedBy ∧
            (¬(0 ≤ result ∧ result ≤ offer.length) → consumedBy (.onData offer result) = [])) := by
  have taken_length : (taken longRead).length = kRecvCacheLen + 2 := by
    simp [longRead, taken, fullChunk_length, kRecvCacheLen]
  obtain ⟨conserved, returns⟩ := read_stream_conserved SocketHandler.sink ()
    (Socket.connectCalls (.accepts 0)) _ rfl [longRead]
  obtain ⟨final, execution⟩ := returns
    ⟨fun _ => ⟨by rw [taken_length]; decide, fun _ => Nat.two_pow_pos 30⟩, fun _ _ => trivial⟩
  exact ⟨_, rfl, rfl, final, execution, conserved final execution⟩

end Transmission
end NetworkBase
