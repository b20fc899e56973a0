import NetworkBase.Transport.SendStream
import NetworkBase.Transport.StatusOrder
import NetworkBase.Transport.TransmissionSecurity

/-!
# The decrypted stream to the handler

`OnRead` stages what the library decrypts and offers it only when the decrypting loop is left
through its flag.  A loop that ends in any other way returns before the offer; the engine then
closes the socket, and what is staged stays behind.
-/

namespace NetworkBase
namespace TransmissionSecurity

open Transmission (added_chunk addResult_chunk_nonneg addedByCalls exists_callBack_of_sends)

variable {η : Type}

/-- The bytes the library decrypts in a loop over these answers. -/
def plaintextOf : List SslRead → List UInt8
  | [] => []
  | read :: reads =>
      match read.answer with
      | .plaintext bytes => bytes.val ++ plaintextOf reads
      | .code _ => []

/-- The loop ends with a library that waits for its callbacks. -/
def EndsWaiting : List SslRead → Prop
  | [] => True
  | read :: reads =>
      match read.answer with
      | .plaintext _ => EndsWaiting reads
      | .code ret => wants ret.val = true

/-- Between two states the handler consumed just these bytes. -/
def Consumed (before after : Socket (TransmissionSecurity η)) (bytes : List UInt8) : Prop :=
  ∃ shown, after.log = before.log ++ shown ∧ shown.flatMap consumedBy = bytes

/-- The handler consumed the bytes, next after those that were staged before. -/
def Handed (plaintext : List UInt8) (before after : Socket (TransmissionSecurity η)) : Prop :=
  ∃ bytes, Consumed before after bytes ∧
    plaintext <+: bytes.drop before.sub.sourceRead.unread.length

section Consumption

variable {before middle after : Socket (TransmissionSecurity η)} {bytes more : List UInt8}

theorem Consumed.trans (first : Consumed before middle bytes)
    (second : Consumed middle after more) : Consumed before after (bytes ++ more) := by
  obtain ⟨shown, log_eq, rfl⟩ := first
  obtain ⟨next, next_eq, rfl⟩ := second
  exact ⟨shown ++ next, by rw [next_eq, log_eq, List.append_assoc], List.flatMap_append⟩

/-- The consumed bytes are determined. -/
theorem Consumed.unique (first : Consumed before after bytes)
    (second : Consumed before after more) : bytes = more := by
  obtain ⟨shown, log_eq, rfl⟩ := first
  obtain ⟨others, others_eq, rfl⟩ := second
  obtain rfl : shown = others := List.append_cancel_left (log_eq.symm.trans others_eq)
  rfl

theorem Consumed.of_log_grown (grown : before.log <+: after.log) :
    ∃ bytes, Consumed before after bytes := by
  obtain ⟨shown, log_eq⟩ := grown
  exact ⟨shown.flatMap consumedBy, shown, log_eq.symm, rfl⟩

/-- Events without consumption. -/
theorem Consumed.of_silent {shown : List Event} (log_eq : after.log = before.log ++ shown)
    (silent : ∀ event ∈ shown, consumedBy event = []) : Consumed before after [] :=
  ⟨shown, log_eq, List.flatMap_eq_nil_iff.mpr silent⟩

/-- An event without consumption. -/
theorem Consumed.emit (socket : Socket (TransmissionSecurity η)) {event : Event}
    (silent : consumedBy event = []) : Consumed socket (socket.emit event) [] :=
  Consumed.of_silent rfl (List.forall_mem_singleton.mpr silent)

/-- Virtual methods without consumption. -/
theorem Consumed.of_subSteps {allowed : Event → Prop}
    (silent : ∀ event, allowed event → consumedBy event = [])
    (steps : Socket.SubSteps allowed before after) : Consumed before after [] := by
  obtain ⟨shown, log_eq, all⟩ := steps.log_extends
  apply Consumed.of_silent log_eq
  intro event mem
  rcases all event mem with ok | ⟨status, rfl⟩
  · exact silent event ok
  · rfl

theorem consumedBy_of_quiet (event : Event) (ok : Socket.quiet event) : consumedBy event = [] :=
  consumedBy_of_unoffered event (offeredBy_of_quiet event ok)

/-- The library offers nothing on its own. -/
theorem offeredBy_of_inner {fd : Int} (event : Event) (ok : inner fd event) :
    offeredBy event = [] := by
  cases event with
  | onData offer result => exact absurd ok id
  | _ => rfl

theorem consumedBy_of_inner {fd : Int} (event : Event) (ok : inner fd event) :
    consumedBy event = [] :=
  consumedBy_of_unoffered event (offeredBy_of_inner event ok)

/-- A `RealDisconnect` offers nothing. -/
theorem consumed_realDisconnect {handler : SocketHandler η}
    (execution : Socket.realDisconnect (socketClass handler) before = some after) :
    Consumed before after [] := by
  rw [Socket.realDisconnect, Option.bind_eq_bind, Option.bind_eq_some_iff] at execution
  obtain ⟨told, onDisconnect, execution⟩ := execution
  have reported : Consumed before (before.emit .onDisconnect) [] :=
    Consumed.emit before rfl
  have answered : Consumed (before.emit .onDisconnect) told [] :=
    Consumed.of_subSteps consumedBy_of_quiet (onDisconnect_within handler _ _ onDisconnect)
  split at execution
  · cases execution
    have shut : Consumed told (told.emit (.closed told.fd)) [] :=
      Consumed.emit told rfl
    exact (reported.trans answered).trans shut
  · cases execution
    exact reported.trans answered

theorem consumed_of_silenced (silenced : Socket.Silenced before after) :
    Consumed before after [] := by
  obtain ⟨shown, log_eq, all⟩ := silenced.shows
  apply Consumed.of_silent log_eq
  intro event mem
  rcases all event mem with ok | ⟨status, rfl⟩
  · exact consumedBy_of_quiet event ok
  · rfl

end Consumption

/-! ## The decrypting loop -/

theorem sourceRead_netCalls (calls : List NetCall) (socket : Socket (TransmissionSecurity η)) :
    (netCalls calls socket).sub.sourceRead = socket.sub.sourceRead := by
  obtain ⟨tlsRead, readTempLen, sub_eq⟩ := sub_netCalls calls socket
  rw [sub_eq]

/-- The loop stages every decrypted byte, and is left through its flag when the library waits. -/
theorem decrypt_spec {reads : List SslRead} {before after : Socket (TransmissionSecurity η)}
    {flagged : Bool} (execution : decrypt reads before = some (flagged, after)) :
    (flagged = true ↔ EndsWaiting reads) ∧
      after.sub.sourceRead.unread = before.sub.sourceRead.unread ++ plaintextOf reads := by
  induction reads generalizing before with
  | nil =>
      cases execution
      simp [EndsWaiting, plaintextOf]
  | cons read reads ih =>
      rw [decrypt] at execution
      cases answer : read.answer with
      | code ret =>
          simp only [answer] at execution
          cases execution
          simp only [EndsWaiting, plaintextOf, answer, List.append_nil]
          exact ⟨trivial, by rw [sourceRead_netCalls]⟩
      | plaintext bytes =>
          simp only [answer, Option.bind_eq_bind, Option.bind_eq_some_iff] at execution
          obtain ⟨⟨added, sourceRead⟩, stored, execution⟩ := execution
          obtain ⟨rfl, unread_eq⟩ := SoundBuffer.addTailData_of_some stored
          rw [(added_plaintext bytes).1, Socket.sub_emit, sourceRead_netCalls] at unread_eq
          simp only [if_neg (addResult_plaintext_nonneg bytes)] at execution
          obtain ⟨flag, rest⟩ := ih execution
          simp only [EndsWaiting, plaintextOf, answer]
          refine ⟨flag, ?_⟩
          rw [rest, ← List.append_assoc, ← unread_eq]
          rfl

/-! ## A finishing `OnRead` -/

/-- What `OnRead` does behind the loop. -/
def offerDecrypted (handler : SocketHandler η) (chunk : Chunk) (flagged : Bool)
    (socket : Socket (TransmissionSecurity η)) : Option (Int × Socket (TransmissionSecurity η)) :=
  if ¬flagged then some (-1, socket)
  else do
    let (popped, sourceRead, socket) ←
      socket.sub.sourceRead.popHeadData (sourceReadBufferPopData handler) socket
    let socket := update (fun sub => { sub with sourceRead }) socket
    if popped < 0 then some (-1, socket) else some (chunk.val.length, socket)

/-- It gives up unless the loop was left through its flag, and then offers all that is staged. -/
theorem offerDecrypted_cases {handler : SocketHandler η} {chunk : Chunk} {flagged : Bool}
    {decrypted after : Socket (TransmissionSecurity η)} {result : Int}
    (execution : offerDecrypted handler chunk flagged decrypted = some (result, after)) :
    flagged = false ∧ result = -1 ∧ after = decrypted ∨
      flagged = true ∧ ∃ value next,
        sourceReadBufferPopData handler decrypted.sub.sourceRead.unread decrypted =
          some (value, next) ∧
        after = update (fun sub => { sub with
          sourceRead := (decrypted.sub.sourceRead.consume value).2 }) next ∧
        result = if (decrypted.sub.sourceRead.consume value).1 < 0 then -1
          else (chunk.val.length : Int) := by
  cases flagged with
  | false =>
      cases execution
      exact Or.inl ⟨rfl, rfl, rfl⟩
  | true =>
      rw [offerDecrypted, if_neg (by simp), Option.bind_eq_bind, Option.bind_eq_some_iff]
        at execution
      obtain ⟨⟨popped, popBuffer, next⟩, pop, execution⟩ := execution
      obtain ⟨value, answer, consumed⟩ := SoundBuffer.popHeadData_eq_some_iff.mp pop
      refine Or.inr ⟨rfl, value, next, answer, ?_⟩
      rw [consumed]
      simp only at execution ⊢
      split at execution
      · rename_i failed
        cases execution
        exact ⟨rfl, (if_pos failed).symm⟩
      · rename_i succeeded
        cases execution
        exact ⟨rfl, (if_neg succeeded).symm⟩

/-- With a complete handshake, a finishing `OnRead` that could store its chunk is the loop and what
comes behind it. -/
theorem onRead_eq_of_shaken {handler : SocketHandler η} {input : TlsInput} {chunk : Chunk}
    {socket : Socket (TransmissionSecurity η)} {added : Int} {tlsRead : SoundBuffer}
    (ready : socket.sub.init = true) (shaken : input.handshake.result = 0)
    (stored : socket.sub.tlsRead.addTailData (.bytes chunk.val) = some (added, tlsRead)) :
    onRead handler input chunk true socket =
      (decrypt input.reads (sslHandshake input.handshake
        (update (fun sub => { sub with tlsRead }) socket)).2).bind fun looped =>
          offerDecrypted handler chunk looped.1 looped.2 := by
  obtain ⟨rfl, -⟩ := SoundBuffer.addTailData_of_some stored
  have done : (sslHandshake input.handshake
      (update (fun sub => { sub with tlsRead }) socket)).1 = 0 := shaken
  rw [onRead, if_neg (not_not.mpr ready), Option.bind_eq_bind, stored, Option.bind_some]
  simp only [if_neg (addResult_chunk_nonneg chunk), not_true, if_false, done, ne_eq]
  rfl

/-- The handshake leaves the handler and what is staged for it alone. -/
theorem sslHandshake_leaves (call : SslCall) (tlsRead : SoundBuffer)
    (socket : Socket (TransmissionSecurity η)) :
    Socket.SubSteps (inner socket.fd) socket
        (sslHandshake call (update (fun sub => { sub with tlsRead }) socket)).2 ∧
      ∃ lastRead lastLen,
        (sslHandshake call (update (fun sub => { sub with tlsRead }) socket)).2.sub =
          { socket.sub with tlsRead := lastRead, readTempLen := lastLen } := by
  constructor
  · exact (update_within _ socket).trans
      (sslHandshake_within call (update (fun sub => { sub with tlsRead }) socket))
  · exact sub_netCalls call.net (update (fun sub => { sub with tlsRead }) socket)

/-- A finishing `OnRead` with a complete handshake decrypts without offering anything.  It gives up
unless the loop was left through its flag, and then offers all that is staged. -/
theorem onRead_of_shaken {handler : SocketHandler η} {input : TlsInput} {chunk : Chunk}
    {before after : Socket (TransmissionSecurity η)} {result : Int}
    (ready : before.sub.init = true) (shaken : input.handshake.result = 0)
    (execution : onRead handler input chunk true before = some (result, after)) :
    ∃ decrypted, Socket.SubSteps (inner before.fd) before decrypted ∧
      decrypted.sub.handler = before.sub.handler ∧
      decrypted.sub.sourceRead.unread =
        before.sub.sourceRead.unread ++ plaintextOf input.reads ∧
      (¬EndsWaiting input.reads ∧ result = -1 ∧ after = decrypted ∨
        EndsWaiting input.reads ∧ ∃ value next,
          sourceReadBufferPopData handler decrypted.sub.sourceRead.unread decrypted =
            some (value, next) ∧
          after = update (fun sub => { sub with
            sourceRead := (decrypted.sub.sourceRead.consume value).2 }) next ∧
          result = if (decrypted.sub.sourceRead.consume value).1 < 0 then -1
            else (chunk.val.length : Int)) := by
  obtain ⟨added, tlsRead, stored⟩ : ∃ added tlsRead,
      before.sub.tlsRead.addTailData (.bytes chunk.val) = some (added, tlsRead) := by
    rw [onRead, if_neg (not_not.mpr ready), Option.bind_eq_bind, Option.bind_eq_some_iff]
      at execution
    obtain ⟨⟨added, tlsRead⟩, stored, -⟩ := execution
    exact ⟨added, tlsRead, stored⟩
  rw [onRead_eq_of_shaken ready shaken stored, Option.bind_eq_some_iff] at execution
  obtain ⟨⟨flagged, decrypted⟩, looped, execution⟩ := execution
  obtain ⟨quietly, shakenRead, shakenLen, sub_shaken⟩ :=
    sslHandshake_leaves input.handshake tlsRead before
  obtain ⟨flag, unread_eq⟩ := decrypt_spec looped
  obtain ⟨lastRead, lastLen, sourceRead, sub_decrypted⟩ := sub_decrypt looped
  have decrypting := decrypt_within looped
  rw [quietly.fd_eq] at decrypting
  rw [sub_shaken] at unread_eq sub_decrypted
  refine ⟨decrypted, quietly.trans decrypting, by rw [sub_decrypted], unread_eq, ?_⟩
  rcases offerDecrypted_cases execution with ⟨rfl, given_up⟩ | ⟨rfl, offered⟩
  · exact Or.inl ⟨fun waits => Bool.false_ne_true (flag.mpr waits), given_up⟩
  · exact Or.inr ⟨flag.mp rfl, offered⟩

/-- A handler that consumes all it is offered takes the whole offer. -/
theorem consumed_offer {handler : SocketHandler η} (consumes : handler.ConsumesAll)
    {offer : List UInt8} {before after : Socket (TransmissionSecurity η)} {value : Int}
    (answer : sourceReadBufferPopData handler offer before = some (value, after)) :
    Consumed before after offer := by
  obtain ⟨value_eq, calls⟩ := sourceReadBufferPopData_eq_some.mp answer
  obtain rfl : value = offer.length := value_eq.symm.trans (consumes _ _)
  have count_eq : AutoGrowBuffer.popCount offer.length offer.length = offer.length := by
    rw [AutoGrowBuffer.popCount, if_neg (by omega), Int.toNat_natCast]
  have offered : Consumed before (before.emit (.onData offer offer.length)) offer := by
    refine ⟨[.onData offer offer.length], rfl, ?_⟩
    simp [consumedBy, count_eq]
  have answered : Consumed (before.emit (.onData offer offer.length)) after [] :=
    Consumed.of_subSteps consumedBy_of_quiet (callBack_send_within calls)
  simpa using offered.trans answered

/-- What `RealRead` makes of the value of the `OnRead` that finishes it. -/
def settle (result : Int) (socket : Socket (TransmissionSecurity η)) :
    Socket (TransmissionSecurity η) :=
  if result < 0 then socket.assign .disconnected else socket

/-- The loop is defined while what it stages fits. -/
theorem exists_decrypt {reads : List SslRead} {socket : Socket (TransmissionSecurity η)}
    (fits : socket.sub.sourceRead.unread.length + (plaintextOf reads).length < 2 ^ 30) :
    ∃ flagged after, decrypt reads socket = some (flagged, after) := by
  induction reads generalizing socket with
  | nil => exact ⟨true, socket, rfl⟩
  | cons read reads ih =>
      cases answer : read.answer with
      | code ret => exact ⟨wants ret.val, netCalls read.net socket, by simp only [decrypt, answer]⟩
      | plaintext bytes =>
          simp only [plaintextOf, answer, List.length_append] at fits
          have added_eq := (added_plaintext bytes).1
          have staged_eq : ((netCalls read.net socket).emit (.sslRead bytes.val)).sub.sourceRead =
              socket.sub.sourceRead := sourceRead_netCalls read.net socket
          have room : socket.sub.sourceRead.unread.length +
              (AutoGrowBuffer.added (.bytes bytes.val)).length < 2 ^ 30 := by
            rw [added_eq]
            omega
          obtain ⟨sourceRead, stored⟩ := socket.sub.sourceRead.exists_addTailData _ room
          obtain ⟨-, unread_eq⟩ := SoundBuffer.addTailData_of_some stored
          have later : (update (fun sub => { sub with sourceRead })
              ((netCalls read.net socket).emit (.sslRead bytes.val))).sub.sourceRead.unread.length +
                (plaintextOf reads).length < 2 ^ 30 := by
            change sourceRead.unread.length + _ < _
            rw [unread_eq, added_eq, List.length_append]
            omega
          obtain ⟨flagged, after, rest⟩ := ih later
          refine ⟨flagged, after, ?_⟩
          simp only [decrypt, answer, staged_eq, stored, Option.bind_eq_bind, Option.bind_some,
            if_neg (addResult_plaintext_nonneg bytes)]
          exact rest

/-- The calls of a callback that fit are defined. -/
theorem exists_callBack {calls : List PublicCall} {socket : Socket (TransmissionSecurity η)}
    (fits : socket.sub.sourceSend.unread.length + (addedByCalls calls).length < 2 ^ 30) :
    ∃ after, Socket.callBack send calls socket = some after := by
  refine exists_callBack_of_sends TransmissionSecurity.sourceSend ?_ fits
  intro data socket room
  by_cases ready : socket.sub.init = true
  · obtain ⟨sourceSend, added⟩ := socket.sub.sourceSend.exists_addTailData data room
    obtain ⟨-, unread_eq⟩ := SoundBuffer.addTailData_of_some added
    refine ⟨AutoGrowBuffer.addResult data, (update (fun sub => { sub with sourceSend }) socket).emit
      (.send data (AutoGrowBuffer.addResult data)), by simp [send, ready, added], ?_⟩
    change sourceSend.unread.length ≤ _
    rw [unread_eq, List.length_append]
  · exact ⟨-1, socket.emit (.send data (-1)), by rw [send, if_pos ready], Nat.le_add_right _ _⟩

/-- What an `OnRead` stores fits into the queues, and so does what the handler sends while it is
offered the decrypted bytes. -/
structure ReadFits (handler : SocketHandler η) (input : TlsInput) (chunk : Chunk) (finish : Bool)
    (socket : Socket (TransmissionSecurity η)) : Prop where
  ciphertext : socket.sub.tlsRead.unread.length + chunk.val.length < 2 ^ 30
  plaintext : finish = true → input.handshake.result = 0 →
    socket.sub.sourceRead.unread.length + (plaintextOf input.reads).length < 2 ^ 30
  answer : finish = true → input.handshake.result = 0 → EndsWaiting input.reads →
    socket.sub.sourceSend.unread.length + (addedByCalls (handler.onData
      (socket.sub.sourceRead.unread ++ plaintextOf input.reads) socket.sub.handler).2.1).length <
        2 ^ 30

/-- The offer of what is staged is defined while what the handler sends meanwhile fits. -/
theorem exists_offer {handler : SocketHandler η} {socket : Socket (TransmissionSecurity η)}
    (fits : socket.sub.sourceSend.unread.length + (addedByCalls (handler.onData
      socket.sub.sourceRead.unread socket.sub.handler).2.1).length < 2 ^ 30) :
    ∃ popped sourceRead next, socket.sub.sourceRead.popHeadData (sourceReadBufferPopData handler)
      socket = some (popped, sourceRead, next) := by
  have told : ∃ next, sourceReadBufferPopData handler socket.sub.sourceRead.unread socket =
      some ((handler.onData socket.sub.sourceRead.unread socket.sub.handler).1, next) := by
    obtain ⟨next, calls⟩ : ∃ next, Socket.callBack send
        (handler.onData socket.sub.sourceRead.unread socket.sub.handler).2.1
        (update (fun sub => { sub with
            handler := (handler.onData socket.sub.sourceRead.unread socket.sub.handler).2.2 })
          (socket.emit (.onData socket.sub.sourceRead.unread
            (handler.onData socket.sub.sourceRead.unread socket.sub.handler).1))) = some next :=
      exists_callBack fits
    exact ⟨next, sourceReadBufferPopData_eq_some.mpr ⟨rfl, calls⟩⟩
  obtain ⟨next, answer⟩ := told
  exact ⟨_, _, next, SoundBuffer.popHeadData_eq_some_iff.mpr ⟨_, answer, rfl⟩⟩

theorem exists_offerDecrypted {handler : SocketHandler η} (chunk : Chunk) {flagged : Bool}
    {socket : Socket (TransmissionSecurity η)}
    (fits : flagged = true → socket.sub.sourceSend.unread.length + (addedByCalls (handler.onData
      socket.sub.sourceRead.unread socket.sub.handler).2.1).length < 2 ^ 30) :
    ∃ result after, offerDecrypted handler chunk flagged socket = some (result, after) := by
  cases flagged with
  | false => exact ⟨_, _, rfl⟩
  | true =>
      obtain ⟨popped, sourceRead, next, pop⟩ := exists_offer (fits rfl)
      simp only [offerDecrypted, not_true, if_false, pop, Option.bind_eq_bind, Option.bind_some]
      split
      · exact ⟨_, _, rfl⟩
      · exact ⟨_, _, rfl⟩

/-- An `OnRead` that fits is defined. -/
theorem exists_onRead {handler : SocketHandler η} {input : TlsInput} {chunk : Chunk}
    {finish : Bool} {socket : Socket (TransmissionSecurity η)} (ready : socket.sub.init = true)
    (fits : ReadFits handler input chunk finish socket) :
    ∃ result after, onRead handler input chunk finish socket = some (result, after) := by
  obtain ⟨tlsRead, stored⟩ := socket.sub.tlsRead.exists_addTailData (.bytes chunk.val)
    (by rw [(added_chunk chunk).1]; exact fits.ciphertext)
  by_cases complete : finish = true ∧ input.handshake.result = 0
  · obtain ⟨rfl, done⟩ := complete
    obtain ⟨-, shakenRead, shakenLen, sub_shaken⟩ :=
      sslHandshake_leaves input.handshake tlsRead socket
    have room : (sslHandshake input.handshake
        (update (fun sub => { sub with tlsRead }) socket)).2.sub.sourceRead.unread.length +
          (plaintextOf input.reads).length < 2 ^ 30 := by
      rw [sub_shaken]
      exact fits.plaintext rfl done
    obtain ⟨flagged, decrypted, looped⟩ := exists_decrypt room
    obtain ⟨flag, unread_eq⟩ := decrypt_spec looped
    obtain ⟨lastRead, lastLen, sourceRead, sub_decrypted⟩ := sub_decrypt looped
    rw [sub_shaken] at unread_eq sub_decrypted
    have answer (left : flagged = true) :
        decrypted.sub.sourceSend.unread.length + (addedByCalls (handler.onData
          decrypted.sub.sourceRead.unread decrypted.sub.handler).2.1).length < 2 ^ 30 := by
      rw [unread_eq, sub_decrypted]
      exact fits.answer rfl done (flag.mp left)
    obtain ⟨result, after, offered⟩ := exists_offerDecrypted chunk answer
    refine ⟨result, after, ?_⟩
    rw [onRead_eq_of_shaken ready done stored, looped]
    exact offered
  · rw [onRead, if_neg (not_not.mpr ready), stored]
    simp only [Option.bind_eq_bind, Option.bind_some, if_neg (addResult_chunk_nonneg chunk)]
    cases finish with
    | false => exact ⟨_, _, rfl⟩
    | true =>
        have undone : (sslHandshake input.handshake
            (update (fun sub => { sub with tlsRead }) socket)).1 ≠ 0 :=
          fun done => complete ⟨rfl, done⟩
        rw [if_neg (by simp), if_pos undone]
        split
        · exact ⟨_, _, rfl⟩
        · exact ⟨_, _, rfl⟩

section Reported

variable {handler : SocketHandler η} {input : TlsInput} {chunk : Chunk}
  {start read reached final : Socket (TransmissionSecurity η)} {result : Int}
  {later : List (Socket.Call TlsInput)}

/-- After a loop that ended badly, nothing is offered any more. -/
theorem consumed_of_given_up (ready : start.sub.init = true)
    (shaken : input.handshake.result = 0)
    (execution : onRead handler input chunk true start = some (result, read))
    (others : ∀ call ∈ later, ∀ kernel, call ≠ .realConnect kernel)
    (served : PartialRun.run (Socket.perform (socketClass handler)) later (settle result read) =
      some reached)
    (reported : Socket.realDisconnect (socketClass handler) reached = some final)
    (ends : ¬EndsWaiting input.reads) : Consumed start final [] := by
  obtain ⟨decrypted, decrypting, -, -, outcome⟩ := onRead_of_shaken ready shaken execution
  have quietly : Consumed start decrypted [] :=
    Consumed.of_subSteps consumedBy_of_inner decrypting
  rcases outcome with ⟨-, rfl, rfl⟩ | ⟨waits, -⟩
  · have closed : settle (-1) read = read.assign .disconnected := if_pos (by decide)
    rw [closed] at served
    have shut : Consumed read (read.assign .disconnected) [] :=
      consumed_of_silenced (Socket.Silenced.disconnect read)
    have silenced : Consumed (read.assign .disconnected) reached [] :=
      consumed_of_silenced (Socket.silenced_of_run others rfl served)
    exact ((quietly.trans shut).trans silenced).trans (consumed_realDisconnect reported)
  · exact absurd waits ends

/-- After a loop that was left through its flag, the handler has everything. -/
theorem handed_of_waiting (consumes : handler.ConsumesAll) (ready : start.sub.init = true)
    (shaken : input.handshake.result = 0)
    (execution : onRead handler input chunk true start = some (result, read))
    (grown : read.log <+: final.log) (waits : EndsWaiting input.reads) :
    Handed (plaintextOf input.reads) start final := by
  obtain ⟨decrypted, decrypting, -, unread_eq, outcome⟩ := onRead_of_shaken ready shaken execution
  have quietly : Consumed start decrypted [] :=
    Consumed.of_subSteps consumedBy_of_inner decrypting
  rcases outcome with ⟨ends, -, -⟩ | ⟨-, value, next, answer, rfl, -⟩
  · exact absurd waits ends
  · have delivered : Consumed start next decrypted.sub.sourceRead.unread :=
      quietly.trans (consumed_offer consumes answer)
    obtain ⟨more, rest⟩ := Consumed.of_log_grown grown
    refine ⟨_, delivered.trans rest, ?_⟩
    rw [unread_eq, List.append_assoc, List.drop_left]
    exact List.prefix_append _ _

end Reported

/-! ## A farewell with data -/

/-- A set-up without errors. -/
def setUp : SetupAnswers := { seed := 0, parse := 0, defaults := 0, setup := 0 }

/-- A library in the middle of its handshake. -/
def shaking : TlsInput where
  handshake := { net := [], result := errSslWantRead }
  reads := []
  write := { net := [], result := errSslWantRead }
  rawWrite := .accepts 0

/-- `MBEDTLS_ERR_SSL_PEER_CLOSE_NOTIFY`. -/
def errSslPeerCloseNotify : { ret : Int // ret ≤ 0 } := ⟨-0x7880, by decide⟩

/-- One decrypted chunk, and then this code. -/
def chunkThen (code : { ret : Int // ret ≤ 0 }) : TlsInput where
  handshake := { net := [], result := 0 }
  reads :=
    [{ net := [.recv 4], answer := .plaintext ⟨[104, 105], by decide⟩ },
      { net := [], answer := .code code }]
  write := { net := [], result := errSslWantRead }
  rawWrite := .accepts 0

/-- The chunk of the kernel that holds both records. -/
def flight : Chunk := ⟨[1, 2, 3, 4, 5, 6], by decide⟩

/-- A socket that was set up and connected. -/
theorem connectCalls_secured :
    ∃ start, PartialRun.run (Socket.perform (socketClass SocketHandler.sink))
        (Socket.connectCalls shaking) (setSecurityLicence setUp (construct ())).2 = some start ∧
      start.status = .connected ∧ start.sub.init = true ∧
      start.sub.tlsRead = .construct kTlsReadLen ∧
      start.sub.sourceRead = .construct kTlsSendLen ∧
      start.sub.sourceSend = .construct kTlsReadLen :=
  ⟨_, rfl, rfl, rfl, rfl, rfl, rfl⟩

/-- A silent handler is told about the end of any connection. -/
theorem exists_realDisconnect_sink (socket : Socket (TransmissionSecurity Unit)) :
    ∃ final, Socket.realDisconnect (socketClass SocketHandler.sink) socket = some final := by
  by_cases opened : socket.fd ≠ 0
  · exact ⟨_, if_pos opened⟩
  · exact ⟨_, if_neg opened⟩

/-- The flight fits into the fresh queues of a connected socket. -/
theorem connectCalls_roomy (code : { ret : Int // ret ≤ 0 }) :
    ∃ start, PartialRun.run (Socket.perform (socketClass SocketHandler.sink))
        (Socket.connectCalls shaking) (setSecurityLicence setUp (construct ())).2 = some start ∧
      start.status = .connected ∧ start.sub.init = true ∧
      ReadFits SocketHandler.sink (chunkThen code) flight true start := by
  obtain ⟨start, reached, connected, ready, fresh_tls, fresh_source, fresh_send⟩ :=
    connectCalls_secured
  have room : start.sub.tlsRead.unread.length + flight.val.length < 2 ^ 30 := by
    rw [fresh_tls, SoundBuffer.construct_unread]
    decide
  have fits : start.sub.sourceRead.unread.length +
      (plaintextOf (chunkThen code).reads).length < 2 ^ 30 := by
    have two : (plaintextOf (chunkThen code).reads).length = 2 := rfl
    rw [fresh_source, SoundBuffer.construct_unread, two]
    decide
  have silent : start.sub.sourceSend.unread.length + 0 < 2 ^ 30 := by
    rw [fresh_send, SoundBuffer.construct_unread]
    decide
  exact ⟨start, reached, connected, ready, room, fun _ _ => fits, fun _ _ _ => silent⟩

/-- The connected socket reads the flight and is then reported disconnected. -/
theorem exists_chunkThen (code : { ret : Int // ret ≤ 0 }) :
    ∃ start result read final, PartialRun.run (Socket.perform (socketClass SocketHandler.sink))
        (Socket.connectCalls shaking) (setSecurityLicence setUp (construct ())).2 = some start ∧
      start.status = .connected ∧ start.sub.init = true ∧
      onRead SocketHandler.sink (chunkThen code) flight true start = some (result, read) ∧
      Socket.realDisconnect (socketClass SocketHandler.sink) (settle result read) =
        some final := by
  obtain ⟨start, reached, connected, ready, fits⟩ := connectCalls_roomy code
  obtain ⟨result, read, execution⟩ := exists_onRead ready fits
  obtain ⟨final, reported⟩ := exists_realDisconnect_sink (settle result read)
  exact ⟨start, result, read, final, reached, connected, ready, execution, reported⟩

/-- When the socket is reported disconnected, the handler has the bytes that a finishing `OnRead`
decrypted exactly if the loop ended with a library that waits, or decrypted nothing.  The engine
calls `RealConnect` on no socket it has read from. -/
theorem handed_iff_endsWaiting (handler : SocketHandler η) (consumes : handler.ConsumesAll)
    (start : Socket (TransmissionSecurity η)) (ready : start.sub.init = true)
    (input : TlsInput) (shaken : input.handshake.result = 0) (chunk : Chunk)
    (result : Int) (read : Socket (TransmissionSecurity η))
    (execution : onRead handler input chunk true start = some (result, read))
    (later : List (Socket.Call TlsInput))
    (others : ∀ call ∈ later, ∀ kernel, call ≠ .realConnect kernel)
    (reached : Socket (TransmissionSecurity η))
    (served : PartialRun.run (Socket.perform (socketClass handler)) later (settle result read) =
      some reached)
    (final : Socket (TransmissionSecurity η))
    (reported : Socket.realDisconnect (socketClass handler) reached = some final) :
    Handed (plaintextOf input.reads) start final ↔
      EndsWaiting input.reads ∨ plaintextOf input.reads = [] := by
  by_cases waits : EndsWaiting input.reads
  · have settled : read.log <+: (settle result read).log := by
      rw [settle]
      split
      · exact List.prefix_append _ _
      · exact List.prefix_rfl
    obtain ⟨shown, last_eq, -⟩ := consumed_realDisconnect reported
    have last : reached.log <+: final.log := ⟨shown, last_eq.symm⟩
    have grown := (settled.trans (Socket.log_prefix_of_run served)).trans last
    exact iff_of_true (handed_of_waiting consumes ready shaken execution grown waits)
      (Or.inl waits)
  · have nothing : Consumed start final [] :=
      consumed_of_given_up ready shaken execution others served reported waits
    constructor
    · rintro ⟨bytes, consumed, front⟩
      obtain rfl := consumed.unique nothing
      rw [List.drop_nil, List.prefix_nil] at front
      exact Or.inr front
    · rintro (ends | empty)
      · exact absurd ends waits
      · exact ⟨[], nothing, by rw [empty]; exact List.nil_prefix⟩

theorem handed_iff_endsWaiting_farewell :
    ∃ start result read final,
      onRead SocketHandler.sink (chunkThen errSslPeerCloseNotify) flight true start =
        some (result, read) ∧
      Socket.realDisconnect (socketClass SocketHandler.sink) (settle result read) = some final ∧
      (Handed (plaintextOf (chunkThen errSslPeerCloseNotify).reads) start final ↔
        EndsWaiting (chunkThen errSslPeerCloseNotify).reads ∨
          plaintextOf (chunkThen errSslPeerCloseNotify).reads = []) := by
  obtain ⟨start, result, read, final, -, -, ready, execution, reported⟩ :=
    exists_chunkThen errSslPeerCloseNotify
  exact ⟨start, result, read, final, execution, reported,
    handed_iff_endsWaiting SocketHandler.sink SocketHandler.sink_consumesAll start ready
      (chunkThen errSslPeerCloseNotify) rfl flight result read execution [] (by simp) _ rfl final
      reported⟩

/-- A chunk that arrives together with the peer's farewell never reaches the handler. -/
theorem farewell_left_behind :
    ∃ start result read final, PartialRun.run (Socket.perform (socketClass SocketHandler.sink))
        (Socket.connectCalls shaking) (setSecurityLicence setUp (construct ())).2 = some start ∧
      start.status = .connected ∧
      onRead SocketHandler.sink (chunkThen errSslPeerCloseNotify) flight true start =
        some (result, read) ∧
      Socket.realDisconnect (socketClass SocketHandler.sink) (settle result read) = some final ∧
      ¬Handed [104, 105] start final := by
  obtain ⟨start, result, read, final, reached, connected, ready, execution, reported⟩ :=
    exists_chunkThen errSslPeerCloseNotify
  refine ⟨start, result, read, final, reached, connected, execution, reported, ?_⟩
  have ends : ¬EndsWaiting (chunkThen errSslPeerCloseNotify).reads := Bool.false_ne_true
  have nothing : Consumed start final [] :=
    consumed_of_given_up ready rfl execution (List.forall_mem_nil _) rfl reported ends
  rintro ⟨bytes, consumed, front⟩
  obtain rfl := consumed.unique nothing
  rw [List.drop_nil, List.prefix_nil] at front
  exact List.cons_ne_nil _ _ front

end TransmissionSecurity
end NetworkBase
