import NetworkBase.Transport.OfferStream
import NetworkBase.Transport.PlaintextStream

/-!
# The value of `OnData` in both transports

A handler is written once and used behind either transport.  Each `OnRead` offers all that is
pending in a single `OnData`, and the same bytes are consumed.  What the value of `OnData` is worth
differs: the encrypted transport fails where it is no count of the offered bytes, and the plain one
never does.
-/

namespace NetworkBase

namespace Socket

variable {σ ω : Type}

/-- What was observed between two states. -/
def observed (observe : Event → List ω) (before after : Socket σ) : List ω :=
  (after.log.drop before.log.length).flatMap observe

/-- Between two states there was one `OnData`, with this offer and this value. -/
def OfferedOnce (offer : List UInt8) (answer : Int) (before after : Socket σ) : Prop :=
  ∃ earlier later, after.log = before.log ++ (earlier ++ .onData offer answer :: later) ∧
    ∀ event ∈ earlier ++ later, offeredBy event = []

/-- Events without an offer show nothing to an observer of offers. -/
theorem observed_offeredOnce {offer : List UInt8} {answer : Int} {before after : Socket σ}
    (once : OfferedOnce offer answer before after) (observe : Event → List ω)
    (silent : ∀ event, offeredBy event = [] → observe event = []) :
    observed observe before after = observe (.onData offer answer) := by
  obtain ⟨earlier, later, log_eq, none_offered⟩ := once
  have nothing : ∀ event ∈ earlier ++ later, observe event = [] :=
    fun event mem => silent event (none_offered event mem)
  rw [List.forall_mem_append] at nothing
  rw [observed, log_eq, List.drop_left, List.flatMap_append, List.flatMap_cons,
    List.flatMap_eq_nil_iff.mpr nothing.1, List.flatMap_eq_nil_iff.mpr nothing.2,
    List.append_nil, List.nil_append]

/-- A method that offers nothing, then the offer, then the calls of the handler. -/
theorem OfferedOnce.of_steps {allowed : Event → Prop} {offer : List UInt8} {answer : Int}
    {before middle after : Socket σ}
    (unoffered : ∀ event, allowed event → offeredBy event = [])
    (earlier : SubSteps allowed before middle)
    (later : SubSteps quiet (middle.emit (.onData offer answer)) after) :
    OfferedOnce offer answer before after := by
  obtain ⟨first, first_eq, first_all⟩ := earlier.log_extends
  obtain ⟨rest, rest_eq, rest_all⟩ := later.log_extends
  refine ⟨first, rest, ?_, ?_⟩
  · have log_eq : after.log = middle.log ++ [.onData offer answer] ++ rest := rest_eq
    rw [log_eq, first_eq, List.append_assoc, List.append_assoc]
    rfl
  · intro event mem
    rcases List.mem_append.mp mem with mem | mem
    · rcases first_all event mem with ok | ⟨status, rfl⟩
      · exact unoffered event ok
      · rfl
    · rcases rest_all event mem with ok | ⟨status, rfl⟩
      · exact offeredBy_of_quiet event ok
      · rfl

end Socket

/-! ## A finishing `OnRead` -/

section Served

variable {η : Type} {handler : SocketHandler η} {chunk : Chunk} {result : Int}

/-- The plain transport offers what is pending, and takes the chunk whatever the handler says. -/
theorem Transmission.onRead_answered {before after : Socket (Transmission η)}
    {pending : List UInt8} (pending_eq : before.sub.readBuffer.unread ++ chunk.val = pending)
    {answer : Int} (answer_eq : (handler.onData pending before.sub.handler).1 = answer)
    (execution : onRead handler chunk true before = some (result, after)) :
    Socket.OfferedOnce pending answer before after ∧
      after.sub.readBuffer.unread =
        pending.drop (AutoGrowBuffer.popCount answer pending.length) ∧
      result = chunk.val.length := by
  obtain ⟨readBuffer, unread_eq, result_eq, outcome⟩ := onRead_eq_some execution
  rw [pending_eq] at unread_eq
  rcases outcome with ⟨unfinished, -⟩ | ⟨value, next, -, offered, rfl⟩
  · exact absurd unfinished (by decide)
  · rw [unread_eq] at offered
    obtain ⟨value_eq, calls⟩ := (readBufferPopData_eq_some handler).mp offered
    obtain rfl : value = answer := value_eq.symm.trans answer_eq
    have stored : Socket.SubSteps (fun _ => False) before (setReadBuffer readBuffer before) :=
      setReadBuffer_within readBuffer before
    have told := callBack_send_within calls
    refine ⟨.of_steps (fun _ never => never.elim) stored
      (told.trans (setReadBuffer_within (readBuffer.consume value).2 next)), ?_, result_eq⟩
    have left := (SoundBuffer.consume_spec value readBuffer).2
    rw [unread_eq] at left
    exact left

/-- The encrypted transport offers what is pending, and fails where the pop does. -/
theorem TransmissionSecurity.onRead_answered {input : TlsInput}
    {before after : Socket (TransmissionSecurity η)} (ready : before.sub.init = true)
    (shaken : input.handshake.result = 0) (waits : EndsWaiting input.reads)
    {pending : List UInt8}
    (pending_eq : before.sub.sourceRead.unread ++ plaintextOf input.reads = pending)
    {answer : Int} (answer_eq : (handler.onData pending before.sub.handler).1 = answer)
    (execution : onRead handler input chunk true before = some (result, after)) :
    Socket.OfferedOnce pending answer before after ∧
      after.sub.sourceRead.unread =
        pending.drop (AutoGrowBuffer.popCount answer pending.length) ∧
      result = if AutoGrowBuffer.popResult answer pending.length < 0 then -1
        else (chunk.val.length : Int) := by
  obtain ⟨decrypted, quietly, handler_eq, unread_eq, outcome⟩ :=
    onRead_of_shaken ready shaken execution
  rw [pending_eq] at unread_eq
  rcases outcome with ⟨ends, -⟩ | ⟨-, value, next, offered, rfl, result_eq⟩
  · exact absurd waits ends
  · rw [unread_eq] at offered
    obtain ⟨value_eq, calls⟩ := sourceReadBufferPopData_eq_some.mp offered
    rw [handler_eq] at value_eq
    obtain rfl : value = answer := value_eq.symm.trans answer_eq
    obtain ⟨popped, left⟩ := SoundBuffer.consume_spec value decrypted.sub.sourceRead
    rw [unread_eq] at popped left
    rw [popped] at result_eq
    refine ⟨.of_steps offeredBy_of_inner quietly ?_, left, result_eq⟩
    exact (callBack_send_within calls).trans (update_within _ next)

end Served

/-! ## Both transports together -/

section Pairing

variable {η : Type}

/-- One handler waits in both transports for the same bytes.  The handshake of the encrypted one is
complete, and its library yields the bytes until it waits. -/
structure Paired (pending : List UInt8) (plain : Socket (Transmission η)) (chunk : Chunk)
    (secured : Socket (TransmissionSecurity η)) (input : TransmissionSecurity.TlsInput) : Prop where
  handler : plain.sub.handler = secured.sub.handler
  collected : plain.sub.readBuffer.unread ++ chunk.val = pending
  decrypted : secured.sub.sourceRead.unread ++ TransmissionSecurity.plaintextOf input.reads =
    pending
  ready : secured.sub.init = true
  shaken : input.handshake.result = 0
  waits : TransmissionSecurity.EndsWaiting input.reads

/-- There is room for what arrives, and for what the handler sends meanwhile. -/
structure BothFit (handler : SocketHandler η) (pending : List UInt8)
    (plain : Socket (Transmission η)) (chunk : Chunk) (secured : Socket (TransmissionSecurity η))
    (record : Chunk) (input : TransmissionSecurity.TlsInput) : Prop where
  collected : plain.sub.readBuffer.unread.length + chunk.val.length < 2 ^ 30
  answer : plain.sub.sendBuffer.unread.length + (Transmission.addedByCalls
    (handler.onData pending plain.sub.handler).2.1).length < 2 ^ 30
  secured : TransmissionSecurity.ReadFits handler input record true secured

/-- An `OnRead` fails where the value of `OnData` is no count of the offered bytes. -/
def verdict (offer : List UInt8) (answer : Int) (chunk : Chunk) : Int :=
  if answer < 0 ∨ answer > offer.length then -1 else chunk.val.length

/-- Both transports make the same offers, none of them empty, let the handler consume the same
bytes, and return what the value of `OnData` demands. -/
structure Alike (pending : List UInt8) (answer : Int)
    (plain plain' : Socket (Transmission η)) (chunk : Chunk) (result : Int)
    (secured secured' : Socket (TransmissionSecurity η)) (record : Chunk) (result' : Int) :
    Prop where
  offers : Socket.observed offeredBy plain plain' = Socket.observed offeredBy secured secured'
  filled : ∀ offer ∈ Socket.observed offeredBy plain plain', offer ≠ []
  consumed : Socket.observed consumedBy plain plain' = Socket.observed consumedBy secured secured'
  left : plain'.sub.readBuffer.unread = secured'.sub.sourceRead.unread
  plain_verdict : result = verdict pending answer chunk
  secured_verdict : result' = verdict pending answer record

variable {handler : SocketHandler η} {pending : List UInt8} {chunk record : Chunk}
  {input : TransmissionSecurity.TlsInput} {result result' : Int}
  {plain plain' : Socket (Transmission η)} {secured secured' : Socket (TransmissionSecurity η)}

/-- A pop fails where the value of its callback is no count. -/
theorem verdict_of_popResult (offer : List UInt8) (answer : Int) (chunk : Chunk) :
    (if AutoGrowBuffer.popResult answer offer.length < 0 then -1 else (chunk.val.length : Int)) =
      verdict offer answer chunk := by
  rw [verdict, AutoGrowBuffer.popResult]
  by_cases outside : answer < 0 ∨ answer > offer.length
  · rw [if_pos outside, if_pos outside, if_pos (by decide)]
  · rw [if_neg outside, if_neg outside, if_neg (by omega)]

/-- The plain transport meets the verdict exactly where it is no failure. -/
theorem length_eq_verdict_iff (offer : List UInt8) (answer : Int) (chunk : Chunk) :
    (chunk.val.length : Int) = verdict offer answer chunk ↔ 0 ≤ answer ∧ answer ≤ offer.length := by
  rw [verdict]
  split
  · omega
  · omega

/-- The transports differ only in the plain one's disregard of the value. -/
theorem Paired.alike_iff (paired : Paired pending plain chunk secured input)
    (execution : Transmission.onRead handler chunk true plain = some (result, plain'))
    (execution' : TransmissionSecurity.onRead handler input record true secured =
      some (result', secured')) :
    Alike pending (handler.onData pending plain.sub.handler).1 plain plain' chunk result
        secured secured' record result' ↔
      pending ≠ [] ∧ 0 ≤ (handler.onData pending plain.sub.handler).1 ∧
        (handler.onData pending plain.sub.handler).1 ≤ pending.length := by
  obtain ⟨once, left, result_eq⟩ :=
    Transmission.onRead_answered paired.collected rfl execution
  have same : (handler.onData pending secured.sub.handler).1 =
      (handler.onData pending plain.sub.handler).1 := by
    rw [paired.handler]
  obtain ⟨once', left', result_eq'⟩ :=
    TransmissionSecurity.onRead_answered paired.ready paired.shaken paired.waits paired.decrypted
      same execution'
  rw [verdict_of_popResult] at result_eq'
  have offers : Socket.observed offeredBy plain plain' = [pending] :=
    Socket.observed_offeredOnce once offeredBy fun _ none_offered => none_offered
  have offers' : Socket.observed offeredBy secured secured' = [pending] :=
    Socket.observed_offeredOnce once' offeredBy fun _ none_offered => none_offered
  have consumed := Socket.observed_offeredOnce once consumedBy consumedBy_of_unoffered
  have consumed' := Socket.observed_offeredOnce once' consumedBy consumedBy_of_unoffered
  constructor
  · intro alike
    have filled := alike.filled
    rw [offers, List.forall_mem_singleton] at filled
    exact ⟨filled, (length_eq_verdict_iff _ _ chunk).mp
      (result_eq.symm.trans alike.plain_verdict)⟩
  · rintro ⟨filled, counts⟩
    refine ⟨offers.trans offers'.symm, ?_, consumed.trans consumed'.symm, left.trans left'.symm,
      result_eq.trans ((length_eq_verdict_iff _ _ chunk).mpr counts), result_eq'⟩
    rw [offers, List.forall_mem_singleton]
    exact filled

/-- Both calls return while there is room. -/
theorem Paired.exists_onRead (paired : Paired pending plain chunk secured input)
    (fits : BothFit handler pending plain chunk secured record input) :
    (∃ result plain', Transmission.onRead handler chunk true plain = some (result, plain')) ∧
      ∃ result secured', TransmissionSecurity.onRead handler input record true secured =
        some (result, secured') := by
  have answer := fits.answer
  rw [← paired.collected] at answer
  obtain ⟨plain', execution⟩ := Transmission.exists_onRead_offers fits.collected answer
  exact ⟨⟨_, plain', execution⟩, TransmissionSecurity.exists_onRead paired.ready fits.secured⟩

end Pairing

/-- Whatever the handler returns from `OnData`, and whatever is pending: a finishing `OnRead` of the
plain transport and one of the encrypted transport treat the value alike exactly if something is
pending and the value is a count of the pending bytes.  Both calls return while there is room. -/
theorem onRead_alike_iff {η : Type} (handler : SocketHandler η) (pending : List UInt8)
    (plain : Socket (Transmission η)) (chunk : Chunk) (secured : Socket (TransmissionSecurity η))
    (record : Chunk) (input : TransmissionSecurity.TlsInput)
    (paired : Paired pending plain chunk secured input) :
    (∀ result plain' result' secured',
      Transmission.onRead handler chunk true plain = some (result, plain') →
      TransmissionSecurity.onRead handler input record true secured = some (result', secured') →
        (Alike pending (handler.onData pending plain.sub.handler).1 plain plain' chunk result
            secured secured' record result' ↔
          pending ≠ [] ∧ 0 ≤ (handler.onData pending plain.sub.handler).1 ∧
            (handler.onData pending plain.sub.handler).1 ≤ pending.length)) ∧
      (BothFit handler pending plain chunk secured record input →
        (∃ result plain', Transmission.onRead handler chunk true plain = some (result, plain')) ∧
          ∃ result secured', TransmissionSecurity.onRead handler input record true secured =
            some (result, secured')) :=
  ⟨fun _ _ _ _ execution execution' => paired.alike_iff execution execution',
    paired.exists_onRead⟩

namespace TransmissionSecurity

open Transmission (addedByCalls)

/-- A handler that reports a failure. -/
def failing : SocketHandler Unit where
  onConnect _ := ([], ())
  onDisconnect _ := ([], ())
  onData _ _ := (-1, [], ())
  onWrite _ := ([], ())

/-- The bytes of the flight without encryption. -/
def clearFlight : Chunk := ⟨[104, 105], by decide⟩

/-- One decrypted chunk, and then a library that waits. -/
def chunkThenWaits : TlsInput := chunkThen ⟨errSslWantRead, by decide⟩

/-- An encrypted socket that was set up. -/
def prepared : Socket (TransmissionSecurity Unit) := (setSecurityLicence setUp (construct ())).2

/-- Two fresh sockets receive the same two bytes. -/
theorem paired_clearFlight :
    Paired [104, 105] (Transmission.construct ()) clearFlight prepared chunkThenWaits where
  handler := rfl
  collected := rfl
  decrypted := rfl
  ready := rfl
  shaken := rfl
  waits := by
    change wants errSslWantRead = true
    decide

/-- There is room in fresh sockets when the handler sends nothing. -/
theorem bothFit_clearFlight (handler : SocketHandler Unit)
    (silent : (handler.onData [104, 105] ()).2.1 = []) :
    BothFit handler [104, 105] (Transmission.construct ()) clearFlight prepared flight
      chunkThenWaits where
  collected := by decide
  answer := by
    change 0 + (addedByCalls (handler.onData [104, 105] ()).2.1).length < 2 ^ 30
    rw [silent]
    decide
  secured :=
    { ciphertext := by decide
      plaintext := fun _ _ => by decide
      answer := by
        intro _ _ _
        change 0 + (addedByCalls (handler.onData [104, 105] ()).2.1).length < 2 ^ 30
        rw [silent]
        decide }

/-- A handler that takes both bytes. -/
theorem onRead_alike_iff_sink :
    ∃ result plain' result' secured',
      Transmission.onRead SocketHandler.sink clearFlight true (Transmission.construct ()) =
        some (result, plain') ∧
      onRead SocketHandler.sink chunkThenWaits flight true prepared = some (result', secured') ∧
      Alike [104, 105] 2 (Transmission.construct ()) plain' clearFlight result prepared secured'
        flight result' := by
  obtain ⟨alike, returns⟩ := onRead_alike_iff SocketHandler.sink [104, 105]
    (Transmission.construct ()) clearFlight prepared flight chunkThenWaits paired_clearFlight
  obtain ⟨⟨result, plain', execution⟩, result', secured', execution'⟩ :=
    returns (bothFit_clearFlight SocketHandler.sink rfl)
  exact ⟨result, plain', result', secured', execution, execution',
    (alike result plain' result' secured' execution execution').mpr (by decide)⟩

/-- A handler that reports a failure is not heard by the plain transport. -/
theorem failing_notAlike :
    ∃ plain' secured',
      Transmission.onRead failing clearFlight true (Transmission.construct ()) =
        some (2, plain') ∧
      onRead failing chunkThenWaits flight true prepared = some (-1, secured') ∧
      ¬Alike [104, 105] (-1) (Transmission.construct ()) plain' clearFlight 2 prepared secured'
        flight (-1) := by
  obtain ⟨⟨result, plain', execution⟩, result', secured', execution'⟩ :=
    paired_clearFlight.exists_onRead (bothFit_clearFlight failing rfl)
  obtain rfl : result = 2 :=
    (Transmission.onRead_answered paired_clearFlight.collected rfl execution).2.2
  obtain rfl : result' = -1 :=
    (onRead_answered rfl rfl paired_clearFlight.waits rfl rfl execution').2.2
  refine ⟨plain', secured', execution, execution', fun alike => ?_⟩
  obtain ⟨-, nonneg, -⟩ := (paired_clearFlight.alike_iff execution execution').mp alike
  exact absurd nonneg (by decide)

end TransmissionSecurity
end NetworkBase
