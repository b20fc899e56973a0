import NetworkBase.Dns.AddressText
import NetworkBase.Dns.DerailedWalk
import NetworkBase.Dns.Queries
import NetworkBase.Transport.SendStream

/-!
# What a resolution reports

A resolution offers its process at most one text: everything it received up to then.  The process
turns this text into its only result, and a resolution that never offers anything reports a failure.
With a name server that answers the query the result is the first address of the answer.
-/

namespace NetworkBase
namespace DnsProtocolProcess

open Transmission (receivedBy)

/-- The process of a new resolution; the system time was `first` when it was asked for. -/
def asking (addr : List UInt8) (port : UInt16) (timeoutMs first : Nat) : DnsProtocolProcess :=
  ((construct.setAddr addr port).setSocket).setTimeout first timeoutMs

/-- What is left at the time `moment` of a limit that was set at the time `first`. -/
def remaining (timeoutMs first moment : Nat) : Nat :=
  if timeoutMs = 0 then 0
  else if sizeAdd moment kDnsTimeReserved < sizeAdd first timeoutMs then
    sizeSub (sizeAdd first timeoutMs) moment
  else kDnsTimeReserved

/-- The result for an address found at the time `moment`. -/
def success (asked : DnsProtocolProcess) (moment : Nat) (ip : List UInt8) : DnsResult :=
  { result := 0, ip, port := asked.port, timeRemain := asked.timeRemain moment }

/-- The result for a text that was offered at the time `moment`. -/
def verdict (parse : List UInt8 → Int × List UInt8) (asked : DnsProtocolProcess) (moment : Nat)
    (data : List UInt8) : DnsResult :=
  if (parse data).1 = 0 then success asked moment (parse data).2 else failure

/-- What was reported is a failure without any offer, or the verdict on the only offer, which is all
that was received. -/
inductive Reported (parse : List UInt8 → Int × List UInt8) (asked : DnsProtocolProcess)
    (moment : Nat) (log : List Event) (results : List DnsResult) : Prop
  | failed (unoffered : log.flatMap offeredBy = []) (results_eq : results = [failure])
  | judged (offered : log.flatMap offeredBy = [log.flatMap receivedBy])
      (results_eq : results = [verdict parse asked moment (log.flatMap receivedBy)])

/-- A resolution between two calls: without a result the process is as it was asked, and everything
received still waits in `read_`. -/
structure Judging (parse : List UInt8 → Int × List UInt8) (now : DnsProtocolProcess → Nat)
    (asked : DnsProtocolProcess) (socket : Socket (Transmission DnsProtocolProcess)) : Prop where
  resolving : Resolving socket
  held : socket.sub.handler.onResult = false → socket.sub.handler = asked ∧
    socket.log.flatMap offeredBy = [] ∧
    socket.sub.readBuffer.unread = socket.log.flatMap receivedBy
  told : socket.sub.handler.onResult = true →
    Reported parse asked (now asked) socket.log socket.sub.handler.results

/-- Nothing is received and nothing is offered in the event. -/
def Mute (event : Event) : Prop := offeredBy event = [] ∧ receivedBy event = []

theorem mute_of_plain {event : Event} (plain : event.Plain) : Mute event := by
  cases event with
  | assigned status => exact ⟨rfl, rfl⟩
  | realConnect => exact ⟨rfl, rfl⟩
  | opened fd => exact ⟨rfl, rfl⟩
  | _ => exact absurd plain id

section Judged

variable {parse : List UInt8 → Int × List UInt8} {now : DnsProtocolProcess → Nat}
  {asked : DnsProtocolProcess} {moment : Nat}
  {before after : Socket (Transmission DnsProtocolProcess)}

theorem flatMap_of_mute (log : List Event) {shown : List Event}
    (mute : ∀ event ∈ shown, Mute event) :
    (log ++ shown).flatMap offeredBy = log.flatMap offeredBy ∧
      (log ++ shown).flatMap receivedBy = log.flatMap receivedBy := by
  have unoffered : shown.flatMap offeredBy = [] :=
    List.flatMap_eq_nil_iff.mpr fun event mem => (mute event mem).1
  have unreceived : shown.flatMap receivedBy = [] :=
    List.flatMap_eq_nil_iff.mpr fun event mem => (mute event mem).2
  rw [List.flatMap_append, List.flatMap_append, unoffered, unreceived, List.append_nil,
    List.append_nil]
  exact ⟨rfl, rfl⟩

/-- Mute events change nothing about what was reported. -/
theorem Reported.extend {log shown : List Event} {results : List DnsResult}
    (reported : Reported parse asked moment log results) (mute : ∀ event ∈ shown, Mute event) :
    Reported parse asked moment (log ++ shown) results := by
  obtain ⟨offered_eq, received_eq⟩ := flatMap_of_mute log mute
  rcases reported with ⟨unoffered, results_eq⟩ | ⟨offered, results_eq⟩
  · exact .failed (offered_eq.trans unoffered) results_eq
  · refine .judged ?_ ?_
    · rw [offered_eq, received_eq, offered]
    · rw [received_eq, results_eq]

/-- Mute events leave the books of a resolution alone. -/
theorem Judging.extend (judging : Judging parse now asked before) (resolving : Resolving after)
    (handler_eq : after.sub.handler = before.sub.handler)
    (unread_eq : after.sub.readBuffer.unread = before.sub.readBuffer.unread)
    {shown : List Event} (log_eq : after.log = before.log ++ shown)
    (mute : ∀ event ∈ shown, Mute event) : Judging parse now asked after := by
  obtain ⟨offered_eq, received_eq⟩ := flatMap_of_mute before.log mute
  refine ⟨resolving, ?_, ?_⟩
  · rw [handler_eq, log_eq, offered_eq, received_eq, unread_eq]
    exact judging.held
  · rw [handler_eq, log_eq]
    exact fun reported => (judging.told reported).extend mute

theorem Judging.emit (judging : Judging parse now asked before) {event : Event}
    (mute : Mute event) : Judging parse now asked (before.emit event) :=
  judging.extend (judging.resolving.congr rfl rfl) rfl rfl rfl
    fun _ mem => List.mem_singleton.mp mem ▸ mute

theorem Judging.disconnect (judging : Judging parse now asked before) :
    Judging parse now asked (before.assign .disconnected) :=
  judging.extend judging.resolving.disconnect rfl rfl rfl
    fun _ mem => List.mem_singleton.mp mem ▸ ⟨rfl, rfl⟩

/-- A failure before anything was offered. -/
theorem Judging.fail (judging : Judging parse now asked before)
    (unreported : before.sub.handler.onResult = false) {event : Event} (mute : Mute event) :
    Judging parse now asked (Transmission.setHandler
      (report failure { before.sub.handler with onResult := true }) (before.emit event)).close := by
  have shown : ∀ other ∈ [event, .assigned .disconnected], Mute other := by
    intro other mem
    rcases List.mem_cons.mp mem with rfl | later
    · exact mute
    · exact List.mem_singleton.mp later ▸ ⟨rfl, rfl⟩
  have log_eq : (Transmission.setHandler (report failure
      { before.sub.handler with onResult := true }) (before.emit event)).close.log =
        before.log ++ [event, .assigned .disconnected] := List.append_assoc _ _ _
  have results_eq : before.sub.handler.results = [] := by
    have count := judging.resolving.count
    rw [unreported] at count
    exact List.length_eq_zero_iff.mp count
  refine ⟨judging.resolving.report unreported event failure, fun fresh => ?_, fun _ => ?_⟩
  · cases fresh
  · rw [log_eq]
    refine .failed ?_ ?_
    · rw [(flatMap_of_mute _ shown).1]
      exact (judging.held unreported).2.1
    · change before.sub.handler.results ++ [failure] = [failure]
      rw [results_eq, List.nil_append]

/-- The process gives its verdict on a text. -/
theorem onData_eq_verdict (ready : asked.init = true) (moment : Nat) (data : List UInt8) :
    onData parse moment data asked = ((data.length : Int), [.close],
      report (verdict parse asked moment data) { asked with onResult := true }) := by
  simp only [onData, if_neg (not_not.mpr ready), verdict]
  split
  · rfl
  · rfl

/-- The first offer is everything that was received, and is judged. -/
theorem Judging.offer (judging : Judging parse now asked before)
    (connected : before.status = .connected) {value : Int}
    (answer : Transmission.readBufferPopData (handler parse now) before.sub.readBuffer.unread
      before = some (value, after)) (readBuffer : SoundBuffer) :
    Judging parse now asked (Transmission.setReadBuffer readBuffer after) := by
  have resolving := resolving_readBufferPopData ⟨judging.resolving, connected⟩ answer
  have unreported : before.sub.handler.onResult = false := by
    refine judging.resolving.unreported ?_
    rw [connected]
    decide
  obtain ⟨asks, unoffered, unread_eq⟩ := judging.held unreported
  obtain ⟨-, calls⟩ := (Transmission.readBufferPopData_eq_some _).mp answer
  have ready : asked.init = true := asks ▸ judging.resolving.ready
  have told : (handler parse now).onData before.sub.readBuffer.unread before.sub.handler =
      ((before.sub.readBuffer.unread.length : Int), [.close],
        report (verdict parse asked (now asked) before.sub.readBuffer.unread)
          { asked with onResult := true }) := by
    rw [asks]
    exact onData_eq_verdict ready _ _
  rw [told] at calls
  cases calls
  have results_eq : asked.results = [] := by
    have count := judging.resolving.count
    rw [unreported, asks] at count
    exact List.length_eq_zero_iff.mp count
  refine ⟨resolving.congr rfl rfl, fun fresh => ?_, fun _ => ?_⟩
  · cases fresh
  · rw [unread_eq]
    refine .judged ?_ ?_
    · simp [Transmission.setReadBuffer, Transmission.setHandler, Socket.close, unoffered, offeredBy,
        receivedBy]
    · change asked.results ++ [_] = _
      rw [results_eq, List.nil_append]
      simp [Transmission.setReadBuffer, Transmission.setHandler, Socket.close, receivedBy]

/-- The report of the connection sends the query or gives up. -/
theorem Judging.connect (judging : Judging parse now asked before)
    (unreported : before.sub.handler.onResult = false)
    (execution : Transmission.onConnect (handler parse now) before = some after) :
    Judging parse now asked after := by
  have resolving := resolving_onConnect judging.resolving unreported execution
  have called : Socket.callBack Transmission.send (onConnect before.sub.handler).1
      (Transmission.setHandler (onConnect before.sub.handler).2 (before.emit .onConnect)) =
        some after := execution
  rcases onConnect_cases judging.resolving.ready with ⟨data, told⟩ | told
  · rw [told, Socket.callBack, Option.bind_eq_bind, Option.bind_eq_some_iff] at called
    obtain ⟨⟨value, next⟩, sent, called⟩ := called
    obtain ⟨sendBuffer, -, rfl⟩ := Transmission.send_eq_some.mp sent
    cases called
    have told : Judging parse now asked (before.emit .onConnect) := judging.emit ⟨rfl, rfl⟩
    exact told.extend resolving rfl rfl rfl fun _ mem => List.mem_singleton.mp mem ▸ ⟨rfl, rfl⟩
  · rw [told] at called
    cases called
    exact judging.fail unreported ⟨rfl, rfl⟩

/-- `OnWrite` sends what is queued. -/
theorem Judging.write {kernel : WriteResult} {result : Int}
    (judging : Judging parse now asked before)
    (execution : Transmission.onWrite (handler parse now) kernel before = some (result, after)) :
    Judging parse now asked after := by
  have resolving := resolving_onWrite judging.resolving execution
  rcases Transmission.onWrite_cases execution with ⟨-, rfl⟩ | ⟨-, calls⟩
  · rcases Socket.rawSend_cases kernel (.bytes before.sub.sendBuffer.unread) before with
      same | shown
    · rw [same] at resolving ⊢
      exact judging.extend resolving rfl rfl (List.append_nil _).symm
        fun _ mem => absurd mem List.not_mem_nil
    · rw [shown] at resolving ⊢
      exact judging.extend resolving rfl rfl rfl
        fun _ mem => List.mem_singleton.mp mem ▸ ⟨rfl, rfl⟩
  · cases calls
    exact judging.extend resolving rfl rfl rfl
      fun _ mem => List.mem_singleton.mp mem ▸ ⟨rfl, rfl⟩

/-- A chunk is stored behind what is already held. -/
theorem Judging.stored {chunk : Chunk} {readBuffer : SoundBuffer}
    (judging : Judging parse now asked before) (connected : before.status = .connected)
    (unread_eq : readBuffer.unread = before.sub.readBuffer.unread ++ chunk.val) :
    Judging parse now asked (Transmission.setReadBuffer readBuffer
      (before.emit (.kernelRead before.fd (.got chunk)))) := by
  have unreported : before.sub.handler.onResult = false := by
    refine judging.resolving.unreported ?_
    rw [connected]
    decide
  obtain ⟨asks, unoffered, held⟩ := judging.held unreported
  refine ⟨judging.resolving.congr rfl rfl, fun _ => ⟨asks, ?_, ?_⟩, fun reported => ?_⟩
  · simp [Transmission.setReadBuffer, unoffered, offeredBy]
  · simp [Transmission.setReadBuffer, unread_eq, held, receivedBy]
  · exact absurd (unreported.symm.trans reported) Bool.false_ne_true

end Judged

/-- The loop of `RealRead` ends with the offer. -/
theorem readKept_judging (parse : List UInt8 → Int × List UInt8) (now : DnsProtocolProcess → Nat)
    (asked : DnsProtocolProcess) :
    Socket.ReadKept (Transmission.socketClass (handler parse now))
      (fun socket => Judging parse now asked socket ∧ socket.status = .connected)
      (Judging parse now asked) where
  leave _ judging := judging.1
  disconnect _ judging := judging.disconnect
  barren _ result judging empty := by
    refine ⟨judging.1.emit ⟨rfl, ?_⟩, judging.2⟩
    cases result with
    | failed errno => rfl
    | got chunk => exact empty
  gather input chunk socket result after judging execution := by
    obtain ⟨readBuffer, unread_eq, -, outcome⟩ := Transmission.onRead_eq_some execution
    rcases outcome with ⟨-, rfl⟩ | ⟨value, next, finished, -, -⟩
    · exact ⟨judging.1.stored judging.2 unread_eq, judging.2⟩
    · exact absurd finished Bool.false_ne_true
  offer input chunk socket result after judging execution := by
    obtain ⟨readBuffer, unread_eq, -, outcome⟩ := Transmission.onRead_eq_some execution
    rcases outcome with ⟨unfinished, -⟩ | ⟨value, next, -, answer, rfl⟩
    · exact absurd unfinished Bool.true_eq_false_eq_False
    · exact (judging.1.stored judging.2 unread_eq).offer judging.2 answer _

/-- `RealWrite` reports a failure at most. -/
theorem writeKept_judging (parse : List UInt8 → Int × List UInt8) (now : DnsProtocolProcess → Nat)
    (asked : DnsProtocolProcess) :
    Socket.WriteKept (Transmission.socketClass (handler parse now)) (Judging parse now asked) where
  disconnect _ judging := judging.disconnect
  onWrite input socket result after judging execution := by
    have written : Transmission.onWrite (handler parse now) input socket = some (result, after) :=
      execution
    exact judging.write written
  report socket after judging connecting execution := by
    have unreported : socket.sub.handler.onResult = false := by
      refine judging.resolving.unreported ?_
      rw [connecting]
      decide
    have moved : Judging parse now asked (socket.assign .connected) :=
      judging.extend (judging.resolving.move unreported rfl) rfl rfl rfl
        fun _ mem => List.mem_singleton.mp mem ▸ ⟨rfl, rfl⟩
    have told : Transmission.onConnect (handler parse now) (socket.assign .connected) =
        some after := execution
    exact moved.connect unreported told

theorem Judging.perform {parse : List UInt8 → Int × List UInt8} {now : DnsProtocolProcess → Nat}
    {asked : DnsProtocolProcess} {call : Socket.Call WriteResult}
    {before after : Socket (Transmission DnsProtocolProcess)}
    (judging : Judging parse now asked before)
    (polled : Polled call before)
    (execution : Socket.perform (Transmission.socketClass (handler parse now)) call before =
      some after) : Judging parse now asked after := by
  have resolving := resolving_perform judging.resolving polled execution
  cases call with
  | realConnect kernel =>
      cases execution
      obtain ⟨sub_eq, shown, log_eq, plain⟩ := Socket.Bare.realConnect kernel before
      exact judging.extend resolving (by rw [sub_eq]) (by rw [sub_eq]) log_eq
        fun event mem => mute_of_plain (plain event mem)
  | realRead reads =>
      exact (readKept_judging parse now asked).realRead execution judging
        fun connected => ⟨judging, connected⟩
  | realWrite soError kernel =>
      exact (writeKept_judging parse now asked).realWrite execution judging
  | _ => exact absurd polled id

/-- The process of a new pair asks for the address and has reported nothing. -/
theorem handler_getAddrInfo (nameService addr : List UInt8) (port : UInt16)
    (timeoutMs first second : Nat) :
    (getAddrInfo nameService addr port timeoutMs first second).sub.handler =
      asking addr port timeoutMs first := by
  rw [getAddrInfo, (Socket.connect_frame second timeoutMs _).2]
  rfl

/-- A new process is ready and asks for the address and the port. -/
theorem asking_spec (addr : List UInt8) (port : UInt16) (timeoutMs first : Nat) :
    (asking addr port timeoutMs first).init = true ∧
      (asking addr port timeoutMs first).onResult = false ∧
      (asking addr port timeoutMs first).addr = addr ∧
      (asking addr port timeoutMs first).port = port := by
  rw [asking, setTimeout]
  split
  · exact ⟨rfl, rfl, rfl, rfl⟩
  · exact ⟨rfl, rfl, rfl, rfl⟩

/-- The new pair has received nothing. -/
theorem judging_getAddrInfo (parse : List UInt8 → Int × List UInt8)
    (now : DnsProtocolProcess → Nat) (nameService addr : List UInt8) (port : UInt16)
    (timeoutMs first second : Nat) :
    Judging parse now (asking addr port timeoutMs first)
      (getAddrInfo nameService addr port timeoutMs first second) := by
  have handler_eq := handler_getAddrInfo nameService addr port timeoutMs first second
  obtain ⟨-, unreported, -, -⟩ := asking_spec addr port timeoutMs first
  obtain ⟨sub_eq, shown, log_eq, plain⟩ := Socket.Bare.connect second timeoutMs
    (((Transmission.construct (asking addr port timeoutMs first)).setProtocol 1).setIpPort
      nameService kDnsPort)
  obtain ⟨unoffered, unreceived⟩ := flatMap_of_mute []
    fun event mem => mute_of_plain (plain event mem)
  refine ⟨resolving_getAddrInfo nameService addr port timeoutMs first second,
    fun _ => ⟨handler_eq, ?_, ?_⟩, fun reported => ?_⟩
  · exact (congrArg _ log_eq).trans unoffered
  · refine Eq.trans ?_ ((congrArg _ log_eq).trans unreceived).symm
    exact (congrArg (fun sub => sub.readBuffer.unread) sub_eq).trans
      (SoundBuffer.construct_unread _)
  · rw [handler_eq, unreported] at reported
    cases reported

/-! ## The report -/

/-- `RealDisconnect` reports a failure if nothing was reported before. -/
theorem Judging.reported {parse : List UInt8 → Int × List UInt8} {now : DnsProtocolProcess → Nat}
    {asked : DnsProtocolProcess} {before after : Socket (Transmission DnsProtocolProcess)}
    (judging : Judging parse now asked before)
    (execution : Socket.realDisconnect (Transmission.socketClass (handler parse now)) before =
      some after) : Reported parse asked (now asked) after.log after.sub.handler.results := by
  rw [Socket.realDisconnect, Option.bind_eq_bind, Option.bind_eq_some_iff] at execution
  obtain ⟨middle, disconnected, execution⟩ := execution
  have called : Socket.callBack Transmission.send (onDisconnect before.sub.handler).1
      (Transmission.setHandler (onDisconnect before.sub.handler).2 (before.emit .onDisconnect)) =
        some middle := disconnected
  have told : Reported parse asked (now asked) middle.log middle.sub.handler.results := by
    have mute : ∀ event ∈ [Event.onDisconnect], Mute event :=
      fun _ mem => List.mem_singleton.mp mem ▸ ⟨rfl, rfl⟩
    rw [onDisconnect] at called
    split at called
    · rename_i unreported
      have unreported : before.sub.handler.onResult = false :=
        Bool.eq_false_of_not_eq_true unreported
      cases called
      have count := judging.resolving.count
      rw [unreported] at count
      refine .failed ?_ ?_
      · exact (flatMap_of_mute _ mute).1.trans (judging.held unreported).2.1
      · change before.sub.handler.results ++ [failure] = [failure]
        rw [List.length_eq_zero_iff.mp count, List.nil_append]
    · rename_i reported
      cases called
      exact (judging.told (not_not.mp reported)).extend mute
  split at execution
  · cases execution
    exact told.extend fun _ mem => List.mem_singleton.mp mem ▸ ⟨rfl, rfl⟩
  · cases execution
    exact told

/-- The process computes what is left of its limit. -/
theorem timeRemain_asking (addr : List UInt8) (port : UInt16) (timeoutMs first moment : Nat) :
    (asking addr port timeoutMs first).timeRemain moment = remaining timeoutMs first moment := by
  by_cases unlimited : timeoutMs = 0
  · rw [remaining, if_pos unlimited, asking, setTimeout, if_neg (not_not.mpr unlimited)]
    rfl
  · rw [remaining, if_neg unlimited, asking, setTimeout, if_pos unlimited]
    rfl

/-- Where no sum wraps around, a limit leaves the rest of it, but at least a second. -/
theorem remaining_eq_max {timeoutMs first moment : Nat} (limited : timeoutMs ≠ 0)
    (fits : first + timeoutMs < 2 ^ 64) (later : moment + kDnsTimeReserved < 2 ^ 64) :
    remaining timeoutMs first moment = max (first + timeoutMs - moment) kDnsTimeReserved := by
  rw [remaining, if_neg limited, sizeAdd_of_lt fits, sizeAdd_of_lt later]
  split
  · rw [sizeSub_of_le (by omega) fits]
    omega
  · omega

/-- Whatever the kernel and the name server answer, and in whatever order the engine reads and
writes, at most one text was offered when `RealDisconnect` returns, and this text is everything that
was received.  The only result is a failure if nothing was offered or `ResponseParse` rejects the
text; otherwise it is the address that `ResponseParse` found, with the port asked for, and with what
is left of the limit at the system time of the offer: the rest, but at least a second, unless a sum
wraps around. -/
theorem resolution_reports_verdict (parse : List UInt8 → Int × List UInt8)
    (now : DnsProtocolProcess → Nat) (nameService addr : List UInt8) (port : UInt16)
    (timeoutMs first second : Nat) (calls : List (Socket.Call WriteResult))
    (polled : PartialRun.Guarded
      (Socket.perform (Transmission.socketClass (handler parse now))) Polled calls
      (getAddrInfo nameService addr port timeoutMs first second))
    (reached final : Socket (Transmission DnsProtocolProcess))
    (execution : PartialRun.run (Socket.perform (Transmission.socketClass (handler parse now)))
      calls (getAddrInfo nameService addr port timeoutMs first second) = some reached)
    (ended : Socket.realDisconnect (Transmission.socketClass (handler parse now)) reached =
      some final) :
    ((final.log.flatMap offeredBy = [] ∧ final.sub.handler.results = [failure]) ∨
      final.log.flatMap offeredBy = [final.log.flatMap receivedBy] ∧
        final.sub.handler.results =
          if (parse (final.log.flatMap receivedBy)).1 = 0 then
            [{ result := 0, ip := (parse (final.log.flatMap receivedBy)).2, port,
               timeRemain :=
                 remaining timeoutMs first (now (asking addr port timeoutMs first)) }]
          else [failure]) ∧
      (timeoutMs ≠ 0 → first + timeoutMs < 2 ^ 64 →
        now (asking addr port timeoutMs first) + kDnsTimeReserved < 2 ^ 64 →
        remaining timeoutMs first (now (asking addr port timeoutMs first)) =
          max (first + timeoutMs - now (asking addr port timeoutMs first)) kDnsTimeReserved) := by
  have judging : Judging parse now (asking addr port timeoutMs first) reached :=
    PartialRun.invariant_of_guarded (Judging parse now _)
      (fun _ _ _ judging polled step => judging.perform polled step) execution polled
      (judging_getAddrInfo parse now nameService addr port timeoutMs first second)
  obtain ⟨-, -, -, port_eq⟩ := asking_spec addr port timeoutMs first
  refine ⟨?_, remaining_eq_max⟩
  rcases judging.reported ended with ⟨unoffered, results_eq⟩ | ⟨offered, results_eq⟩
  · exact .inl ⟨unoffered, results_eq⟩
  · refine .inr ⟨offered, ?_⟩
    rw [results_eq, verdict, success, timeRemain_asking, port_eq]
    split
    · rfl
    · rfl

/-! ## A resolution that succeeds -/

section Succeeds

variable (parse : List UInt8 → Int × List UInt8) (now : DnsProtocolProcess → Nat)

end Succeeds

/-- The name `b`. -/
def shortName : DnsProtocol.DomainName := DnsProtocol.nameOfByte 98 (by decide)

/-- The answer 1.2.3.4 to a query for `b`. -/
def shortAnswer : DnsProtocol.Response where
  header := [0x66, 0x66, 0x81, 0x80, 0, 1, 0, 1, 0, 0, 0, 0]
  question := shortName
  records := [DnsProtocol.plainAddress]
  header_length := rfl
  nonempty := List.cons_ne_nil _ _
  fits := by decide

/-- The name server 8.8.8.8 answers the query for `b`. -/
def answeredCalls : List (Socket.Call WriteResult) :=
  [.realConnect Socket.obligingKernel, .realWrite .clear (.accepts 512),
    .realRead [(.got ⟨shortAnswer.packet, by decide⟩, .accepts 0)]]

theorem resolution_reports_verdict_answeredCalls :
    ∃ reached final, PartialRun.run (Socket.perform (Transmission.socketClass
        (handler (parseWithin 64) fun _ => 700))) answeredCalls
        (getAddrInfo [56, 46, 56, 46, 56, 46, 56] shortName.text 80 5000 100 101) =
          some reached ∧
      Socket.realDisconnect (Transmission.socketClass (handler (parseWithin 64) fun _ => 700))
        reached = some final ∧
      final.log.flatMap offeredBy = [shortAnswer.packet] ∧
      final.sub.handler.results =
        [{ result := 0, ip := DnsProtocol.dotted [1, 2, 3, 4], port := 80,
           timeRemain := 4400 }] := by
  have shown : ((PartialRun.run (Socket.perform (Transmission.socketClass
      (handler (parseWithin 64) fun _ => 700))) answeredCalls
      (getAddrInfo [56, 46, 56, 46, 56, 46, 56] shortName.text 80 5000 100 101)).bind
        (Socket.realDisconnect (Transmission.socketClass
          (handler (parseWithin 64) fun _ => 700)))).map
        (fun final => (final.log.flatMap offeredBy, final.log.flatMap receivedBy)) =
      some ([shortAnswer.packet], shortAnswer.packet) := by
    decide +kernel
  have parsed : parseWithin 64 shortAnswer.packet = (0, DnsProtocol.dotted [1, 2, 3, 4]) := by
    decide +kernel
  obtain ⟨final, finished, logs⟩ := Option.map_eq_some_iff.mp shown
  obtain ⟨reached, execution, ended⟩ := Option.bind_eq_some_iff.mp finished
  obtain ⟨offered, received⟩ := Prod.mk.inj logs
  obtain ⟨⟨unoffered, -⟩ | ⟨-, results_eq⟩, -⟩ := resolution_reports_verdict (parseWithin 64)
    (fun _ => 700) [56, 46, 56, 46, 56, 46, 56] shortName.text 80 5000 100 101 answeredCalls
    ⟨.inl rfl, fun _ _ => ⟨trivial, fun _ _ => ⟨trivial, fun _ _ => trivial⟩⟩⟩ reached final
    execution ended
  · rw [offered] at unoffered
    cases unoffered
  · rw [received, parsed, if_pos rfl] at results_eq
    exact ⟨reached, final, execution, ended, offered, results_eq⟩

end DnsProtocolProcess
end NetworkBase
