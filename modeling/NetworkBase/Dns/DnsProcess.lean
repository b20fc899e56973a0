import NetworkBase.Dns.DnsProtocol
import NetworkBase.Transport.ReadStream

/-!
# One resolution

`getAddrInfo` gives the engine a datagram socket whose handler, a `DnsProtocolProcess`, sends the
query when it is connected and closes the socket with the first answer.  Four places call
`OnResult`, and only the one in `OnDisconnect` looks at `on_result_` before.
-/

namespace NetworkBase

/-- A call of `OnResult`. -/
structure DnsResult where
  result : Int
  ip : List UInt8
  port : UInt16
  timeRemain : Nat
  deriving DecidableEq, Repr

/-- `DnsProtocolProcess`, with the calls of `OnResult` it made. -/
structure DnsProtocolProcess where
  init : Bool
  port : UInt16
  timeoutCheck : Bool
  onResult : Bool
  timeoutMs : Nat
  addr : List UInt8
  results : List DnsResult

namespace DnsProtocolProcess

/-- Size of the request buffer. -/
def kDnsRequestLen : Nat := 1024

/-- The time that is left for a connection after a late answer. -/
def kDnsTimeReserved : Nat := 1000

/-- `DnsProtocol::kDnsPort`. -/
def kDnsPort : UInt16 := 53

/-- The constructor. -/
def construct : DnsProtocolProcess where
  init := false
  port := 0
  timeoutCheck := false
  onResult := false
  timeoutMs := 0
  addr := []
  results := []

/-- `SetAddr`. -/
def setAddr (addr : List UInt8) (port : UInt16) (process : DnsProtocolProcess) :
    DnsProtocolProcess :=
  { process with addr, port }

/-- `SetSocket`; the socket is the one that owns the process. -/
def setSocket (process : DnsProtocolProcess) : DnsProtocolProcess := { process with init := true }

/-- `SetTimeout`, at the system time `now`. -/
def setTimeout (now timeoutMs : Nat) (process : DnsProtocolProcess) : DnsProtocolProcess :=
  if timeoutMs ≠ 0 then { process with timeoutCheck := true, timeoutMs := sizeAdd now timeoutMs }
  else { process with timeoutCheck := false }

/-- A call of `result_->OnResult`. -/
def report (result : DnsResult) (process : DnsProtocolProcess) : DnsProtocolProcess :=
  { process with results := process.results ++ [result] }

/-- The call that reports a failure. -/
def failure : DnsResult := { result := -1, ip := [], port := 0, timeRemain := 0 }

/-- `OnConnect`.  The index is a number of 32 bits. -/
def onConnect (process : DnsProtocolProcess) : List PublicCall × DnsProtocolProcess :=
  if ¬process.init then
    ([], process)
  else
    let buf := DnsProtocol.requestConstruct (process.addr.takeWhile (· ≠ 0))
    let index := buf.length % 2 ^ 32
    if index > 0 ∧ index < kDnsRequestLen then
      ([.send (.bytes (buf.take index))], process)
    else
      ([.close], report failure { process with onResult := true })

/-- `OnDisconnect`. -/
def onDisconnect (process : DnsProtocolProcess) : List PublicCall × DnsProtocolProcess :=
  if ¬process.onResult then ([], report failure process) else ([], process)

/-- The time that is left when an answer arrives at the system time `now`. -/
def timeRemain (now : Nat) (process : DnsProtocolProcess) : Nat :=
  if ¬process.timeoutCheck then 0
  else if sizeAdd now kDnsTimeReserved < process.timeoutMs then sizeSub process.timeoutMs now
  else kDnsTimeReserved

/-- `OnData`, at the system time `now`; `parse` is the value of `ResponseParse` and the address it
leaves behind. -/
def onData (parse : List UInt8 → Int × List UInt8) (now : Nat) (data : List UInt8)
    (process : DnsProtocolProcess) : Int × List PublicCall × DnsProtocolProcess :=
  if ¬process.init then
    (-1, [], process)
  else
    let (parsed, ip) := parse data
    let process := { process with onResult := true }
    if parsed = 0 then
      let timeRemain := process.timeRemain now
      (data.length, [.close], report { result := 0, ip, port := process.port, timeRemain } process)
    else
      (data.length, [.close], report failure process)

/-- The handler of a resolution.  The system time may be anything whenever it is asked for. -/
def handler (parse : List UInt8 → Int × List UInt8) (now : DnsProtocolProcess → Nat) :
    SocketHandler DnsProtocolProcess where
  onConnect := onConnect
  onDisconnect := onDisconnect
  onData data process := onData parse (now process) data process
  onWrite process := ([], process)

/-- `DnsService::getAddrInfo` up to the call of `Engine::Add`; the system time is asked for
twice. -/
def getAddrInfo (nameService addr : List UInt8) (port : UInt16) (timeoutMs now later : Nat) :
    Socket (Transmission DnsProtocolProcess) :=
  let process := ((construct.setAddr addr port).setSocket).setTimeout now timeoutMs
  let trans := Transmission.construct process
  ((trans.setProtocol 1).setIpPort nameService kDnsPort).connect later timeoutMs

/-! ## Exactly one result -/

/-- As many results as the flag says; once there is one, the socket is given up. -/
structure Resolving (socket : Socket (Transmission DnsProtocolProcess)) : Prop where
  ready : socket.sub.handler.init = true
  count : socket.sub.handler.results.length = if socket.sub.handler.onResult then 1 else 0
  closed : socket.sub.handler.onResult = true → socket.status = .disconnected

/-- A resolution that is connected, so it has no result yet. -/
def Waiting (socket : Socket (Transmission DnsProtocolProcess)) : Prop :=
  Resolving socket ∧ socket.status = .connected

/-- `OnConnect` sends the query, or reports a failure and closes. -/
theorem onConnect_cases {process : DnsProtocolProcess} (ready : process.init = true) :
    (∃ data, onConnect process = ([.send data], process)) ∨
      onConnect process = ([.close], report failure { process with onResult := true }) := by
  simp only [onConnect, if_neg (not_not.mpr ready)]
  split
  · exact .inl ⟨_, rfl⟩
  · exact .inr rfl

/-- `OnData` reports one result and closes. -/
theorem onData_spec {process : DnsProtocolProcess} (ready : process.init = true)
    (parse : List UInt8 → Int × List UInt8) (now : Nat) (data : List UInt8) :
    ∃ result, onData parse now data process =
      ((data.length : Int), [.close], report result { process with onResult := true }) := by
  simp only [onData, if_neg (not_not.mpr ready)]
  split
  · exact ⟨_, rfl⟩
  · exact ⟨_, rfl⟩

section Steps

variable {parse : List UInt8 → Int × List UInt8} {now : DnsProtocolProcess → Nat}
  {before after : Socket (Transmission DnsProtocolProcess)}

/-- A step that leaves the process and the status alone. -/
theorem Resolving.congr (resolving : Resolving before)
    (handler_eq : after.sub.handler = before.sub.handler)
    (status_eq : after.status = before.status) : Resolving after := by
  constructor
  · rw [handler_eq]
    exact resolving.ready
  · rw [handler_eq]
    exact resolving.count
  · rw [handler_eq, status_eq]
    exact resolving.closed

/-- A socket that is not given up has no result yet. -/
theorem Resolving.unreported (resolving : Resolving before)
    (alive : before.status ≠ .disconnected) : before.sub.handler.onResult = false := by
  by_contra reported
  exact alive (resolving.closed (Bool.eq_true_of_not_eq_false reported))

/-- Without a result the status may become anything. -/
theorem Resolving.move (resolving : Resolving before)
    (unreported : before.sub.handler.onResult = false) (sub_eq : after.sub = before.sub) :
    Resolving after := by
  constructor
  · rw [sub_eq]
    exact resolving.ready
  · rw [sub_eq]
    exact resolving.count
  · rw [sub_eq, unreported]
    intro reported
    exact absurd reported Bool.false_ne_true

theorem Resolving.disconnect (resolving : Resolving before) :
    Resolving (before.assign .disconnected) :=
  ⟨resolving.ready, resolving.count, fun _ => rfl⟩

/-- The first result, with which the socket is closed. -/
theorem Resolving.report (resolving : Resolving before)
    (unreported : before.sub.handler.onResult = false) (event : Event) (result : DnsResult) :
    Resolving (Transmission.setHandler
      (report result { before.sub.handler with onResult := true }) (before.emit event)).close := by
  refine ⟨resolving.ready, ?_, fun _ => rfl⟩
  have none_before : before.sub.handler.results.length = 0 := by
    rw [resolving.count, unreported]
    rfl
  change (before.sub.handler.results ++ [result]).length = 1
  rw [List.length_append, none_before]
  rfl

/-- The offer of an answer reports a result and closes the socket. -/
theorem resolving_readBufferPopData {offer : List UInt8} {value : Int}
    (waiting : Waiting before)
    (answer : Transmission.readBufferPopData (handler parse now) offer before =
      some (value, after)) : Resolving after := by
  obtain ⟨resolving, connected⟩ := waiting
  obtain ⟨-, calls⟩ := (Transmission.readBufferPopData_eq_some _).mp answer
  obtain ⟨result, told⟩ :=
    onData_spec resolving.ready parse (now before.sub.handler) offer
  have told' : (handler parse now).onData offer before.sub.handler =
      ((offer.length : Int), [.close],
        DnsProtocolProcess.report result { before.sub.handler with onResult := true }) := told
  rw [told'] at calls
  cases calls
  have alive : before.status ≠ .disconnected := by
    rw [connected]
    decide
  exact resolving.report (resolving.unreported alive) _ result

/-- The report of the connection sends the query or gives up. -/
theorem resolving_onConnect (resolving : Resolving before)
    (unreported : before.sub.handler.onResult = false)
    (execution : Transmission.onConnect (handler parse now) before = some after) :
    Resolving after := by
  have called : Socket.callBack Transmission.send (onConnect before.sub.handler).1
      (Transmission.setHandler (onConnect before.sub.handler).2 (before.emit .onConnect)) =
        some after := execution
  rcases onConnect_cases resolving.ready with ⟨data, told⟩ | told
  · rw [told, Socket.callBack, Option.bind_eq_bind, Option.bind_eq_some_iff] at called
    obtain ⟨⟨value, next⟩, sent, called⟩ := called
    obtain ⟨sendBuffer, -, rfl⟩ := Transmission.send_eq_some.mp sent
    cases called
    exact resolving.congr rfl rfl
  · rw [told] at called
    cases called
    exact resolving.report unreported _ _

/-- `OnWrite` sends what is queued, and the process has nothing to add. -/
theorem resolving_onWrite {kernel : WriteResult} {result : Int} (resolving : Resolving before)
    (execution : Transmission.onWrite (handler parse now) kernel before = some (result, after)) :
    Resolving after := by
  rcases Transmission.onWrite_cases execution with ⟨-, rfl⟩ | ⟨-, calls⟩
  · rcases Socket.rawSend_cases kernel (.bytes before.sub.sendBuffer.unread) before with
      same | shown
    · rw [same]
      exact resolving.congr rfl rfl
    · rw [shown]
      exact resolving.congr rfl rfl
  · cases calls
    exact resolving.congr rfl rfl

end Steps

/-- The loop of `RealRead` ends with the offer that reports a result. -/
theorem readKept_resolving (parse : List UInt8 → Int × List UInt8)
    (now : DnsProtocolProcess → Nat) :
    Socket.ReadKept (Transmission.socketClass (handler parse now)) Waiting Resolving where
  leave _ waiting := waiting.1
  disconnect _ resolving := resolving.disconnect
  barren _ _ waiting _ := ⟨waiting.1.congr rfl rfl, waiting.2⟩
  gather input chunk socket result after waiting execution := by
    obtain ⟨readBuffer, -, -, outcome⟩ := Transmission.onRead_eq_some execution
    rcases outcome with ⟨-, rfl⟩ | ⟨value, next, finished, -, -⟩
    · exact ⟨waiting.1.congr rfl rfl, waiting.2⟩
    · exact absurd finished Bool.false_ne_true
  offer input chunk socket result after waiting execution := by
    obtain ⟨readBuffer, -, -, outcome⟩ := Transmission.onRead_eq_some execution
    rcases outcome with ⟨unfinished, -⟩ | ⟨value, next, -, answer, rfl⟩
    · exact absurd unfinished Bool.true_eq_false_eq_False
    · have stored : Waiting (Transmission.setReadBuffer readBuffer
          (socket.emit (.kernelRead socket.fd (.got chunk)))) :=
        ⟨waiting.1.congr rfl rfl, waiting.2⟩
      exact (resolving_readBufferPopData stored answer).congr rfl rfl

/-- `RealWrite` reports a failure at most on the way to the connection. -/
theorem writeKept_resolving (parse : List UInt8 → Int × List UInt8)
    (now : DnsProtocolProcess → Nat) :
    Socket.WriteKept (Transmission.socketClass (handler parse now)) Resolving where
  disconnect _ resolving := resolving.disconnect
  onWrite input socket result after resolving execution := by
    have written : Transmission.onWrite (handler parse now) input socket = some (result, after) :=
      execution
    exact resolving_onWrite resolving written
  report socket after resolving connecting execution := by
    have alive : socket.status ≠ .disconnected := by
      rw [connecting]
      decide
    have unreported := resolving.unreported alive
    have moved : Resolving (socket.assign .connected) := resolving.move unreported rfl
    have told : Transmission.onConnect (handler parse now) (socket.assign .connected) =
        some after := execution
    exact resolving_onConnect moved unreported told

/-- The calls that `readThread` makes, with the statuses in which it makes them. -/
def Polled : Socket.Call WriteResult → Socket (Transmission DnsProtocolProcess) → Prop
  | .realConnect _, socket => socket.status = .startConnect ∨ socket.status = .connecting
  | .realRead _, _ => True
  | .realWrite _ _, _ => True
  | _, _ => False

theorem resolving_perform {parse : List UInt8 → Int × List UInt8} {now : DnsProtocolProcess → Nat}
    {call : Socket.Call WriteResult} {before after : Socket (Transmission DnsProtocolProcess)}
    (resolving : Resolving before) (polled : Polled call before)
    (execution : Socket.perform (Transmission.socketClass (handler parse now)) call before =
      some after) : Resolving after := by
  cases call with
  | realConnect kernel =>
      cases execution
      have alive : before.status ≠ .disconnected := by
        rcases polled with starting | connecting
        · rw [starting]
          decide
        · rw [connecting]
          decide
      exact resolving.move (resolving.unreported alive) (Socket.Bare.realConnect kernel before).1
  | realRead reads =>
      exact (readKept_resolving parse now).realRead execution resolving
        fun connected => ⟨resolving, connected⟩
  | realWrite soError kernel => exact (writeKept_resolving parse now).realWrite execution resolving
  | _ => exact absurd polled id

/-- The new pair has no result yet. -/
theorem resolving_getAddrInfo (nameService addr : List UInt8) (port : UInt16)
    (timeoutMs now later : Nat) :
    Resolving (getAddrInfo nameService addr port timeoutMs now later) := by
  have fresh : ∀ process : DnsProtocolProcess, process.init = true → process.onResult = false →
      process.results = [] → Resolving
        (((Transmission.construct process).setProtocol 1).setIpPort nameService kDnsPort) := by
    intro process ready unreported nothing
    refine ⟨ready, ?_, fun reported => absurd (unreported.symm.trans reported) Bool.false_ne_true⟩
    change process.results.length = if process.onResult then 1 else 0
    rw [nothing, unreported]
    rfl
  rw [getAddrInfo, setTimeout]
  split
  · exact (fresh _ rfl rfl rfl).move rfl (Socket.connect_frame later timeoutMs _).2
  · exact (fresh _ rfl rfl rfl).move rfl (Socket.connect_frame later timeoutMs _).2

/-- Whatever the kernel and the name server answer, and in whatever order the engine reads and
writes, one result was reported when `RealDisconnect` returns. -/
theorem resolution_reports_once (parse : List UInt8 → Int × List UInt8)
    (now : DnsProtocolProcess → Nat) (nameService addr : List UInt8) (port : UInt16)
    (timeoutMs first second : Nat) (calls : List (Socket.Call WriteResult))
    (polled : PartialRun.Guarded
      (Socket.perform (Transmission.socketClass (handler parse now))) Polled calls
      (getAddrInfo nameService addr port timeoutMs first second))
    (reached : Socket (Transmission DnsProtocolProcess))
    (execution : PartialRun.run (Socket.perform (Transmission.socketClass (handler parse now)))
      calls (getAddrInfo nameService addr port timeoutMs first second) = some reached) :
    ∃ final, Socket.realDisconnect (Transmission.socketClass (handler parse now)) reached =
        some final ∧ final.sub.handler.results.length = 1 := by
  have resolving : Resolving reached :=
    PartialRun.invariant_of_guarded Resolving
      (fun _ _ _ resolving polled step => resolving_perform resolving polled step) execution polled
      (resolving_getAddrInfo nameService addr port timeoutMs first second)
  obtain ⟨told, disconnected, reported⟩ : ∃ told,
      Transmission.onDisconnect (handler parse now) reached = some told ∧
        told.sub.handler.results.length = 1 := by
    have called : Transmission.onDisconnect (handler parse now) reached =
        Socket.callBack Transmission.send (onDisconnect reached.sub.handler).1
          (Transmission.setHandler (onDisconnect reached.sub.handler).2
            (reached.emit .onDisconnect)) := rfl
    have count := resolving.count
    by_cases before : reached.sub.handler.onResult = true
    · rw [if_pos before] at count
      rw [called, onDisconnect, if_neg (not_not.mpr before)]
      exact ⟨_, rfl, count⟩
    · rw [if_neg before] at count
      rw [called, onDisconnect, if_pos before]
      refine ⟨_, rfl, ?_⟩
      change (reached.sub.handler.results ++ [failure]).length = 1
      rw [List.length_append, count]
      rfl
  have disconnected' : (Transmission.socketClass (handler parse now)).onDisconnect reached =
      some told := disconnected
  rw [Socket.realDisconnect, disconnected', Option.bind_eq_bind, Option.bind_some]
  by_cases opened : told.fd ≠ 0
  · exact ⟨_, if_pos opened, reported⟩
  · exact ⟨_, if_neg opened, reported⟩

/-- `ResponseParse` on an offer with zeros behind it, given up after so many rounds of a loop. -/
def parseWithin (rounds : Nat) (data : List UInt8) : Int × List UInt8 :=
  (DnsProtocol.responseParse rounds (fun index => data.getD index 0) (UInt32.ofNat data.length)
    []).getD (-1, [])

/-- The name server 8.8.8.8 refuses the query for `a`. -/
def refusedCalls : List (Socket.Call WriteResult) :=
  [.realConnect Socket.obligingKernel, .realRead [], .realWrite .unreadable (.accepts 0)]

theorem resolution_reports_once_refusedCalls :
    ∃ reached, PartialRun.run (Socket.perform (Transmission.socketClass
        (handler (parseWithin 64) fun _ => 700))) refusedCalls
        (getAddrInfo [56, 46, 56, 46, 56, 46, 56] [97] 80 5000 100 101) = some reached ∧
      reached.status = .disconnected ∧
      ∃ final, Socket.realDisconnect (Transmission.socketClass
          (handler (parseWithin 64) fun _ => 700)) reached = some final ∧
        final.sub.handler.results.length = 1 := by
  refine ⟨_, rfl, rfl, resolution_reports_once (parseWithin 64) (fun _ => 700)
    [56, 46, 56, 46, 56, 46, 56] [97] 80 5000 100 101 refusedCalls
    ⟨.inl rfl, fun _ _ => ⟨trivial, fun _ _ => ⟨trivial, fun _ _ => trivial⟩⟩⟩ _ rfl⟩

end DnsProtocolProcess
end NetworkBase
