import NetworkBase.ConnectorSocket
import NetworkBase.Dns.DnsService
import NetworkBase.Engine.WakeUp

/-!
# The connector

The interface of the library: it owns an engine and a resolver service, and its users name their
sockets by the numbers of the engine.  A connect to a name is handed to the service, whose answer
comes back through a `ConnectorDns`.  All members are static, so there is one connector.  A call
that falls into a round of the worker is among the actions of the other threads in that round.
-/

namespace NetworkBase

/-- `Connector`, with the calls of `OnResult` its resolutions made. -/
structure Connector (η τ : Type) where
  init : Bool
  engine : Option (Engine (ConnectorSocket η) τ)
  dns : Option DnsService
  reports : List (ConnectorDns × DnsResult)

namespace Connector

variable {η ι τ : Type}

/-- The static members before the first call. -/
def construct : Connector η τ where
  init := false
  engine := none
  dns := none
  reports := []

/-- `Start`, around the value of the engine's own `Start`. -/
def start (started : Int) (io : τ) (heap : SocketPtr → Socket (ConnectorSocket η))
    (file : Option ResolvConf) (connector : Connector η τ) : Int × Connector η τ :=
  if connector.init then
    (0, connector)
  else if started < 0 then
    (-1, { connector with engine := none })
  else
    (0, { connector with
      init := true
      engine := some (.construct io heap)
      dns := some (DnsService.construct.start file) })

/-- `Stop`, which gives up the engine and the service. -/
def stop (connector : Connector η τ) : Connector η τ :=
  if ¬connector.init then connector
  else { connector with init := false, engine := none, dns := none }

/-- A new socket for a handler, a secured one where a certificate is given. -/
def newSocket (handler : η) (ca : CharSpan) (answers : TransmissionSecurity.SetupAnswers) :
    Socket (ConnectorSocket η) :=
  if ca.nonEmpty then
    (TransmissionSecurity.setSecurityLicence answers
      (TransmissionSecurity.construct handler)).2.placed .security
  else
    (Transmission.construct handler).placed .transmission

/-- `Create`, at the object the allocator hands out; -1 is the largest `size_t`. -/
def create (handler : η) (protocol : Int) (ca : CharSpan)
    (answers : TransmissionSecurity.SetupAnswers) (socket : SocketPtr) (wake : WriteResult)
    (connector : Connector η τ) : Option (Nat × Connector η τ) :=
  if ¬connector.init then
    some (2 ^ 64 - 1, connector)
  else do
    let engine ← connector.engine
    let object := (newSocket handler ca answers).setProtocol protocol
    let (fd, engine) := (engine.store socket object).add .other socket wake
    some (fd, { connector with engine := some engine })

/-- Look a socket up and apply a method to it. -/
def withSocket (thread : ThreadId) (id : Nat)
    (method : Socket (ConnectorSocket η) → Option (Socket (ConnectorSocket η)))
    (connector : Connector η τ) : Option (Connector η τ) := do
  let engine ← connector.engine
  match engine.query thread id with
  | (none, engine) => some { connector with engine := some engine }
  | (some socket, engine) =>
      let next ← method (engine.heap socket)
      some { connector with engine := some (engine.store socket next) }

/-- `connectIp`, at the system time `now`. -/
def connectIp (thread : ThreadId) (id : Nat) (addr : List UInt8) (port : UInt16)
    (now timeoutMs : Nat) (connector : Connector η τ) : Option (Connector η τ) :=
  if SocketAssistant.ipValid addr then
    connector.withSocket thread id fun socket =>
      some ((socket.setIpPort addr port).connect now timeoutMs)
  else
    some connector

/-- `Connect`. -/
def connect (id : Nat) (addr : List UInt8) (port : UInt16) (timeoutMs : Nat) (input : ResolveInput)
    (connector : Connector η τ) : Option (Connector η τ) :=
  if ¬connector.init then
    some connector
  else if SocketAssistant.ipValid addr then
    connector.withSocket .other id fun socket =>
      some ((socket.setIpPort addr port).connect input.now timeoutMs)
  else do
    let service ← connector.dns
    let engine ← connector.engine
    let engine ←
      service.getAddrInfo (ConnectorSocket.resolution ⟨id⟩) addr port timeoutMs input engine
    some { connector with engine := some engine }

/-- `Close`. -/
def close (thread : ThreadId) (id : Nat) (connector : Connector η τ) : Option (Connector η τ) :=
  if ¬connector.init then some connector
  else connector.withSocket thread id fun socket => some socket.close

/-- `Send`, without its value. -/
def send (cls : SocketClass (ConnectorSocket η) ι) (id : Nat) (data : CharSpan)
    (connector : Connector η τ) : Option (Connector η τ) :=
  if ¬connector.init then some connector
  else connector.withSocket .other id fun socket => (cls.send data socket).map Prod.snd

/-- `ConnectorDns::OnResult`, which the worker calls at the system time `now`. -/
def onResult (now : Nat) (dns : ConnectorDns) (result : DnsResult) (connector : Connector η τ) :
    Option (Connector η τ) :=
  let connector := { connector with reports := connector.reports ++ [(dns, result)] }
  if result.result ≠ 0 then connector.close .worker dns.connector
  else connector.connectIp .worker dns.connector result.ip result.port now result.timeRemain

/-- What happens to the connector: the calls of its users, what the threads do with its engine, and
the answers of resolutions. -/
inductive Call (η ι τ : Type)
  | start (started : Int) (io : τ) (heap : SocketPtr → Socket (ConnectorSocket η))
      (file : Option ResolvConf)
  | stop
  | create (handler : η) (protocol : Int) (ca : CharSpan)
      (answers : TransmissionSecurity.SetupAnswers) (socket : SocketPtr) (wake : WriteResult)
  | connect (id : Nat) (addr : List UInt8) (port : UInt16) (timeoutMs : Nat) (input : ResolveInput)
  | close (id : Nat)
  | send (id : Nat) (data : CharSpan)
  | engine (env : Environment ι) (call : Engine.ThreadCall)
  | onResult (now : Nat) (dns : ConnectorDns) (result : DnsResult)

/-- One of these steps. -/
def perform (cls : SocketClass (ConnectorSocket η) ι) (mux : IoMultiplexing τ) :
    Call η ι τ → Connector η τ → Option (Connector η τ)
  | .start started io heap file, connector => some (connector.start started io heap file).2
  | .stop, connector => some connector.stop
  | .create handler protocol ca answers socket wake, connector =>
      (connector.create handler protocol ca answers socket wake).map Prod.snd
  | .connect id addr port timeoutMs input, connector =>
      connector.connect id addr port timeoutMs input
  | .close id, connector => connector.close .other id
  | .send id data, connector => connector.send cls id data
  | .engine env call, connector => do
      let engine ← connector.engine
      let engine ← call.perform cls mux env engine
      some { connector with engine := some engine }
  | .onResult now dns result, connector => connector.onResult now dns result

/-! ## Connecting by name -/

/-- One resolution that starts to connect was handed to the engine for this socket. -/
def HandsOver (before after : Connector η τ) (id : Nat) : Prop :=
  ∃ engine next events fd socket members, before.engine = some engine ∧
    after.engine = some next ∧ next.trace = engine.trace ++ events ∧
    Engine.admitted events = [(fd, socket)] ∧ (next.heap socket).status = .startConnect ∧
    (next.heap socket).sub = .resolution ⟨id⟩ members

/-- One failure was reported for this socket. -/
def ReportsFailure (before after : Connector η τ) (id : Nat) : Prop :=
  ∃ result, result.result = -1 ∧ after.reports = before.reports ++ [(⟨id⟩, result)]

/-- A connect was not dropped. -/
def TakenOn (before after : Connector η τ) (id : Nat) : Prop :=
  HandsOver before after id ∨ ReportsFailure before after id

/-- A running connector has its engine and a service that is not initialized. -/
def Deaf (connector : Connector η τ) : Prop :=
  connector.init = true →
    (∃ engine, connector.engine = some engine) ∧
      ∃ service, connector.dns = some service ∧ service.init = false

namespace Deaf

variable {before after : Connector η τ}

/-- A step on the engine of the connector. -/
theorem setEngine (deaf : Deaf before) (engine : Engine (ConnectorSocket η) τ)
    (reports : List (ConnectorDns × DnsResult)) :
    Deaf { before with engine := some engine, reports } :=
  fun running => ⟨⟨engine, rfl⟩, (deaf running).2⟩

theorem withSocket {thread : ThreadId} {id : Nat}
    {method : Socket (ConnectorSocket η) → Option (Socket (ConnectorSocket η))} (deaf : Deaf before)
    (execution : before.withSocket thread id method = some after) : Deaf after := by
  rw [Connector.withSocket, Option.bind_eq_bind, Option.bind_eq_some_iff] at execution
  obtain ⟨engine, -, execution⟩ := execution
  split at execution
  · cases execution
    exact deaf.setEngine _ _
  · rw [Option.bind_eq_bind, Option.bind_eq_some_iff] at execution
    obtain ⟨next, -, execution⟩ := execution
    cases execution
    exact deaf.setEngine _ _

theorem close {thread : ThreadId} {id : Nat} (deaf : Deaf before)
    (execution : before.close thread id = some after) : Deaf after := by
  rw [Connector.close] at execution
  split at execution
  · cases execution
    exact deaf
  · exact deaf.withSocket execution

theorem connectIp {thread : ThreadId} {id : Nat} {addr : List UInt8} {port : UInt16}
    {now timeoutMs : Nat} (deaf : Deaf before)
    (execution : before.connectIp thread id addr port now timeoutMs = some after) : Deaf after := by
  rw [Connector.connectIp] at execution
  split at execution
  · exact deaf.withSocket execution
  · cases execution
    exact deaf

/-- No step initializes the service. -/
theorem perform {cls : SocketClass (ConnectorSocket η) ι} {mux : IoMultiplexing τ}
    {call : Call η ι τ} (deaf : Deaf before)
    (execution : perform cls mux call before = some after) : Deaf after := by
  cases call with
  | start started io heap file =>
      cases execution
      rw [Connector.start]
      split
      · exact deaf
      · rename_i stopped
        split
        · exact fun running => absurd running stopped
        · exact fun _ => ⟨⟨_, rfl⟩, _, rfl, DnsService.init_start file .construct⟩
  | stop =>
      cases execution
      rw [Connector.stop]
      split
      · exact deaf
      · exact fun running => absurd running Bool.false_ne_true
  | create handler protocol ca answers socket wake =>
      rw [Connector.perform, Option.map_eq_some_iff] at execution
      obtain ⟨⟨fd, next⟩, created, rfl⟩ := execution
      rw [Connector.create] at created
      split at created
      · cases created
        exact deaf
      · rw [Option.bind_eq_bind, Option.bind_eq_some_iff] at created
        obtain ⟨engine, -, created⟩ := created
        cases created
        exact deaf.setEngine _ _
  | connect id addr port timeoutMs input =>
      rw [Connector.perform, Connector.connect] at execution
      split at execution
      · cases execution
        exact deaf
      split at execution
      · exact deaf.withSocket execution
      · simp only [Option.bind_eq_bind, Option.bind_eq_some_iff] at execution
        obtain ⟨service, -, engine, -, next, -, execution⟩ := execution
        cases execution
        exact deaf.setEngine _ _
  | close id => exact deaf.close execution
  | send id data =>
      rw [Connector.perform, Connector.send] at execution
      split at execution
      · cases execution
        exact deaf
      · exact deaf.withSocket execution
  | engine env call =>
      simp only [Connector.perform, Option.bind_eq_bind, Option.bind_eq_some_iff] at execution
      obtain ⟨engine, -, next, -, execution⟩ := execution
      cases execution
      exact deaf.setEngine _ _
  | onResult now dns result =>
      have reported : Deaf { before with reports := before.reports ++ [(dns, result)] } := deaf
      rw [Connector.perform, Connector.onResult] at execution
      split at execution
      · exact reported.close execution
      · exact reported.connectIp execution

end Deaf

/-- Nothing entered `sockets_`, and nothing was reported. -/
theorem not_takenOn {before after : Connector η τ} {engine next : Engine (ConnectorSocket η) τ}
    {events : List EngineEvent} (id : Nat) (before_eq : before.engine = some engine)
    (after_eq : after.engine = some next) (trace_eq : next.trace = engine.trace ++ events)
    (none_admitted : Engine.admitted events = []) (reports_eq : after.reports = before.reports) :
    ¬TakenOn before after id := by
  rintro (handed | reported)
  · obtain ⟨engine', next', events', fd, socket, -, before_eq', after_eq', trace_eq', admitted_eq,
      -⟩ := handed
    obtain rfl := Option.some.inj (before_eq.symm.trans before_eq')
    obtain rfl := Option.some.inj (after_eq.symm.trans after_eq')
    obtain rfl := List.append_cancel_left (trace_eq.symm.trans trace_eq')
    exact List.cons_ne_nil _ _ (admitted_eq.symm.trans none_admitted)
  · obtain ⟨result, -, reports_eq'⟩ := reported
    have grown := congrArg List.length (reports_eq.symm.trans reports_eq')
    rw [List.length_append, List.length_singleton] at grown
    exact (Nat.succ_ne_self _ grown.symm)

/-- Looking a socket up takes the mutex and does nothing else to the engine. -/
theorem trace_query {σ : Type} (thread : ThreadId) (id : Nat) (engine : Engine σ τ) :
    (engine.query thread id).2.trace = engine.trace ++ [.lock thread, .unlock thread] := by
  rw [Engine.snd_query]
  exact List.append_assoc _ _ _

/-- A method that is applied to one socket takes nothing on. -/
theorem withSocket_drops {thread : ThreadId} {id : Nat}
    (method : Socket (ConnectorSocket η) → Socket (ConnectorSocket η)) {connector : Connector η τ}
    {engine : Engine (ConnectorSocket η) τ} (engine_eq : connector.engine = some engine) :
    ∃ after, connector.withSocket thread id (fun socket => some (method socket)) = some after ∧
      ¬TakenOn connector after id := by
  have trace_eq := trace_query thread id engine
  rw [withSocket, engine_eq, Option.bind_eq_bind, Option.bind_some]
  split
  · rename_i queried answer
    rw [answer] at trace_eq
    exact ⟨_, rfl, not_takenOn id engine_eq rfl trace_eq rfl rfl⟩
  · rename_i socket queried answer
    rw [answer] at trace_eq
    exact ⟨_, rfl, not_takenOn id engine_eq rfl trace_eq rfl rfl⟩

/-- However the connector came to run, a connect is not taken on; with a name it changes nothing at
all, so the socket waits for an address for ever. -/
theorem connect_not_takenOn (cls : SocketClass (ConnectorSocket η) ι) (mux : IoMultiplexing τ)
    (calls : List (Call η ι τ)) (connector : Connector η τ)
    (execution : PartialRun.run (perform cls mux) calls construct = some connector)
    (running : connector.init = true) (id : Nat) (addr : List UInt8) (port : UInt16)
    (timeoutMs : Nat) (input : ResolveInput) :
    ∃ after, connector.connect id addr port timeoutMs input = some after ∧
      ¬TakenOn connector after id ∧
      (SocketAssistant.ipValid addr = false → after = connector) := by
  have deaf : Deaf connector :=
    PartialRun.invariant Deaf (fun _ _ _ deaf step => deaf.perform step) execution
      fun stopped => absurd stopped Bool.false_ne_true
  obtain ⟨⟨engine, engine_eq⟩, service, service_eq, uninitialized⟩ := deaf running
  rw [connect, if_neg (not_not.mpr running)]
  by_cases literal : SocketAssistant.ipValid addr = true
  · rw [if_pos literal]
    obtain ⟨after, finished, dropped⟩ := withSocket_drops
      (fun socket => (socket.setIpPort addr port).connect input.now timeoutMs) engine_eq
    refine ⟨after, finished, dropped, ?_⟩
    exact fun named => absurd (named.symm.trans literal) Bool.false_ne_true
  · rw [if_neg literal, engine_eq]
    have unchanged : service.getAddrInfo (ConnectorSocket.resolution ⟨id⟩) addr port timeoutMs input
        engine = some engine := by
      rw [DnsService.getAddrInfo, if_pos (by rw [uninitialized]; exact Bool.false_ne_true)]
    have same : { connector with engine := some engine } = connector := by rw [← engine_eq]
    refine ⟨connector, ?_, ?_, fun _ => rfl⟩
    · simp only [Option.bind_eq_bind, Option.bind_eq_some_iff, Option.some.injEq]
      exact ⟨service, service_eq, engine, rfl, engine, unchanged, same⟩
    · exact not_takenOn id engine_eq engine_eq (List.append_nil _).symm rfl rfl

/-- A library that is started and one plain socket that is created. -/
def startAndCreate : List (Call Unit ConnectorInput Unit) :=
  [.start 0 () (fun _ => (Transmission.construct ()).placed .transmission) none,
    .create () 0 (.null 0) ⟨0, 0, 0, 0⟩ 3 (.accepts 1)]

/-- The name example.com. -/
def exampleName : List UInt8 := [101, 120, 97, 109, 112, 108, 101, 46, 99, 111, 109]

theorem connect_not_takenOn_startAndCreate :
    ∃ connector, PartialRun.run (perform (ConnectorSocket.socketClass SocketHandler.sink
        (DnsProtocolProcess.parseWithin 64) fun _ => 0) Engine.idleMux) startAndCreate construct =
          some connector ∧
      ∃ after, connector.connect 1 exampleName 80 5000 ⟨4, 0, 0, .accepts 1⟩ = some after ∧
        ¬TakenOn connector after 1 ∧
        (SocketAssistant.ipValid exampleName = false → after = connector) :=
  ⟨_, rfl, connect_not_takenOn (ConnectorSocket.socketClass SocketHandler.sink
    (DnsProtocolProcess.parseWithin 64) fun _ => 0) Engine.idleMux startAndCreate _ rfl rfl 1
    exampleName 80 5000 ⟨4, 0, 0, .accepts 1⟩⟩

/-- The library runs and the socket with the number 1 exists; after the connect to example.com it is
in `INIT` as before, and neither a resolution nor a failure is on the way. -/
theorem connect_forgotten :
    ∃ connector after engine,
      PartialRun.run (perform (ConnectorSocket.socketClass SocketHandler.sink
        (DnsProtocolProcess.parseWithin 64) fun _ => 0) Engine.idleMux) startAndCreate construct =
          some connector ∧
      connector.init = true ∧
      connector.connect 1 exampleName 80 5000 ⟨4, 0, 0, .accepts 1⟩ = some after ∧
      after.engine = some engine ∧ engine.sockets.find 1 = some 3 ∧
      (engine.heap 3).status = .init ∧ ¬TakenOn connector after 1 :=
  ⟨_, _, _, rfl, rfl, rfl, rfl, rfl, rfl,
    not_takenOn 1 rfl rfl (List.append_nil _).symm rfl rfl⟩

end Connector
end NetworkBase
