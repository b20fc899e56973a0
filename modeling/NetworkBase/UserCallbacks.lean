import NetworkBase.Connector
import NetworkBase.Engine.Unserved
import NetworkBase.Transport.PlaintextStream

/-!
# What the users of the library are told

All users reach their sockets through the connector, and the connector reaches them through its
engine.  As the engine serves no socket, in no run of the library is any user told of a connection,
of data or of room to write, whatever the order of the calls, the rounds of the worker and the
restarts of the library.
-/

namespace NetworkBase

namespace Socket

variable {σ : Type} {before after : Socket σ}

/-- The socket was never served. -/
structure Untouched (socket : Socket σ) : Prop where
  status : socket.status ≠ .connected
  log : ∀ event ∈ socket.log, Unserving event

theorem untouched_construct (sub : σ) : Untouched (construct sub) where
  status connected := by cases connected
  log _ mem := absurd mem List.not_mem_nil

theorem Untouched.unserved {told : Nat} (untouched : Untouched before)
    (unserved : Unserved told before after) : Untouched after := by
  obtain ⟨⟨shown, log_eq, unserving, -⟩, status⟩ := unserved
  refine ⟨status untouched.status, ?_⟩
  intro event mem
  rw [log_eq] at mem
  exact (List.mem_append.mp mem).elim (untouched.log event) (unserving event)

end Socket

namespace Connector

open Socket (Untouched)

variable {η ι τ : Type} {before after : Connector η τ}

/-- No socket of the engine was ever served. -/
def Unserved (connector : Connector η τ) : Prop :=
  ∀ engine, connector.engine = some engine → ∀ socket, Untouched (engine.heap socket)

/-- A started engine finds fresh sockets. -/
def Call.Fresh : Call η ι τ → Prop
  | .start _ _ heap _ => ∀ socket, ∃ sub, heap socket = .construct sub
  | _ => True

namespace Unserved

theorem of_engine {engine : Engine (ConnectorSocket η) τ} (engine_eq : after.engine = some engine)
    (untouched : ∀ socket, Untouched (engine.heap socket)) : Unserved after := by
  intro found found_eq
  obtain rfl := Option.some.inj (engine_eq.symm.trans found_eq)
  exact untouched

/-- Another object at the place of a socket. -/
theorem untouched_store {engine : Engine (ConnectorSocket η) τ}
    (untouched : ∀ socket, Untouched (engine.heap socket)) {socket : SocketPtr}
    {next : Socket (ConnectorSocket η)} (next_untouched : Untouched next) (other : SocketPtr) :
    Untouched ((engine.store socket next).heap other) := by
  by_cases same : other = socket
  · subst same
    rw [Engine.heap_store_self]
    exact next_untouched
  · rw [Engine.heap_store_of_ne same]
    exact untouched other

/-- A public method that is applied to one socket. -/
theorem withSocket {thread : ThreadId} {id : Nat}
    {method : Socket (ConnectorSocket η) → Option (Socket (ConnectorSocket η))}
    (unserved : Unserved before)
    (quiet : ∀ socket next, method socket = some next →
      Socket.SubSteps Socket.quiet socket next)
    (execution : before.withSocket thread id method = some after) : Unserved after := by
  rw [Connector.withSocket, Option.bind_eq_bind, Option.bind_eq_some_iff] at execution
  obtain ⟨engine, engine_eq, execution⟩ := execution
  have untouched := unserved engine engine_eq
  have queried : ∀ socket, Untouched ((engine.query thread id).2.heap socket) := by
    rw [Engine.snd_query]
    exact untouched
  split at execution
  · rename_i asked answer
    cases execution
    rw [answer] at queried
    exact of_engine rfl queried
  · rename_i socket asked answer
    rw [answer] at queried
    rw [Option.bind_eq_bind, Option.bind_eq_some_iff] at execution
    obtain ⟨next, called, execution⟩ := execution
    cases execution
    have stepped := (queried socket).unserved (.of_quiet (quiet _ _ called))
    exact of_engine rfl (untouched_store queried stepped)

theorem close {thread : ThreadId} {id : Nat} (unserved : Unserved before)
    (execution : before.close thread id = some after) : Unserved after := by
  rw [Connector.close] at execution
  split at execution
  · cases execution
    exact unserved
  · refine unserved.withSocket ?_ execution
    rintro socket next ⟨⟩
    exact .single (.close socket)

/-- Setting an address and connecting are two public methods. -/
theorem withAddress {thread : ThreadId} {id : Nat} {addr : List UInt8} {port : UInt16}
    {now timeoutMs : Nat} (unserved : Unserved before)
    (execution : before.withSocket thread id (fun socket =>
      some ((socket.setIpPort addr port).connect now timeoutMs)) = some after) :
    Unserved after := by
  refine unserved.withSocket ?_ execution
  rintro socket next ⟨⟩
  exact (Socket.SubSteps.single (.setIpPort socket addr port)).trans
    (.single (.connect _ now timeoutMs))

/-- A new socket of a user is fresh. -/
theorem untouched_newSocket (handler : η) (ca : CharSpan)
    (answers : TransmissionSecurity.SetupAnswers) (protocol : Int) :
    Untouched ((newSocket handler ca answers).setProtocol protocol) := by
  have licensed : ∀ socket : Socket (TransmissionSecurity η),
      (TransmissionSecurity.setSecurityLicence answers socket).2.status = socket.status ∧
        (TransmissionSecurity.setSecurityLicence answers socket).2.log = socket.log := by
    intro socket
    rw [TransmissionSecurity.setSecurityLicence]
    split_ifs
    · exact ⟨rfl, rfl⟩
    · exact ⟨rfl, rfl⟩
    · exact ⟨rfl, rfl⟩
    · exact ⟨rfl, rfl⟩
    · exact ⟨rfl, rfl⟩
    · exact ⟨rfl, rfl⟩
  rw [newSocket]
  split
  · obtain ⟨status_eq, log_eq⟩ := licensed (TransmissionSecurity.construct handler)
    constructor
    · exact fun connected => by cases status_eq.symm.trans connected
    · intro event mem
      have mem : event ∈ (TransmissionSecurity.setSecurityLicence answers
        (TransmissionSecurity.construct handler)).2.log := mem
      rw [log_eq] at mem
      exact absurd mem List.not_mem_nil
  · exact ⟨fun connected => (by cases connected), fun _ mem => absurd mem List.not_mem_nil⟩

theorem perform {cls : SocketClass (ConnectorSocket η) ι} {mux : IoMultiplexing τ}
    {call : Call η ι τ} (deaf : Deaf before) (unserved : Unserved before) (fresh : call.Fresh)
    (execution : perform cls mux call before = some after) : Unserved after := by
  cases call with
  | start started io heap file =>
      cases execution
      rw [Connector.start]
      split
      · exact unserved
      split
      · exact fun _ none_eq => by cases none_eq
      · rintro engine ⟨⟩ socket
        obtain ⟨sub, heap_eq⟩ := fresh socket
        have untouched := Socket.untouched_construct sub
        rwa [← heap_eq] at untouched
  | stop =>
      cases execution
      rw [Connector.stop]
      split
      · exact unserved
      · exact fun _ none_eq => by cases none_eq
  | create handler protocol ca answers socket wake =>
      rw [Connector.perform, Option.map_eq_some_iff] at execution
      obtain ⟨⟨fd, next⟩, created, rfl⟩ := execution
      rw [Connector.create] at created
      split at created
      · cases created
        exact unserved
      · rw [Option.bind_eq_bind, Option.bind_eq_some_iff] at created
        obtain ⟨engine, engine_eq, created⟩ := created
        cases created
        exact of_engine rfl (untouched_store (unserved engine engine_eq)
          (untouched_newSocket handler ca answers protocol))
  | connect id addr port timeoutMs input =>
      rw [Connector.perform, Connector.connect] at execution
      split at execution
      · cases execution
        exact unserved
      rename_i running
      split at execution
      · exact unserved.withAddress execution
      · -- a name goes to a service that was never initialized
        obtain ⟨-, service, service_eq, uninitialized⟩ := deaf (not_not.mp running)
        simp only [Option.bind_eq_bind, Option.bind_eq_some_iff, service_eq,
          DnsService.getAddrInfo] at execution
        obtain ⟨_, ⟨⟩, engine, engine_eq, next, asked, finished⟩ := execution
        rw [uninitialized, if_pos (by decide)] at asked
        cases asked
        cases finished
        exact of_engine rfl (unserved engine engine_eq)
  | close id => exact unserved.close execution
  | send id data =>
      rw [Connector.perform, Connector.send] at execution
      split at execution
      · cases execution
        exact unserved
      · refine unserved.withSocket ?_ execution
        intro socket next sent
        obtain ⟨⟨result, middle⟩, answer, rfl⟩ := Option.map_eq_some_iff.mp sent
        exact cls.send_within data socket result middle answer
  | engine env call =>
      simp only [Connector.perform, Option.bind_eq_bind, Option.bind_eq_some_iff] at execution
      obtain ⟨engine, engine_eq, next, performed, execution⟩ := execution
      cases execution
      have untouched := unserved engine engine_eq
      obtain ⟨events, -, -, objects⟩ :=
        (Engine.Unserved.perform (fun socket => (untouched socket).status) performed).trace
      exact of_engine rfl fun socket => (untouched socket).unserved (objects socket)
  | onResult now dns result =>
      have reported : Unserved { before with reports := before.reports ++ [(dns, result)] } :=
        unserved
      rw [Connector.perform, Connector.onResult] at execution
      split at execution
      · exact reported.close execution
      · rw [Connector.connectIp] at execution
        split at execution
        · exact reported.withAddress execution
        · cases execution
          exact reported

end Unserved

/-- In every run of the library whose engines start among fresh sockets, whatever the users call,
the kernel answers and the resolutions report, no socket is connected, and the only callback a user
was ever given is `OnDisconnect`. -/
theorem never_reports (cls : SocketClass (ConnectorSocket η) ι) (mux : IoMultiplexing τ)
    (calls : List (Call η ι τ)) (fresh : ∀ call ∈ calls, call.Fresh) (connector : Connector η τ)
    (execution : PartialRun.run (perform cls mux) calls construct = some connector)
    (engine : Engine (ConnectorSocket η) τ) (running : connector.engine = some engine)
    (socket : SocketPtr) :
    (engine.heap socket).status ≠ .connected ∧
      (∀ event ∈ (engine.heap socket).log, Socket.Unserving event) ∧
      (engine.heap socket).log.filter Socket.IsCallback =
        List.replicate ((engine.heap socket).log.count .onDisconnect) .onDisconnect := by
  have kept := PartialRun.invariant_of_mem
    (fun connector : Connector η τ => Deaf connector ∧ Unserved connector)
    (fun call mem _ _ kept step =>
      ⟨kept.1.perform step, kept.2.perform kept.1 (fresh call mem) step⟩)
    execution ⟨fun stopped => absurd stopped Bool.false_ne_true, fun _ none_eq => by cases none_eq⟩
  have untouched := kept.2 engine running socket
  exact ⟨untouched.status, untouched.log, Socket.callbacks_of_unserving untouched.log⟩

/-- Nobody but the worker acts, and the kernel grants every connection. -/
def undisturbed : Environment ConnectorInput where
  others _ := []
  callbacks _ := []
  connect _ := Socket.obligingKernel
  soError _ := .clear
  write _ := ⟨.accepts 0, TransmissionSecurity.shaking⟩
  read _ := []
  drain _ := []

/-- The library starts, a user creates a socket and connects it to 1.2.3.4, the worker makes two
rounds, and the user closes the socket. -/
def connectAndClose : List (Call Unit ConnectorInput Unit) :=
  startAndCreate ++
    [.connect 1 [49, 46, 50, 46, 51, 46, 52] 80 0 ⟨4, 0, 0, .accepts 1⟩,
      .engine undisturbed (.call .readThread), .engine undisturbed (.call .readThread), .close 1]

theorem never_reports_connectAndClose :
    ∃ connector engine, PartialRun.run (perform (ConnectorSocket.socketClass SocketHandler.sink
        (DnsProtocolProcess.parseWithin 64) fun _ => 0) Engine.idleMux) connectAndClose construct =
          some connector ∧
      connector.engine = some engine ∧ (engine.heap 3).status ≠ .connected ∧
      (∀ event ∈ (engine.heap 3).log, Socket.Unserving event) ∧
      (engine.heap 3).log.filter Socket.IsCallback =
        List.replicate ((engine.heap 3).log.count .onDisconnect) .onDisconnect := by
  have fresh : ∀ call ∈ connectAndClose, call.Fresh := by
    simp only [connectAndClose, startAndCreate, List.cons_append, List.nil_append,
      List.forall_mem_cons]
    exact ⟨fun _ => ⟨_, rfl⟩, trivial, trivial, trivial, trivial, trivial,
      fun _ mem => absurd mem List.not_mem_nil⟩
  exact ⟨_, _, rfl, rfl, never_reports (ConnectorSocket.socketClass SocketHandler.sink
    (DnsProtocolProcess.parseWithin 64) fun _ => 0) Engine.idleMux connectAndClose fresh _ rfl _
    rfl 3⟩

end Connector
end NetworkBase
