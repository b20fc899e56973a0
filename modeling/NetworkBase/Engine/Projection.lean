import NetworkBase.Engine.Stages
import NetworkBase.Engine.WakeUp
import NetworkBase.Transport.ReadStream
import NetworkBase.Transport.SendStream

/-!
# A run of the engine seen from one socket

Whatever the worker, the other threads and the callbacks of other sockets do, one socket sees a
sequence of calls: the public methods that they called on it, in the order in which they came, and
the calls of the worker that the trace shows.  So what every sequence of calls keeps on a single
socket holds for each socket of an engine.
-/

namespace NetworkBase

namespace Socket

/-- What happens to a socket in an engine. -/
inductive Deed (ι : Type)
  | call (call : Call ι)
  | realDisconnect

namespace Deed

variable {σ ι : Type} {cls : SocketClass σ ι} {before after : Socket σ}

/-- One deed. -/
def perform (cls : SocketClass σ ι) : Deed ι → Socket σ → Option (Socket σ)
  | .call made, socket => Socket.perform cls made socket
  | .realDisconnect, socket => Socket.realDisconnect cls socket

/-- The call of the worker at this time, with the answers that the environment gives then. -/
def made (env : Environment ι) (time : Nat) : RealCall → Deed ι
  | .connect => .call (.realConnect (env.connect time))
  | .disconnect => .realDisconnect
  | .read => .call (.realRead (env.read time))
  | .write => .call (.realWrite (env.soError time) (env.write time))

/-- A call of a public method. -/
def ofPublic : PublicCall → Deed ι
  | .send data => .call (.send data)
  | .close => .call .close
  | .connect now timeoutMs => .call (.connect now timeoutMs)
  | .setProtocol protocol => .call (.setProtocol protocol)
  | .setIpPort ip port => .call (.setIpPort ip port)

/-- The call on this socket that an action is. -/
def publicOn (socket : SocketPtr) : UserAction → Option (Deed ι)
  | .call other method => if other = socket then some (ofPublic method) else none
  | _ => none

/-- The actions that take no mutex are the calls on sockets. -/
theorem filterMap_publicOn_lockFree (socket : SocketPtr) (actions : List UserAction) :
    (actions.filter UserAction.lockFree).filterMap (publicOn socket : _ → Option (Deed ι)) =
      actions.filterMap (publicOn socket) := by
  rw [List.filterMap_filter]
  congr 1
  funext action
  cases action with
  | _ => rfl

/-- The calls of a callback are deeds. -/
theorem run_ofPublic {calls : List PublicCall}
    (execution : Socket.callBack cls.send calls before = some after) :
    PartialRun.run (perform cls) (calls.map ofPublic) before = some after := by
  induction calls generalizing before with
  | nil => exact execution
  | cons call calls ih =>
      rw [List.map_cons, PartialRun.run_cons_eq_some]
      cases call with
      | send data =>
          rw [Socket.callBack, Option.bind_eq_bind, Option.bind_eq_some_iff] at execution
          obtain ⟨⟨result, middle⟩, sent, rest⟩ := execution
          have called : perform cls (ofPublic (.send data)) before = some middle := by
            rw [ofPublic, perform, Socket.perform, sent]
            rfl
          exact ⟨middle, called, ih rest⟩
      | close => exact ⟨_, rfl, ih execution⟩
      | connect now timeoutMs => exact ⟨_, rfl, ih execution⟩
      | setProtocol protocol => exact ⟨_, rfl, ih execution⟩
      | setIpPort ip port => exact ⟨_, rfl, ih execution⟩

end Deed
end Socket

/-- The call into a socket that an event shows. -/
def EngineEvent.calledOn : EngineEvent → Option (RealCall × SocketPtr)
  | .called call socket => some (call, socket)
  | _ => none

namespace Engine

open Socket (Deed)

/-- A moment in a run of an engine. -/
inductive Moment
  /-- Other threads act. -/
  | others (time : Nat)
  /-- The worker calls a socket, and then the callbacks act. -/
  | called (call : RealCall) (socket : SocketPtr) (time : Nat)
  /-- `afterThread` calls `Close` of a socket. -/
  | close (socket : SocketPtr)

namespace Moment

/-- The time of a moment; `Close` takes none. -/
def time : Moment → Option Nat
  | .others time => some time
  | .called _ _ time => some time
  | .close _ => none

/-- The call of the worker that a moment is. -/
def calledOn : Moment → Option (RealCall × SocketPtr)
  | .called call socket _ => some (call, socket)
  | _ => none

/-- What happens to a socket at a moment. -/
def deeds {ι : Type} (env : Environment ι) (socket : SocketPtr) : Moment → List (Deed ι)
  | .others time => (env.others time).filterMap (Deed.publicOn socket)
  | .called call other time =>
      (if other = socket then [Deed.made env time call] else []) ++
        (env.callbacks time).filterMap (Deed.publicOn socket)
  | .close other => if other = socket then [Deed.ofPublic .close] else []

end Moment

variable {σ ι τ : Type} {cls : SocketClass σ ι} {mux : IoMultiplexing τ} {env : Environment ι}
  {before after : Engine σ τ}

/-- From one state to the other these moments came, one at each time, and these events were shown;
each socket went through what happened to it at these moments. -/
structure Chronicle (cls : SocketClass σ ι) (env : Environment ι) (before after : Engine σ τ)
    (moments : List Moment) (events : List EngineEvent) : Prop where
  trace : after.trace = before.trace ++ events
  times : ∃ count, after.time = before.time + count ∧
    moments.filterMap Moment.time = List.range' before.time count
  called : moments.filterMap Moment.calledOn = events.filterMap EngineEvent.calledOn
  run : ∀ socket, PartialRun.run (Deed.perform cls) (moments.flatMap (Moment.deeds env socket))
    (before.heap socket) = some (after.heap socket)

theorem calledOn_of_passive {events : List EngineEvent}
    (passive : ∀ event ∈ events, Passive event) : events.filterMap EngineEvent.calledOn = [] := by
  rw [List.filterMap_eq_nil_iff]
  intro event mem
  cases event with
  | called call other => exact absurd rfl (passive _ mem call other)
  | _ => rfl

/-- The actions of a thread are for each socket its calls on that socket. -/
theorem acts_run {thread : ThreadId} {actions : List UserAction}
    (execution : acts cls thread actions before = some after) (socket : SocketPtr) :
    PartialRun.run (Deed.perform cls) (actions.filterMap (Deed.publicOn socket))
      (before.heap socket) = some (after.heap socket) := by
  induction actions generalizing before with
  | nil =>
      cases execution
      rfl
  | cons action actions ih =>
      rw [acts, PartialRun.run_cons_eq_some] at execution
      obtain ⟨middle, step, rest⟩ := execution
      have later := ih rest
      cases action with
      | add other wake =>
          cases step
          exact later
      | query fd =>
          cases step
          rw [snd_query] at later
          exact later
      | call other call =>
          rw [act, Option.map_eq_some_iff] at step
          obtain ⟨next, called, rfl⟩ := step
          by_cases same : other = socket
          · subst same
            have named : (Deed.publicOn other (.call other call) : Option (Deed ι)) =
                some (Deed.ofPublic call) := if_pos rfl
            have performed : PartialRun.run (Deed.perform cls) [Deed.ofPublic call]
                (before.heap other) = some next := Deed.run_ofPublic called
            rw [heap_store_self] at later
            rw [List.filterMap_cons_some named, ← List.singleton_append, PartialRun.run_append,
              performed, Option.bind_some]
            exact later
          · have elsewhere : (Deed.publicOn socket (.call other call) : Option (Deed ι)) = none :=
              if_neg same
            rw [heap_store_of_ne (Ne.symm same)] at later
            rw [List.filterMap_cons_none elsewhere]
            exact later

namespace Chronicle

/-- A step that shows no call, takes no time and leaves the sockets alone. -/
theorem of_events {events : List EngineEvent} (heap_eq : after.heap = before.heap)
    (time_eq : after.time = before.time) (trace_eq : after.trace = before.trace ++ events)
    (passive : ∀ event ∈ events, Passive event) : Chronicle cls env before after [] events where
  trace := trace_eq
  times := ⟨0, time_eq, rfl⟩
  called := (calledOn_of_passive passive).symm
  run socket := by
    rw [heap_eq]
    rfl

theorem trans {middle : Engine σ τ} {moments moments' : List Moment}
    {events events' : List EngineEvent} (first : Chronicle cls env before middle moments events)
    (second : Chronicle cls env middle after moments' events') :
    Chronicle cls env before after (moments ++ moments') (events ++ events') := by
  obtain ⟨count, middle_time, times⟩ := first.times
  obtain ⟨count', after_time, times'⟩ := second.times
  refine ⟨?_, ⟨count + count', ?_, ?_⟩, ?_, fun socket => ?_⟩
  · rw [second.trace, first.trace, List.append_assoc]
  · rw [after_time, middle_time, Nat.add_assoc]
  · rw [List.filterMap_append, times, times', middle_time, List.range'_append_1]
  · rw [List.filterMap_append, List.filterMap_append, first.called, second.called]
  · rw [List.flatMap_append, PartialRun.run_append, first.run, Option.bind_some, second.run]

theorem deeds_others (socket : SocketPtr) (time : Nat) :
    [Moment.others time].flatMap (Moment.deeds env socket) =
      (env.others time).filterMap (Deed.publicOn socket) := List.flatMap_singleton ..

/-- Other threads act. -/
theorem of_acts {actions : List UserAction} (deeds_eq : ∀ socket,
      (actions.filterMap (Deed.publicOn socket) : List (Deed ι)) =
        (env.others before.time).filterMap (Deed.publicOn socket))
    (execution : (acts cls .other actions before).map tick = some after) :
    ∃ events, Chronicle cls env before after [.others before.time] events := by
  rw [Option.map_eq_some_iff] at execution
  obtain ⟨middle, acted, rfl⟩ := execution
  obtain ⟨events, trace_eq, passive, -, -⟩ := ((Grown.allows cls).acts acted).shown
  refine ⟨events, trace_eq, ⟨1, congrArg Nat.succ (acts_time acted), rfl⟩,
    (calledOn_of_passive passive).symm, fun socket => ?_⟩
  rw [deeds_others, ← deeds_eq]
  exact acts_run acted socket

/-- The worker calls a socket, and then the callbacks act. -/
theorem of_callSocket {call : RealCall} {method : Socket σ → Option (Socket σ)}
    {other : SocketPtr}
    (performs : ∀ object, method object = (Deed.made env before.time call).perform cls object)
    (execution : callSocket cls env call method other before = some after) :
    ∃ events, Chronicle cls env before after [.called call other before.time] events := by
  have after_time := callSocket_time execution
  simp only [callSocket, Option.bind_eq_bind, Option.bind_eq_some_iff] at execution
  obtain ⟨next, called, middle, acted, finished⟩ := execution
  cases finished
  have called : method (before.heap other) = some next := called
  rw [performs] at called
  obtain ⟨events, trace_eq, passive, -, -⟩ := ((Grown.allows cls).acts acted).shown
  refine ⟨.called call other :: events, ?_, ⟨1, after_time, rfl⟩, ?_, fun socket => ?_⟩
  · change middle.trace = _
    rw [trace_eq]
    exact List.append_assoc _ _ _
  · have shown : EngineEvent.calledOn (.called call other) = some (call, other) := rfl
    rw [List.filterMap_cons_some shown, calledOn_of_passive passive]
    rfl
  · have acting := acts_run acted socket
    rw [List.flatMap_singleton, Moment.deeds, PartialRun.run_append]
    by_cases same : other = socket
    · subst same
      rw [heap_store_self] at acting
      rw [if_pos rfl, PartialRun.run_cons, called]
      exact acting
    · rw [heap_store_of_ne (Ne.symm same)] at acting
      rw [if_neg same]
      exact acting

/-- `afterThread` closes a socket. -/
theorem of_close (other : SocketPtr) (engine : Engine σ τ) :
    Chronicle cls env engine (engine.store other (engine.heap other).close) [.close other] [] := by
  refine ⟨(List.append_nil _).symm, ⟨0, rfl, rfl⟩, rfl, fun socket => ?_⟩
  rw [List.flatMap_singleton, Moment.deeds]
  by_cases same : other = socket
  · subst same
    rw [if_pos rfl, heap_store_self]
    rfl
  · rw [if_neg same, heap_store_of_ne (Ne.symm same)]
    rfl

end Chronicle

/-- From one state to the other an engine went through some moments, and only `afterThread` called
`Close`. -/
def Runs (cls : SocketClass σ ι) (env : Environment ι) (closing : Prop)
    (before after : Engine σ τ) : Prop :=
  ∃ moments events, Chronicle cls env before after moments events ∧
    ∀ other, .close other ∈ moments → closing

namespace Runs

variable {closing : Prop}

/-- A step that shows no call, takes no time and leaves the sockets alone. -/
theorem of_grown (grown : Grown before after) (heap_eq : after.heap = before.heap)
    (time_eq : after.time = before.time) : Runs cls env closing before after := by
  obtain ⟨events, trace_eq, passive, -, -⟩ := grown.shown
  exact ⟨[], events, .of_events heap_eq time_eq trace_eq passive,
    fun _ mem => absurd mem List.not_mem_nil⟩

theorem of_same (heap_eq : after.heap = before.heap) (time_eq : after.time = before.time)
    (trace_eq : after.trace = before.trace) : Runs cls env closing before after :=
  ⟨[], [], .of_events heap_eq time_eq (trace_eq.trans (List.append_nil _).symm)
    fun _ mem => absurd mem List.not_mem_nil, fun _ mem => absurd mem List.not_mem_nil⟩

theorem trans {middle : Engine σ τ} (first : Runs cls env closing before middle)
    (second : Runs cls env closing middle after) : Runs cls env closing before after := by
  obtain ⟨early, shown, early_chronicle, early_closing⟩ := first
  obtain ⟨late, shown', late_chronicle, late_closing⟩ := second
  exact ⟨early ++ late, shown ++ shown', early_chronicle.trans late_chronicle, fun other mem =>
    (List.mem_append.mp mem).elim (early_closing other) (late_closing other)⟩

theorem imp {closing' : Prop} (runs : Runs cls env closing before after)
    (more : closing → closing') : Runs cls env closing' before after := by
  obtain ⟨moments, events, chronicle, closes⟩ := runs
  exact ⟨moments, events, chronicle, fun other mem => more (closes other mem)⟩

/-- A single moment that is no `Close`. -/
theorem of_moment {moment : Moment} (open_ : ∀ other, moment ≠ .close other)
    (chronicle : ∃ events, Chronicle cls env before after [moment] events) :
    Runs cls env closing before after := by
  obtain ⟨events, chronicle⟩ := chronicle
  exact ⟨[moment], events, chronicle, fun other mem =>
    absurd (List.mem_singleton.mp mem).symm (open_ other)⟩

theorem of_interrupt (execution : interrupt cls env before = some after) :
    Runs cls env closing before after :=
  of_moment (fun _ same => by cases same) (Chronicle.of_acts (fun _ => rfl) execution)

theorem of_interruptLocked (execution : interruptLocked cls env before = some after) :
    Runs cls env closing before after :=
  of_moment (fun _ same => by cases same)
    (Chronicle.of_acts (fun socket => Deed.filterMap_publicOn_lockFree socket _) execution)

theorem of_callSocket {call : RealCall} {method : Socket σ → Option (Socket σ)}
    {other : SocketPtr}
    (performs : ∀ object, method object = (Deed.made env before.time call).perform cls object)
    (execution : callSocket cls env call method other before = some after) :
    Runs cls env closing before after :=
  of_moment (fun _ same => by cases same) (Chronicle.of_callSocket performs execution)

theorem cycles (cls : SocketClass σ ι) (mux : IoMultiplexing τ) (env : Environment ι)
    (closing : Prop) :
    Cycles cls mux env (Runs cls env closing : Engine σ τ → Engine σ τ → Prop) where
  refl _ := of_same rfl rfl rfl
  trans _ _ _ := trans
  interrupt _ _ := of_interrupt
  interruptLocked _ _ := of_interruptLocked
  deleteFd fd engine := of_grown (Grown.deleteFd mux fd engine) rfl rfl
  dispatch _ _ := of_same rfl rfl rfl
  fdCheck _ _ := of_same rfl rfl rfl
  connect _ _ _ _ := of_callSocket fun _ => rfl
  disconnect _ _ _ _ := of_callSocket fun _ => rfl
  write _ _ _ _ := of_callSocket fun _ => rfl
  read _ _ _ _ := of_callSocket fun _ => rfl
  sleep _ := of_same rfl rfl rfl
  lock engine := of_grown (Grown.lock .worker engine) rfl rfl
  unlock engine := of_grown (Grown.unlock .worker engine) rfl rfl
  erase _ _ := of_same rfl rfl rfl
  drain _ _ := of_same rfl rfl rfl

theorem pervades (cls : SocketClass σ ι) (mux : IoMultiplexing τ) (env : Environment ι) :
    Pervades cls mux env (Runs cls env True : Engine σ τ → Engine σ τ → Prop) where
  toCycles := cycles cls mux env True
  swap engine := by
    refine ⟨[], [.lock .worker, .swapped, .unlock .worker], .of_events rfl rfl ?_ ?_, ?_⟩
    · simp [swapOut, lock, unlock, record]
    · simp [Passive]
    · exact fun _ _ => trivial
  close other engine := ⟨[.close other], [], .of_close other engine, fun _ _ => trivial⟩

/-- Only `afterThread` calls `Close`. -/
theorem of_perform {call : ThreadCall}
    (execution : call.perform cls mux env before = some after) :
    Runs cls env (call = .call .afterThread) before after := by
  cases call with
  | beforeStop wake =>
      cases execution
      exact of_same rfl rfl rfl
  | call call =>
      cases call with
      | add caller socket wake =>
          cases execution
          exact of_grown (Grown.add caller socket wake before) rfl rfl
      | query caller fd =>
          cases execution
          rw [snd_query]
          exact of_grown ((Grown.lock caller before).trans (Grown.unlock caller _)) rfl rfl
      | readThread =>
          have round : (readThread cls mux env before).map Prod.snd = some after := execution
          rw [Option.map_eq_some_iff] at round
          obtain ⟨⟨ret, final⟩, finished, rfl⟩ := round
          exact (cycles cls mux env _).readThread finished
      | afterThread =>
          exact ((pervades cls mux env).afterThread execution).imp fun _ => rfl

theorem of_run {calls : List ThreadCall}
    (execution : PartialRun.run (ThreadCall.perform cls mux env) calls before = some after) :
    Runs cls env (.call .afterThread ∈ calls) before after := by
  induction calls generalizing before with
  | nil =>
      cases execution
      exact of_same rfl rfl rfl
  | cons call calls ih =>
      rw [PartialRun.run_cons_eq_some] at execution
      obtain ⟨middle, performed, rest⟩ := execution
      have first := (of_perform performed).imp fun (same : call = .call .afterThread) =>
        (same ▸ List.mem_cons_self : ThreadCall.call .afterThread ∈ call :: calls)
      exact first.trans ((ih rest).imp (List.mem_cons_of_mem call))

end Runs

/-- Every run of the threads on an engine, from any state, is a chronicle of moments, one at each
time: other threads act, or the worker calls a socket, whose callbacks then act, in the order of the
trace; besides, `afterThread` closes sockets.  For each socket it is the run of the calls on that
socket alone that come at these moments, with the answers that the environment gives then. -/
theorem exists_socketRun (cls : SocketClass σ ι) (mux : IoMultiplexing τ) (env : Environment ι)
    (calls : List ThreadCall) (before after : Engine σ τ)
    (execution : PartialRun.run (ThreadCall.perform cls mux env) calls before = some after) :
    ∃ moments events, Chronicle cls env before after moments events ∧
      ∀ socket, .close socket ∈ moments → .call .afterThread ∈ calls :=
  Runs.of_run execution

/-- A socket is added, connects, and is closed by `afterThread`; its deeds are those of the user and
of the worker. -/
theorem exists_socketRun_addAndConnect :
    ∃ after, PartialRun.run (ThreadCall.perform (Transmission.socketClass SocketHandler.sink)
        idleMux addAndConnect) [.call .readThread, .call .afterThread]
          (construct () fun _ => Transmission.construct ()) = some after ∧
      ∃ moments events, Chronicle (Transmission.socketClass SocketHandler.sink) addAndConnect
          (construct () fun _ => Transmission.construct ()) after moments events ∧
        moments.filterMap Moment.calledOn = [(.connect, 3), (.disconnect, 3)] := by
  obtain ⟨moments, events, chronicle, -⟩ := exists_socketRun
    (Transmission.socketClass SocketHandler.sink) idleMux addAndConnect
    [.call .readThread, .call .afterThread] (construct () fun _ => Transmission.construct ()) _ rfl
  refine ⟨_, rfl, moments, events, chronicle, ?_⟩
  have shown : _ = events := chronicle.trace
  rw [chronicle.called, ← shown]
  rfl

/-! ## The streams of a plain socket in an engine -/

section Streams

variable {η : Type} {handler : SocketHandler η} {base : List Event} {held₀ : List UInt8}
  {deed : Deed WriteResult} {before after : Socket (Transmission η)}

/-- What every call and `OnDisconnect` keep and closing a descriptor keeps, every deed keeps. -/
theorem streamStaged_deed {view : StreamView} {queue : Transmission η → SoundBuffer}
    (kept : Socket.Kept (Transmission.socketClass handler) (StreamStaged view queue base held₀))
    (sends : ∀ data before result after, StreamStaged view queue base held₀ before →
      Transmission.send data before = some (result, after) →
        StreamStaged view queue base held₀ after)
    (closed : ∀ fd, view.Silent (.closed fd))
    (told : ∀ before after, StreamStaged view queue base held₀ before →
      Transmission.onDisconnect handler before = some after →
        StreamStaged view queue base held₀ after)
    (staged : StreamStaged view queue base held₀ before)
    (execution : deed.perform (Transmission.socketClass handler) before = some after) :
    StreamStaged view queue base held₀ after := by
  cases deed with
  | call call =>
      exact Socket.perform_keeps kept (fun _ _ => StreamStaged.bare) sends execution staged
  | realDisconnect =>
      rw [Deed.perform, Socket.realDisconnect, Option.bind_eq_bind, Option.bind_eq_some_iff]
        at execution
      obtain ⟨middle, reported, execution⟩ := execution
      have next := told before middle staged reported
      split at execution
      · cases execution
        exact next.emit (closed middle.fd)
      · cases execution
        exact next

/-- The bytes that went out and the bytes that came in are accounted for. -/
structure StreamsConserved (socket : Socket (Transmission η)) : Prop where
  sent : Transmission.SendStaged [] [] socket
  received : Transmission.ReadStaged [] [] socket

theorem StreamsConserved.of_reached {state : η} {prior : List (Socket.Call WriteResult)}
    {socket : Socket (Transmission η)}
    (reached : PartialRun.run (Socket.perform (Transmission.socketClass handler)) prior
      (Transmission.construct state) = some socket) : StreamsConserved socket where
  sent := Transmission.sendStaged_of_reached reached
  received := StreamStaged.run (Transmission.kept_readStaged handler [] [])
    (fun _ _ _ _ staged sent => Transmission.readStaged_send staged sent) reached
    (StreamStaged.construct rfl)

theorem StreamsConserved.perform (conserved : StreamsConserved before)
    (execution : deed.perform (Transmission.socketClass handler) before = some after) :
    StreamsConserved after where
  sent := streamStaged_deed (Transmission.kept_sendStaged handler [] [])
    (fun _ _ _ _ staged sent => Transmission.sendStaged_send staged sent) (fun _ => ⟨rfl, rfl⟩)
    (fun _ _ staged told => Transmission.sendStaged_told staged ⟨rfl, rfl⟩ told) conserved.sent
    execution
  received := streamStaged_deed (Transmission.kept_readStaged handler [] [])
    (fun _ _ _ _ staged sent => Transmission.readStaged_send staged sent) (fun _ => ⟨rfl, rfl⟩)
    (fun _ _ staged told => Transmission.readStaged_told staged ⟨rfl, rfl⟩ told)
    conserved.received execution

end Streams

/-- Whatever state the plain sockets of an engine are in when a run begins, whatever users,
callbacks and the worker do and however their calls interleave, for each socket the bytes the kernel
accepted followed by those queued are the buffers that `Send` took over, in order; and the bytes the
handler consumed followed by those kept for it are the bytes the kernel brought.  Each `Send` shows
itself once, with the value it returns. -/
theorem streams_conserved {η : Type} (handler : SocketHandler η) (mux : IoMultiplexing τ)
    (env : Environment WriteResult) (calls : List ThreadCall)
    (before after : Engine (Transmission η) τ)
    (reached : ∀ socket, ∃ state prior,
      PartialRun.run (Socket.perform (Transmission.socketClass handler)) prior
        (Transmission.construct state) = some (before.heap socket))
    (execution : PartialRun.run (ThreadCall.perform (Transmission.socketClass handler) mux env)
      calls before = some after) (socket : SocketPtr) :
    (after.heap socket).log.flatMap acceptedBy ++ (after.heap socket).sub.sendBuffer.unread =
        (after.heap socket).log.flatMap Transmission.suppliedBy ∧
      (after.heap socket).log.flatMap consumedBy ++ (after.heap socket).sub.readBuffer.unread =
        (after.heap socket).log.flatMap Transmission.receivedBy ∧
      ∀ (data : CharSpan) (object next : Socket (Transmission η)) (result : Int),
        Transmission.send data object = some (result, next) →
          next.log = object.log ++ [.send data result] := by
  obtain ⟨moments, events, chronicle, -⟩ := Runs.of_run execution
  obtain ⟨state, prior, earlier⟩ := reached socket
  have conserved : StreamsConserved (after.heap socket) :=
    PartialRun.invariant StreamsConserved (fun _ _ _ kept step => kept.perform step)
      (chronicle.run socket) (.of_reached earlier)
  exact ⟨conserved.sent.conserved, conserved.received.conserved,
    fun _ _ _ _ sent => Transmission.send_shows sent⟩

/-- A plain socket that was connected. -/
def linkedSocket : Socket (Transmission Unit) :=
  (PartialRun.run (Socket.perform (Transmission.socketClass SocketHandler.sink))
    (Socket.connectCalls (.accepts 0)) (Transmission.construct ())).getD (Transmission.construct ())

/-- Another thread adds a socket while the worker sleeps. -/
def addOnly : Environment WriteResult :=
  { addAndConnect with others := fun time => if time = 0 then [.add 3 (.accepts 1)] else [] }

/-- A connected socket is written and read. -/
theorem streams_conserved_addOnly :
    ∃ after : Engine (Transmission Unit) Unit,
      PartialRun.run (ThreadCall.perform (Transmission.socketClass SocketHandler.sink) readyMux
        addOnly) [.call .readThread] (construct () fun _ => linkedSocket) = some after ∧
      (.called .write 3 ∈ after.trace ∧ .called .read 3 ∈ after.trace) ∧
      (after.heap 3).log.flatMap acceptedBy ++ (after.heap 3).sub.sendBuffer.unread =
          (after.heap 3).log.flatMap Transmission.suppliedBy ∧
        (after.heap 3).log.flatMap consumedBy ++ (after.heap 3).sub.readBuffer.unread =
          (after.heap 3).log.flatMap Transmission.receivedBy := by
  obtain ⟨sent, received, -⟩ := streams_conserved SocketHandler.sink readyMux addOnly
    [.call .readThread] (construct () fun _ => linkedSocket) _
    (fun _ => ⟨(), Socket.connectCalls (.accepts 0), rfl⟩) rfl 3
  exact ⟨_, rfl, by decide, sent, received⟩

end Engine
end NetworkBase
