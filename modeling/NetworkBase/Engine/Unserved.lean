import NetworkBase.Engine.WakeUp

/-!
# No socket of an engine is served

Only `RealWrite` makes a socket connected, only sockets that a round finds connected are read or
written, and nobody else assigns that status.  So in no life of an engine is a socket read or
written, whatever the kernel, the multiplexer and the other threads do: the one callback a handler
ever sees is `OnDisconnect`, once for each `RealDisconnect`.
-/

namespace NetworkBase

namespace Socket

variable {σ : Type} {before after : Socket σ}

/-- The events of a socket that was neither read nor written nor told that it is connected. -/
def Unserving : Event → Prop
  | .assigned status => status ≠ .connected
  | .realConnect => True
  | .opened _ => True
  | .closed _ => True
  | .send _ _ => True
  | .onDisconnect => True
  | _ => False

/-- The event is a callback of the handler. -/
def IsCallback : Event → Bool
  | .onConnect => true
  | .onDisconnect => true
  | .onData _ _ => true
  | .onWrite => true
  | _ => false

/-- The callbacks of a socket that was never served are all `OnDisconnect`. -/
theorem callbacks_of_unserving {log : List Event} (unserving : ∀ event ∈ log, Unserving event) :
    log.filter IsCallback = List.replicate (log.count .onDisconnect) .onDisconnect := by
  rw [← List.filter_beq]
  refine List.filter_congr fun event mem => ?_
  have allowed := unserving event mem
  cases event with
  | onConnect => exact absurd allowed id
  | onData offer result => exact absurd allowed id
  | onWrite => exact absurd allowed id
  | onDisconnect => rfl
  | _ => rfl

/-- From one state to the other the socket showed such events only, `told` of them an
`OnDisconnect`, and it did not become connected. -/
structure Unserved (told : Nat) (before after : Socket σ) : Prop where
  shown : ∃ events, after.log = before.log ++ events ∧ (∀ event ∈ events, Unserving event) ∧
    events.count .onDisconnect = told
  status : before.status ≠ .connected → after.status ≠ .connected

namespace Unserved

theorem refl (socket : Socket σ) : Unserved 0 socket socket :=
  ⟨⟨[], (List.append_nil _).symm, fun _ mem => absurd mem List.not_mem_nil, rfl⟩, id⟩

theorem trans {middle : Socket σ} {early late : Nat} (first : Unserved early before middle)
    (second : Unserved late middle after) : Unserved (early + late) before after := by
  obtain ⟨front, front_eq, front_unserving, front_told⟩ := first.shown
  obtain ⟨back, back_eq, back_unserving, back_told⟩ := second.shown
  refine ⟨⟨front ++ back, ?_, ?_, ?_⟩, second.status ∘ first.status⟩
  · rw [back_eq, front_eq, List.append_assoc]
  · intro event mem
    exact (List.mem_append.mp mem).elim (front_unserving event) (back_unserving event)
  · rw [List.count_append, front_told, back_told]

/-- A socket that shows one more event. -/
theorem emit {event : Event} (unserving : Unserving event) (socket : Socket σ) :
    Unserved ([event].count .onDisconnect) socket (socket.emit event) :=
  ⟨⟨[event], rfl, fun _ mem => List.mem_singleton.mp mem ▸ unserving, rfl⟩, id⟩

/-- A socket that is given another status. -/
theorem assign {status : Status} (other : status ≠ .connected) (socket : Socket σ) :
    Unserved 0 socket (socket.assign status) :=
  ⟨⟨[.assigned status], rfl, fun _ mem => List.mem_singleton.mp mem ▸ other, rfl⟩, fun _ => other⟩

/-- A change of a member that is neither the status nor the log. -/
theorem of_same (log_eq : after.log = before.log) (status_eq : after.status = before.status) :
    Unserved 0 before after := by
  refine ⟨⟨[], log_eq.trans (List.append_nil _).symm, fun _ mem => absurd mem List.not_mem_nil,
    rfl⟩, ?_⟩
  rw [status_eq]
  exact id

/-- The public methods, called by others or from a callback. -/
theorem of_quiet (steps : SubSteps quiet before after) : Unserved 0 before after := by
  refine steps.preserves (Unserved 0 before) ?_ (refl before)
  intro first next step unserved
  refine show Unserved (0 + 0) before next from unserved.trans ?_
  cases step with
  | members sub => exact of_same rfl rfl
  | event event ok =>
      cases event with
      | send data result => exact emit (show Unserving (.send data result) from trivial) first
      | _ => exact absurd ok id
  | setProtocol protocol => exact of_same rfl rfl
  | setIpPort ip port => exact of_same rfl rfl
  | connect now timeoutMs =>
      rcases connect_cases now timeoutMs first with ⟨-, started, log_eq⟩ | ⟨status_eq, log_eq⟩
      · refine ⟨⟨[.assigned .startConnect], log_eq, ?_, rfl⟩, ?_⟩
        · exact fun _ mem => List.mem_singleton.mp mem ▸ (by decide : Status.startConnect ≠ _)
        · rw [started]
          exact fun _ => by decide
      · exact of_same log_eq status_eq
  | close => exact assign (by decide) first

/-- `RealConnect` ends in `CONNECTING` or `DISCONNECTED`. -/
theorem realConnect (kernel : ConnectKernel) (socket : Socket σ) :
    Unserved 0 socket (socket.realConnect kernel) := by
  have opened : Unserved 0 socket (socket.openSocket kernel) := by
    rcases openSocket_cases kernel socket with ⟨-, status_eq, log_eq⟩ | ⟨-, status_eq, log_eq⟩
    · refine ⟨⟨_, log_eq, ?_, rfl⟩, fun _ => by rw [status_eq]; decide⟩
      simp [Unserving]
    · refine ⟨⟨_, log_eq, ?_, rfl⟩, fun _ => by rw [status_eq]; decide⟩
      simp [Unserving]
  by_cases succeeds : socket.AttemptSucceeds kernel
  · rw [realConnect_of_succeeds succeeds]
    exact opened.trans (assign (by decide) _)
  · rw [realConnect_of_fails succeeds]
    exact opened.trans (assign (by decide) _)

/-- `RealDisconnect` tells the handler once. -/
theorem realDisconnect {ι : Type} {cls : SocketClass σ ι}
    (execution : realDisconnect cls before = some after) : Unserved 1 before after := by
  rw [Socket.realDisconnect, Option.bind_eq_bind, Option.bind_eq_some_iff] at execution
  obtain ⟨middle, told, execution⟩ := execution
  have telling : Unserved 1 before middle :=
    (emit (show Unserving .onDisconnect from trivial) before).trans
      (of_quiet (cls.onDisconnect_within before middle told))
  split at execution
  · cases execution
    exact telling.trans (emit (show Unserving (.closed middle.fd) from trivial) middle)
  · cases execution
    exact telling

end Unserved
end Socket

namespace Engine

variable {σ ι τ : Type} {cls : SocketClass σ ι} {mux : IoMultiplexing τ} {env : Environment ι}

/-- No socket is connected. -/
def NoneConnected (engine : Engine σ τ) : Prop :=
  ∀ socket, (engine.heap socket).status ≠ .connected

/-- From one state to the other no socket was read or written, and every socket was told as many
times that it is disconnected as it was disconnected. -/
structure Unserved (before after : Engine σ τ) : Prop where
  trace : ∃ events, after.trace = before.trace ++ events ∧
    (∀ socket, .called .read socket ∉ events ∧ .called .write socket ∉ events) ∧
    ∀ socket, Socket.Unserved ((disconnects events).count socket) (before.heap socket)
      (after.heap socket)

namespace Unserved

variable {before after : Engine σ τ}

theorem noneConnected (unserved : Unserved before after) (none : NoneConnected before) :
    NoneConnected after := by
  obtain ⟨events, -, -, objects⟩ := unserved.trace
  exact fun socket => (objects socket).status (none socket)

theorem trans {middle : Engine σ τ} (first : Unserved before middle)
    (second : Unserved middle after) : Unserved before after := by
  obtain ⟨early, early_eq, early_silent, early_objects⟩ := first.trace
  obtain ⟨late, late_eq, late_silent, late_objects⟩ := second.trace
  refine ⟨early ++ late, by rw [late_eq, early_eq, List.append_assoc], ?_, ?_⟩
  · intro socket
    simp only [List.mem_append, not_or]
    exact ⟨⟨(early_silent socket).1, (late_silent socket).1⟩,
      (early_silent socket).2, (late_silent socket).2⟩
  · intro socket
    rw [disconnects, List.filterMap_append, List.count_append]
    exact (early_objects socket).trans (late_objects socket)

/-- A step without a call into a socket, in which others use the public methods. -/
theorem of_passive {events : List EngineEvent} (trace_eq : after.trace = before.trace ++ events)
    (passive : ∀ event ∈ events, Passive event)
    (steps : ∀ socket, Socket.SubSteps Socket.quiet (before.heap socket) (after.heap socket)) :
    Unserved before after := by
  refine ⟨events, trace_eq, ?_, ?_⟩
  · exact fun socket => ⟨fun mem => passive _ mem _ _ rfl, fun mem => passive _ mem _ _ rfl⟩
  · intro socket
    rw [disconnects_of_passive passive]
    exact .of_quiet (steps socket)

theorem of_grown (grown : Grown before after)
    (steps : ∀ socket, Socket.SubSteps Socket.quiet (before.heap socket) (after.heap socket)) :
    Unserved before after := by
  obtain ⟨events, trace_eq, passive, -, -⟩ := grown.shown
  exact of_passive trace_eq passive steps

theorem of_same (heap_eq : after.heap = before.heap) (trace_eq : after.trace = before.trace) :
    Unserved before after := by
  refine of_passive (trace_eq.trans (List.append_nil _).symm)
    (fun _ mem => absurd mem List.not_mem_nil) fun socket => ?_
  rw [heap_eq]
  exact .refl _

theorem refl (engine : Engine σ τ) : Unserved engine engine := of_same rfl rfl

theorem interrupt (execution : interrupt cls env before = some after) : Unserved before after :=
  of_grown (Grown.interrupt execution) (interrupt_object execution)

/-- A call into a socket that neither reads nor writes. -/
theorem callSocket {call : RealCall} {method : Socket σ → Option (Socket σ)} {socket : SocketPtr}
    (other : call ≠ .read ∧ call ≠ .write)
    (kept : ∀ next, method (before.heap socket) = some next →
      Socket.Unserved (if call = .disconnect then 1 else 0) (before.heap socket) next)
    (execution : callSocket cls env call method socket before = some after) :
    Unserved before after := by
  obtain ⟨⟨next, called, steps⟩, others⟩ := callSocket_object execution
  obtain ⟨events, trace_eq, passive, -, -⟩ := (grown_of_callSocket execution).shown
  refine ⟨.called call socket :: events, ?_, ?_, ?_⟩
  · rw [trace_eq, record, List.append_assoc]
    rfl
  · intro named
    constructor
    · intro mem
      rcases List.mem_cons.mp mem with same | later
      · injection same with same_call
        exact other.1 same_call.symm
      · exact passive _ later _ _ rfl
    · intro mem
      rcases List.mem_cons.mp mem with same | later
      · injection same with same_call
        exact other.2 same_call.symm
      · exact passive _ later _ _ rfl
  · intro named
    have counted : (disconnects (.called call socket :: events)).count named =
        if call = .disconnect ∧ socket = named then 1 else 0 := by
      rw [disconnects, List.filterMap_cons, ← disconnects, disconnects_of_passive passive]
      cases call with
      | disconnect => simp [disconnectedSocket, List.count_cons]
      | _ => simp [disconnectedSocket]
    rw [counted]
    by_cases same : socket = named
    · subst same
      simp only [and_true]
      exact (kept next called).trans (.of_quiet steps)
    · rw [if_neg fun both => same both.2]
      exact .of_quiet (others named fun named_eq => same named_eq.symm)

/-- Unless a socket is read or written, none is served. -/
theorem attends (cls : SocketClass σ ι) (mux : IoMultiplexing τ) (env : Environment ι) :
    Attends cls mux env (fun call _ => call ≠ .read ∧ call ≠ .write)
      (Unserved : Engine σ τ → Engine σ τ → Prop) where
  refl := refl
  trans _ _ _ := trans
  interrupt _ _ := interrupt
  dispatch _ _ := of_same rfl rfl
  fdCheck _ _ := of_same rfl rfl
  connect _ _ _ _ execution := by
    refine callSocket ⟨by decide, by decide⟩ ?_ execution
    rintro next ⟨⟩
    exact .realConnect _ _
  write _ _ _ listed := absurd rfl listed.2
  read _ _ _ listed := absurd rfl listed.1
  deleteFd fd engine := of_grown (Grown.deleteFd mux fd engine) fun _ => .refl _
  disconnect _ _ _ _ execution := by
    refine callSocket ⟨by decide, by decide⟩ ?_ execution
    intro next told
    rw [if_pos rfl]
    exact .realDisconnect told

/-- A round that finds no socket connected serves none. -/
theorem readThread {ret : Int} (none : NoneConnected before)
    (execution : readThread cls mux env before = some (ret, after)) : Unserved before after := by
  rcases readThread_cases execution with ⟨awake, woken, -, -, waited⟩ |
    ⟨seen, found, awake, scanned, closed, started, round⟩
  · have waking := of_grown (Grown.wake woken) (wake_object woken)
    have unlocked := of_grown (Grown.unlock .worker awake) fun _ => .refl _
    have waiting := waitForSockets_keeps Unserved (fun _ _ _ => trans) (fun _ _ => interrupt)
      (fun _ _ => of_same rfl rfl) (fun _ _ => of_same rfl rfl) (fun _ _ => of_same rfl rfl) waited
    exact (waking.trans unlocked).trans waiting
  · have nothing : found.connected.entries = [] := by
      rw [round.connected, List.eq_nil_iff_forall_not_mem]
      intro entry listed
      obtain ⟨status, sight, status_eq⟩ := mem_withStatus.mp listed
      obtain rfl : status = .connected := of_decide_eq_true status_eq
      rcases round.status _ sight with same | gone | ⟨-, fresh⟩
      · exact none entry.2 same.symm
      · cases gone
      · cases fresh
    have serves := attends cls mux env
    have waking := of_grown (Grown.wake round.woken) (wake_object round.woken)
    have locked := of_grown (Grown.lock .worker awake) fun _ => .refl _
    have scanning : Unserved (awake.lock .worker) scanned :=
      of_passive (round.books.trace.trans (List.append_nil _).symm)
        (fun _ mem => absurd mem List.not_mem_nil) round.sights.steps
    have unlocked := of_grown (Grown.unlock .worker scanned) fun _ => .refl _
    have closing := serves.closeInvalid (fun _ _ => ⟨by decide, by decide⟩) round.closing
    have starting := serves.startConnects (fun _ _ => ⟨by decide, by decide⟩) round.starting
    have ready := serves.dispatchReady (by simp [nothing]) round.serving
    exact (((waking.trans locked).trans (scanning.trans unlocked)).trans closing).trans
      (starting.trans ready)

theorem afterThread (mux : IoMultiplexing τ)
    (execution : afterThread cls env before = some after) : Unserved before after := by
  simp only [Engine.afterThread, Option.bind_eq_bind, Option.bind_eq_some_iff] at execution
  obtain ⟨middle, interrupted, closed⟩ := execution
  have swapping : Unserved middle middle.swapOut.2 :=
    of_passive (show _ = _ ++ [.lock .worker, .swapped, .unlock .worker] by
      simp [swapOut, lock, unlock, record]) (by simp [Passive]) fun _ => .refl _
  have closing := (attends cls mux env).closeAll (fun socket engine => ?_)
    (fun _ _ => ⟨by decide, by decide⟩) closed
  · exact ((interrupt interrupted).trans swapping).trans closing
  · refine of_grown (Grown.of_same rfl rfl rfl) fun other => ?_
    by_cases same : other = socket
    · subst same
      rw [heap_store_self]
      exact .single (.close _)
    · rw [heap_store_of_ne same]
      exact .refl _

theorem rounds {count : Nat} (none : NoneConnected before)
    (execution : rounds cls mux env count before = some after) : Unserved before after := by
  induction count generalizing before with
  | zero =>
      cases execution
      exact refl _
  | succ count ih =>
      simp only [Engine.rounds, Option.bind_eq_bind, Option.bind_eq_some_iff] at execution
      obtain ⟨⟨ret, middle⟩, round, execution⟩ := execution
      have first := readThread none round
      split at execution
      · cases execution
        exact first
      · exact first.trans (ih (first.noneConnected none) execution)

/-- Whatever the threads do with an engine without connected sockets, none is served. -/
theorem perform {call : ThreadCall} (none : NoneConnected before)
    (execution : call.perform cls mux env before = some after) : Unserved before after := by
  cases call with
  | beforeStop wake =>
      cases execution
      exact of_same rfl rfl
  | call call =>
      cases call with
      | add caller socket wake =>
          cases execution
          exact of_grown (Grown.add caller socket wake before) fun _ => .refl _
      | query caller fd =>
          cases execution
          rw [snd_query]
          exact of_grown ((Grown.lock caller before).trans (Grown.unlock caller _))
            fun _ => .refl _
      | afterThread => exact afterThread mux execution
      | readThread =>
          have round : (Engine.readThread cls mux env before).map Prod.snd = some after := execution
          rw [Option.map_eq_some_iff] at round
          obtain ⟨⟨ret, final⟩, finished, rfl⟩ := round
          exact readThread none finished

theorem of_run {calls : List ThreadCall} (none : NoneConnected before)
    (execution : PartialRun.run (ThreadCall.perform cls mux env) calls before = some after) :
    Unserved before after :=
  PartialRun.invariant (Unserved before)
    (fun _ _ _ unserved step => unserved.trans (perform (unserved.noneConnected none) step))
    execution (refl before)

end Unserved

theorem construct_noneConnected (io : τ) (subs : SocketPtr → σ) :
    NoneConnected (construct io fun socket => Socket.construct (subs socket)) := by
  intro socket connected
  cases connected

/-- In every reachable state of an engine over fresh sockets, whatever the kernel answers, the
multiplexer finds and other threads and callbacks do, no socket is or ever was connected and none
was read or written; of all callbacks of its handler a socket called only `OnDisconnect`, as many
times as the engine disconnected it. -/
theorem never_serves (cls : SocketClass σ ι) (mux : IoMultiplexing τ) (env : Environment ι)
    (io : τ) (subs : SocketPtr → σ) (calls : List ThreadCall) (engine : Engine σ τ)
    (execution : PartialRun.run (ThreadCall.perform cls mux env) calls
      (construct io fun socket => Socket.construct (subs socket)) = some engine)
    (socket : SocketPtr) :
    (engine.heap socket).status ≠ .connected ∧
      .called .read socket ∉ engine.trace ∧ .called .write socket ∉ engine.trace ∧
      (∀ event ∈ (engine.heap socket).log, Socket.Unserving event) ∧
      (engine.heap socket).log.filter Socket.IsCallback =
        List.replicate ((disconnects engine.trace).count socket) .onDisconnect := by
  have none := construct_noneConnected io subs
  have unserved := Unserved.of_run none execution
  obtain ⟨events, trace_eq, silent, objects⟩ := unserved.trace
  obtain ⟨shown, log_eq, unserving, told⟩ := (objects socket).shown
  have trace_eq : engine.trace = events := trace_eq
  have log_eq : (engine.heap socket).log = shown := log_eq
  rw [trace_eq, log_eq, ← told]
  exact ⟨unserved.noneConnected none socket, (silent socket).1, (silent socket).2, unserving,
    Socket.callbacks_of_unserving unserving⟩

/-- A socket is added by another thread, connects, and is closed after two rounds. -/
def addConnectClose : List ThreadCall :=
  [.call .readThread, .call .readThread, .call .afterThread]

theorem never_serves_addConnectClose :
    ∃ engine, PartialRun.run (ThreadCall.perform (Transmission.socketClass SocketHandler.sink)
        idleMux addAndConnect) addConnectClose
          (construct () fun _ => Socket.construct (Transmission.construct ()).sub) = some engine ∧
      (engine.heap 3).status ≠ .connected ∧
      .called .read 3 ∉ engine.trace ∧ .called .write 3 ∉ engine.trace ∧
      (∀ event ∈ (engine.heap 3).log, Socket.Unserving event) ∧
      (engine.heap 3).log.filter Socket.IsCallback =
        List.replicate ((disconnects engine.trace).count 3) .onDisconnect :=
  ⟨_, rfl, never_serves (Transmission.socketClass SocketHandler.sink) idleMux addAndConnect () _
    addConnectClose _ rfl 3⟩

/-- Over the whole life of a worker the callbacks of a handler whose socket entered the engine once,
before the worker took the sockets out, are one `OnDisconnect` and nothing else: neither a
connection nor data is ever reported. -/
theorem told_once (cls : SocketClass σ ι) (mux : IoMultiplexing τ) (env : Environment ι) (io : τ)
    (subs : SocketPtr → σ) (count : Nat) (final : Engine σ τ)
    (execution : thread cls mux env count
      (construct io fun socket => Socket.construct (subs socket)) = some final)
    (socket : SocketPtr) (once : (adds final.trace).count socket ≤ 1)
    (entered : socket ∈ adds (beforeSwap final.trace)) :
    (final.heap socket).log.filter Socket.IsCallback = [.onDisconnect] := by
  have disconnected := (Accounted.of_thread execution entered).disconnects_count once
  simp only [thread, Option.bind_eq_bind, Option.bind_eq_some_iff] at execution
  obtain ⟨served, looped, ended⟩ := execution
  have none := construct_noneConnected io subs
  have unserved := (Unserved.rounds none looped).trans (Unserved.afterThread mux ended)
  obtain ⟨events, trace_eq, -, objects⟩ := unserved.trace
  obtain ⟨shown, log_eq, unserving, told⟩ := (objects socket).shown
  have trace_eq : final.trace = events := trace_eq
  have log_eq : (final.heap socket).log = shown := log_eq
  rw [log_eq, Socket.callbacks_of_unserving unserving, told, ← trace_eq, disconnected]
  rfl

theorem told_once_addAndConnect :
    ∃ final : Engine (Transmission Unit) Unit,
      thread (Transmission.socketClass SocketHandler.sink) idleMux addAndConnect 1
        (construct () fun _ => Socket.construct (Transmission.construct ()).sub) = some final ∧
      (final.heap 3).log.filter Socket.IsCallback = [.onDisconnect] := by
  have traced : (thread (Transmission.socketClass SocketHandler.sink) idleMux addAndConnect 1
      (construct () fun _ => Socket.construct (Transmission.construct ()).sub)).map Engine.trace =
      some [.lock .other, .added 1 3, .unlock .other, .lock .worker, .lock .worker,
        .unlock .worker, .called .connect 3, .lock .worker, .swapped, .unlock .worker,
        .called .disconnect 3] := rfl
  obtain ⟨final, execution, trace_eq⟩ := Option.map_eq_some_iff.mp traced
  refine ⟨final, execution, told_once _ idleMux addAndConnect () _ 1 final execution 3 ?_ ?_⟩
  · rw [trace_eq]
    decide
  · rw [trace_eq]
    decide

end Engine
end NetworkBase
