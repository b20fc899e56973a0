import NetworkBase.Engine.Disconnects

/-!
# The mutex of the engine

The trace of a call shows when its thread takes and releases the mutex and when it calls into a
socket.  A ghost run over this trace is undefined where the thread would block on itself, release
what it does not hold, or call a socket while it holds the mutex.  Every call passes it but a
`readThread` that finds sockets, which locks twice.
-/

namespace NetworkBase
namespace Engine

variable {σ ι τ : Type} {cls : SocketClass σ ι} {mux : IoMultiplexing τ} {env : Environment ι}

/-- What an event means for a thread that holds the mutex or does not.  Only the worker calls into
sockets. -/
def lockStep (thread : ThreadId) : EngineEvent → Bool → Option Bool
  | .lock taker, held => if taker = thread then if held then none else some true else some held
  | .unlock holder, held => if holder = thread then if held then some false else none else some held
  | .called _ _, held => if thread = .worker ∧ held = true then none else some held
  | _, held => some held

/-- The events of a call that keeps the discipline, from release to release. -/
def Disciplined (thread : ThreadId) (events : List EngineEvent) : Prop :=
  PartialRun.run (lockStep thread) events false = some false

/-- What happened from one state to the other leads a thread from one side of the mutex to the
other without a breach. -/
def Locks (thread : ThreadId) (held released : Bool) (before after : Engine σ τ) : Prop :=
  ∃ events, after.trace = before.trace ++ events ∧
    PartialRun.run (lockStep thread) events held = some released

namespace Locks

variable {thread : ThreadId} {first second third : Bool} {before middle after : Engine σ τ}

/-- Nothing shown, nothing changed. -/
theorem of_trace_eq (held : Bool) (trace_eq : after.trace = before.trace) :
    Locks thread held held before after :=
  ⟨[], trace_eq.trans (List.append_nil _).symm, rfl⟩

theorem trans (early : Locks thread first second before middle)
    (late : Locks thread second third middle after) : Locks thread first third before after := by
  obtain ⟨early_events, early_eq, early_run⟩ := early
  obtain ⟨late_events, late_eq, late_run⟩ := late
  refine ⟨early_events ++ late_events, by rw [late_eq, early_eq, List.append_assoc], ?_⟩
  rw [PartialRun.run_append, early_run]
  exact late_run

theorem record {event : EngineEvent} {engine : Engine σ τ}
    (step : lockStep thread event first = some second) :
    Locks thread first second engine (engine.record event) :=
  ⟨[event], rfl, by rw [PartialRun.run_cons, step]; rfl⟩

theorem lock (engine : Engine σ τ) : Locks thread false true engine (engine.lock thread) :=
  record (by simp [lockStep])

theorem unlock (engine : Engine σ τ) : Locks thread true false engine (engine.unlock thread) :=
  record (by simp [lockStep])

/-- `Add` takes and releases the mutex, whoever calls it. -/
theorem add (taker : ThreadId) (socket : SocketPtr) (wake : WriteResult)
    (engine : Engine σ τ) : Locks thread false false engine (engine.add taker socket wake).2 := by
  refine ⟨[.lock taker, .added (engine.fd + 1) socket, .unlock taker], ?_, ?_⟩
  · simp [Engine.add, insertNext, Engine.lock, Engine.unlock, Engine.record]
  · cases taker <;> cases thread <;> rfl

/-- `Query` takes and releases the mutex, whoever calls it. -/
theorem query (taker : ThreadId) (fd : Nat) (engine : Engine σ τ) :
    Locks thread false false engine (engine.query taker fd).2 := by
  refine ⟨[.lock taker, .unlock taker], ?_, ?_⟩
  · rw [snd_query]
    simp [Engine.lock, Engine.unlock, Engine.record]
  · cases taker <;> cases thread <;> rfl

/-- Other threads and callbacks release the mutex again. -/
theorem allows (cls : SocketClass σ ι) (thread : ThreadId) :
    Allows cls (Locks thread false false : Engine σ τ → Engine σ τ → Prop) where
  refl _ := of_trace_eq _ rfl
  trans _ _ _ := trans
  act taker action before after step := by
    cases action with
    | add socket wake =>
        cases step
        exact add taker socket wake before
    | query fd =>
        cases step
        exact query taker fd before
    | call socket call =>
        rw [act, Option.map_eq_some_iff] at step
        obtain ⟨object, -, rfl⟩ := step
        exact of_trace_eq _ rfl
  tick _ := of_trace_eq _ rfl

theorem interrupt (execution : interrupt cls env before = some after) :
    Locks thread false false before after := (allows cls thread).interrupt execution

/-- A socket is called without the mutex, so its callbacks may call the engine. -/
theorem callSocket {call : RealCall} {method : Socket σ → Option (Socket σ)} {socket : SocketPtr}
    (execution : callSocket cls env call method socket before = some after) :
    Locks thread false false before after := by
  have called : Locks thread false false before (before.record (.called call socket)) :=
    record (by simp [lockStep])
  exact called.trans ((allows cls thread).callSocket (fun _ _ _ => of_trace_eq _ rfl) execution)

theorem deleteFd (mux : IoMultiplexing τ) (fd : Int) (engine : Engine σ τ) :
    Locks thread false false engine (deleteFd mux fd engine).2 :=
  ⟨[.deleteFd fd (mux.deleteFd fd engine.io).1], rfl, rfl⟩

theorem addFd (mux : IoMultiplexing τ) (fd : Int) (engine : Engine σ τ) :
    Locks thread false false engine (addFd mux fd engine).2 :=
  ⟨[.addFd fd (mux.addFd fd true true engine.io).1], rfl, rfl⟩

theorem dispatch (mux : IoMultiplexing τ) (held : Bool) (timeOutMs : Nat) (engine : Engine σ τ) :
    Locks thread held held engine (dispatch mux timeOutMs engine).2 := of_trace_eq _ rfl

theorem fdCheck (mux : IoMultiplexing τ) (held : Bool) (fd : Int) (engine : Engine σ τ) :
    Locks thread held held engine (fdCheck mux fd engine).2 := of_trace_eq _ rfl

/-! ## The parts of `readThread` -/

theorem wake (execution : wake cls mux env before = some after) :
    Locks .worker false true before after := by
  rw [Engine.wake, Option.bind_eq_bind, Option.bind_eq_some_iff] at execution
  obtain ⟨middle, interrupted, finished⟩ := execution
  cases finished
  have slept : Locks .worker false false before (sleep mux before) := of_trace_eq _ rfl
  exact (slept.trans (interrupt interrupted)).trans (lock middle)

theorem waitForSockets {ret : Int}
    (execution : waitForSockets cls mux env before = some (ret, after)) :
    Locks thread false false before after :=
  waitForSockets_keeps (Locks thread false false) (fun _ _ _ => trans) (fun _ _ => interrupt)
    (dispatch mux false) (fdCheck mux false) (fun _ _ => of_trace_eq _ rfl) execution

/-- Whatever the worker calls after the scan, it keeps away from the mutex. -/
theorem follows (cls : SocketClass σ ι) (mux : IoMultiplexing τ) (env : Environment ι)
    (thread : ThreadId) :
    Follows cls mux env (fun _ _ => True)
      (Locks thread false false : Engine σ τ → Engine σ τ → Prop) where
  refl _ := of_trace_eq _ rfl
  trans _ _ _ := trans
  interrupt _ _ := interrupt
  deleteFd fd engine := deleteFd mux fd engine
  addFd fd engine := addFd mux fd engine
  dispatch timeOutMs engine := dispatch mux false timeOutMs engine
  fdCheck fd engine := fdCheck mux false fd engine
  connect _ _ _ _ := callSocket
  disconnect _ _ _ _ := callSocket
  write _ _ _ _ := callSocket
  read _ _ _ _ := callSocket

/-- From its second lock on, `readThread` is disciplined. -/
theorem scanAndServe {ret : Int}
    (execution : scanAndServe cls mux env before = some (ret, after)) :
    Locks .worker true false (before.lock .worker) after := by
  simp only [Engine.scanAndServe, Option.bind_eq_bind, Option.bind_eq_some_iff] at execution
  obtain ⟨⟨matched, found, middle⟩, scanned, execution⟩ := execution
  obtain ⟨rfl, books⟩ := scan_spec (before.lock .worker).sockets.sorted
    (Sifted.start (before.lock .worker)) scanned
  rw [if_pos rfl] at execution
  have held : Locks .worker true true (before.lock .worker) middle := of_trace_eq _ books.trace
  exact (held.trans (unlock middle)).trans
    ((follows cls mux env .worker).serve (fun _ _ => trivial) execution)

theorem afterThread (mux : IoMultiplexing τ)
    (execution : afterThread cls env before = some after) :
    Locks .worker false false before after := by
  simp only [Engine.afterThread, Option.bind_eq_bind, Option.bind_eq_some_iff] at execution
  obtain ⟨middle, interrupted, closed⟩ := execution
  have swapped : Locks .worker false false middle middle.swapOut.2 :=
    ⟨[.lock .worker, .swapped, .unlock .worker],
      by simp [swapOut, Engine.lock, Engine.unlock, Engine.record], rfl⟩
  have closing : Locks .worker false false middle.swapOut.2 after :=
    (follows cls mux env .worker).closeAll (fun _ _ => of_trace_eq _ rfl)
      (fun _ _ => trivial) closed
  exact ((interrupt interrupted).trans swapped).trans closing

end Locks

/-- The functions of the engine that take the mutex. -/
inductive EngineCall
  | add (caller : ThreadId) (socket : SocketPtr) (wake : WriteResult)
  | query (caller : ThreadId) (fd : Nat)
  | readThread
  | afterThread

/-- The thread that makes the call. -/
def EngineCall.caller : EngineCall → ThreadId
  | .add caller _ _ => caller
  | .query caller _ => caller
  | .readThread => .worker
  | .afterThread => .worker

/-- One call of the engine. -/
def EngineCall.perform (cls : SocketClass σ ι) (mux : IoMultiplexing τ) (env : Environment ι) :
    EngineCall → Engine σ τ → Option (Engine σ τ)
  | .add caller socket wake, engine => some (engine.add caller socket wake).2
  | .query caller fd, engine => some (engine.query caller fd).2
  | .readThread, engine => (Engine.readThread cls mux env engine).map Prod.snd
  | .afterThread, engine => Engine.afterThread cls env engine

/-- The call is a `readThread` that finds sockets when it has taken the mutex. -/
def EngineCall.FindsSockets (cls : SocketClass σ ι) (mux : IoMultiplexing τ)
    (env : Environment ι) : EngineCall → Engine σ τ → Prop
  | .readThread, engine =>
      ∃ awake, wake cls mux env engine = some awake ∧ awake.sockets.entries ≠ []
  | _, _ => False

/-- What the caller did from one state to the other keeps the discipline. -/
def DisciplinedBetween (caller : ThreadId) (before after : Engine σ τ) : Prop :=
  ∃ events, after.trace = before.trace ++ events ∧ Disciplined caller events

/-- A thread that holds the mutex and locks it again breaches the discipline, whatever follows. -/
theorem not_disciplined_of_relock {before held after : Engine σ τ}
    (taken : Locks .worker false true before held)
    (relocked : Locks .worker true false (held.lock .worker) after) :
    ¬DisciplinedBetween .worker before after := by
  obtain ⟨early, early_eq, early_run⟩ := taken
  obtain ⟨late, late_eq, -⟩ := relocked
  rintro ⟨events, events_eq, disciplined⟩
  have trace_eq : after.trace = before.trace ++ (early ++ .lock .worker :: late) := by
    rw [late_eq]
    simp [lock, record, early_eq]
  obtain rfl := List.append_cancel_left (events_eq.symm.trans trace_eq)
  rw [Disciplined, PartialRun.run_append, early_run, Option.bind_some, PartialRun.run_cons]
    at disciplined
  simp [lockStep] at disciplined

/-- Every call keeps the lock discipline but a `readThread` that finds sockets, which never does. -/
theorem disciplined_iff (cls : SocketClass σ ι) (mux : IoMultiplexing τ) (env : Environment ι)
    (call : EngineCall) (before after : Engine σ τ)
    (execution : call.perform cls mux env before = some after) :
    DisciplinedBetween call.caller before after ↔ ¬call.FindsSockets cls mux env before := by
  cases call with
  | add caller socket wake =>
      cases execution
      exact iff_of_true (Locks.add caller socket wake before) id
  | query caller fd =>
      cases execution
      exact iff_of_true (Locks.query caller fd before) id
  | afterThread => exact iff_of_true (Locks.afterThread mux execution) id
  | readThread =>
      rw [EngineCall.perform, Option.map_eq_some_iff] at execution
      obtain ⟨⟨ret, final⟩, round, rfl⟩ := execution
      simp only [readThread, Option.bind_eq_bind, Option.bind_eq_some_iff] at round
      obtain ⟨awake, woken, round⟩ := round
      have taken := Locks.wake woken
      split at round
      · rename_i empty
        have released := (taken.trans (Locks.unlock awake)).trans (Locks.waitForSockets round)
        apply iff_of_true released
        rintro ⟨again, woken', nonempty⟩
        obtain rfl := Option.some.inj (woken.symm.trans woken')
        exact nonempty (List.isEmpty_iff.mp empty)
      · rename_i nonempty
        refine iff_of_false (not_disciplined_of_relock taken (Locks.scanAndServe round)) ?_
        intro none_found
        exact none_found ⟨awake, woken, fun empty => nonempty (List.isEmpty_iff.mpr empty)⟩

/-- Nobody acts meanwhile. -/
def alone : Environment WriteResult where
  others _ := []
  callbacks _ := []
  connect _ := Socket.obligingKernel
  soError _ := .clear
  write _ := .accepts 0
  read _ := []
  drain _ := []

/-- An engine with one socket, which nobody has connected yet. -/
def oneSocket : Engine (Transmission Unit) Unit :=
  ((construct () fun _ => Transmission.construct ()).add .other 3 (.accepts 1)).2

theorem disciplined_iff_oneSocket :
    ∃ after, EngineCall.perform (Transmission.socketClass SocketHandler.sink) idleMux alone
        .readThread oneSocket = some after ∧
      (DisciplinedBetween .worker oneSocket after ↔
        ¬EngineCall.FindsSockets (Transmission.socketClass SocketHandler.sink) idleMux alone
          .readThread oneSocket) :=
  ⟨_, rfl, disciplined_iff _ idleMux alone .readThread oneSocket _ rfl⟩

/-- With one socket in `sockets_`, `readThread` locks the mutex it holds. -/
theorem locks_twice :
    ∃ after, EngineCall.perform (Transmission.socketClass SocketHandler.sink) idleMux alone
        .readThread oneSocket = some after ∧
      after.trace = oneSocket.trace ++ [.lock .worker, .lock .worker, .unlock .worker] ∧
      ¬DisciplinedBetween .worker oneSocket after := by
  refine ⟨_, rfl, rfl, ?_⟩
  rintro ⟨events, events_eq, disciplined⟩
  have trace_eq : oneSocket.trace ++ events =
      oneSocket.trace ++ [.lock .worker, .lock .worker, .unlock .worker] := events_eq.symm
  obtain rfl := List.append_cancel_left trace_eq
  exact absurd disciplined (by rw [Disciplined]; decide)

end Engine
end NetworkBase
