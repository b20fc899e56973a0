import NetworkBase.Engine.Observation
import NetworkBase.Transport.StatusOrder

/-!
# Every socket is disconnected once

A socket that enters the engine is in `sockets_`, among those the worker is about to disconnect, or
disconnected.  Every step of the worker moves it along this way or leaves it where it is, and the
worker calls only sockets that have not come to its end.
-/

namespace NetworkBase
namespace Engine

variable {σ ι τ : Type} {cls : SocketClass σ ι} {mux : IoMultiplexing τ} {env : Environment ι}

/-- The sockets that came into `sockets_`. -/
def adds (trace : List EngineEvent) : List SocketPtr := (admitted trace).map Prod.snd

/-- The socket an event disconnects. -/
def disconnectedSocket : EngineEvent → Option SocketPtr
  | .called .disconnect socket => some socket
  | _ => none

/-- The calls of `RealDisconnect`. -/
def disconnects (trace : List EngineEvent) : List SocketPtr := trace.filterMap disconnectedSocket

/-- After a `RealDisconnect` of the socket the engine does not call it again. -/
def QuietAfter (socket : SocketPtr) (trace : List EngineEvent) : Prop :=
  trace.Pairwise fun first second =>
    first = .called .disconnect socket → ∀ call, second ≠ .called call socket

theorem mem_disconnects {socket : SocketPtr} {trace : List EngineEvent} :
    socket ∈ disconnects trace ↔ .called .disconnect socket ∈ trace := by
  rw [disconnects, List.mem_filterMap]
  constructor
  · rintro ⟨event, mem, named⟩
    have event_eq : event = .called .disconnect socket := by
      cases event with
      | called call other =>
          cases call with
          | disconnect => simpa [disconnectedSocket] using named
          | _ => simp [disconnectedSocket] at named
      | _ => simp [disconnectedSocket] at named
    exact event_eq ▸ mem
  · intro mem
    exact ⟨_, mem, rfl⟩

theorem disconnects_of_passive {events : List EngineEvent}
    (passive : ∀ event ∈ events, Passive event) : disconnects events = [] := by
  rw [disconnects, List.filterMap_eq_nil_iff]
  intro event mem
  cases event with
  | called call socket => exact absurd rfl (passive _ mem call socket)
  | _ => rfl

/-- Events that do not call the socket keep it quiet. -/
theorem QuietAfter.append {socket : SocketPtr} {trace events : List EngineEvent}
    (quiet : QuietAfter socket trace)
    (silent : ∀ event ∈ events, ∀ call, event ≠ .called call socket) :
    QuietAfter socket (trace ++ events) := by
  rw [QuietAfter, List.pairwise_append]
  refine ⟨quiet, ?_, ?_⟩
  · refine List.Pairwise.imp_of_mem (R := fun _ _ => True) ?_ (List.pairwise_of_forall (by simp))
    intro first second _ second_mem _ _
    exact silent second second_mem
  · intro first _ second second_mem _
    exact silent second second_mem

/-- The books of one socket: what entered the engine is in `sockets_`, about to be disconnected or
disconnected, and at least `owed` times one of the last two. -/
structure Accounted (socket : SocketPtr) (owed : Nat) (snapshot pending : List SocketPtr)
    (engine : Engine σ τ) : Prop where
  present : ∀ other ∈ snapshot, other ∈ engine.sockets.values
  balance : engine.sockets.values.count socket + pending.count socket +
    (disconnects engine.trace).count socket = (adds engine.trace).count socket
  enough : owed ≤ pending.count socket + (disconnects engine.trace).count socket
  quiet : (adds engine.trace).count socket ≤ 1 → QuietAfter socket engine.trace

namespace Accounted

variable {socket other : SocketPtr} {owed : Nat} {snapshot pending : List SocketPtr}
  {before after engine : Engine σ τ}

theorem construct (socket : SocketPtr) (io : τ) (heap : SocketPtr → Socket σ) :
    Accounted socket 0 [] [] (Engine.construct io heap) where
  present _ mem := absurd mem List.not_mem_nil
  balance := rfl
  enough := Nat.zero_le _
  quiet _ := List.Pairwise.nil

/-- What happens outside the calls keeps the books. -/
theorem grown (accounted : Accounted socket owed snapshot pending before)
    (grown : Grown before after) : Accounted socket owed snapshot pending after := by
  obtain ⟨events, trace_eq, passive, values_eq⟩ := grown.values_eq
  have no_disconnect : disconnects after.trace = disconnects before.trace := by
    rw [trace_eq, disconnects, List.filterMap_append, ← disconnects, ← disconnects,
      disconnects_of_passive passive, List.append_nil]
  have adds_eq : adds after.trace = adds before.trace ++ (admitted events).map Prod.snd := by
    rw [trace_eq, adds, admitted_append, List.map_append, ← adds]
  refine ⟨?_, ?_, ?_, ?_⟩
  · intro named mem
    rw [values_eq]
    exact List.mem_append_left _ (accounted.present named mem)
  · rw [values_eq, no_disconnect, adds_eq, List.count_append, List.count_append,
      ← accounted.balance]
    omega
  · rw [no_disconnect]
    exact accounted.enough
  · intro once
    rw [adds_eq, List.count_append] at once
    rw [trace_eq]
    refine (accounted.quiet (by omega)).append ?_
    intro event mem call
    exact passive event mem call socket

/-- A socket that is on its way entered the engine. -/
theorem entered (accounted : Accounted socket owed snapshot pending engine)
    (alive : socket ∈ engine.sockets.values ++ pending) : socket ∈ adds engine.trace := by
  have counted := List.count_pos_iff.mpr alive
  have balance := accounted.balance
  rw [List.count_append] at counted
  exact List.count_pos_iff.mp (by omega)

/-- A socket that was added once and is on its way was not disconnected. -/
theorem not_disconnected (accounted : Accounted socket owed snapshot pending engine)
    (alive : socket ∈ engine.sockets.values ++ pending)
    (once : (adds engine.trace).count socket ≤ 1) : socket ∉ disconnects engine.trace := by
  have counted := List.count_pos_iff.mpr alive
  have balance := accounted.balance
  rw [List.count_append] at counted
  exact List.count_eq_zero.mp (by omega)

/-- A socket that was added once and is in `sockets_` is not about to be disconnected. -/
theorem not_pending (accounted : Accounted socket owed snapshot pending engine)
    (present : socket ∈ engine.sockets.values)
    (once : (adds engine.trace).count socket ≤ 1) : socket ∉ pending := by
  have counted := List.count_pos_iff.mpr present
  have balance := accounted.balance
  exact List.count_eq_zero.mp (by omega)

/-- A call on a socket that has not come to the end of its way. -/
theorem quiet_called (accounted : Accounted socket owed snapshot pending engine)
    (call : RealCall) (alive : other ∈ engine.sockets.values ++ pending)
    (once : (adds engine.trace).count socket ≤ 1) :
    QuietAfter socket (engine.trace ++ [.called call other]) := by
  by_cases same : other = socket
  · subst same
    have never : .called .disconnect other ∉ engine.trace :=
      fun mem => accounted.not_disconnected alive once (mem_disconnects.mpr mem)
    rw [QuietAfter, List.pairwise_append]
    refine ⟨accounted.quiet once, List.pairwise_singleton _ _, ?_⟩
    rintro first mem - - rfl
    exact absurd mem never
  · refine (accounted.quiet once).append ?_
    intro event mem call' called
    rw [List.mem_singleton.mp mem] at called
    injection called with _ named
    exact same named

/-- A call that is no `RealDisconnect` on a socket of the snapshot. -/
theorem called (accounted : Accounted socket owed snapshot pending engine) {call : RealCall}
    (keeps : call ≠ .disconnect) (mem : other ∈ snapshot) :
    Accounted socket owed snapshot pending (engine.record (.called call other)) := by
  have no_disconnect : disconnects (engine.record (.called call other)).trace =
      disconnects engine.trace := by
    cases call with
    | disconnect => exact absurd rfl keeps
    | _ => simp [disconnects, Engine.record, disconnectedSocket]
  have adds_eq : adds (engine.record (.called call other)).trace = adds engine.trace := by
    simp [adds, admitted, Engine.record, admittedEntry]
  refine ⟨accounted.present, ?_, ?_, ?_⟩
  · rw [no_disconnect, adds_eq]
    exact accounted.balance
  · rw [no_disconnect]
    exact accounted.enough
  · rw [adds_eq]
    exact accounted.quiet_called call (List.mem_append_left _ (accounted.present other mem))

/-- The `RealDisconnect` of the next pending socket. -/
theorem disconnected (accounted : Accounted socket owed snapshot (other :: pending) engine) :
    Accounted socket owed snapshot pending
      (engine.record (.called .disconnect other)) := by
  have disconnects_eq : disconnects (engine.record (.called .disconnect other)).trace =
      disconnects engine.trace ++ [other] := by
    simp [disconnects, Engine.record, disconnectedSocket]
  have adds_eq : adds (engine.record (.called .disconnect other)).trace = adds engine.trace := by
    simp [adds, admitted, Engine.record, admittedEntry]
  have moved : pending.count socket + (disconnects engine.trace ++ [other]).count socket =
      (other :: pending).count socket + (disconnects engine.trace).count socket := by
    simp only [List.count_append, List.count_cons, List.count_nil]
    omega
  refine ⟨accounted.present, ?_, ?_, ?_⟩
  · rw [disconnects_eq, adds_eq, Nat.add_assoc, moved, ← Nat.add_assoc]
    exact accounted.balance
  · rw [disconnects_eq, moved]
    exact accounted.enough
  · rw [adds_eq]
    exact accounted.quiet_called .disconnect
      (List.mem_append_right _ (List.mem_cons_self ..))

theorem callSocket {call : RealCall} {method : Socket σ → Option (Socket σ)}
    (accounted : Accounted socket owed snapshot pending before) (keeps : call ≠ .disconnect)
    (mem : other ∈ snapshot)
    (execution : callSocket cls env call method other before = some after) :
    Accounted socket owed snapshot pending after :=
  (accounted.called keeps mem).grown (grown_of_callSocket execution)

theorem realDisconnect (accounted : Accounted socket owed snapshot (other :: pending) before)
    (execution : realDisconnect cls env other before = some after) :
    Accounted socket owed snapshot pending after :=
  accounted.disconnected.grown (grown_of_callSocket execution)

/-! ## The loops of `readThread` -/

theorem closeInvalid {entries : List (Nat × SocketPtr)}
    (accounted : Accounted socket owed snapshot (entries.map Prod.snd) before)
    (execution : closeInvalid cls mux env entries before = some after) :
    Accounted socket owed snapshot [] after := by
  induction entries generalizing before with
  | nil =>
      cases execution
      exact accounted
  | cons entry entries ih =>
      simp only [Engine.closeInvalid, Option.bind_eq_bind, Option.bind_eq_some_iff] at execution
      obtain ⟨first, interrupted, second, disconnected, rest⟩ := execution
      have deleted := accounted.grown ((Grown.interrupt interrupted).trans
        (Grown.deleteFd mux (if (first.heap entry.2).fd < 0 then 1 else 0) first))
      exact ih (deleted.realDisconnect disconnected) rest

/-- Calls on the sockets of the snapshot that are no `RealDisconnect` keep the books. -/
theorem follows (cls : SocketClass σ ι) (mux : IoMultiplexing τ) (env : Environment ι)
    (socket : SocketPtr) (owed : Nat) (snapshot pending : List SocketPtr) :
    Follows cls mux env (fun call other => call ≠ .disconnect ∧ other ∈ snapshot)
      fun (before after : Engine σ τ) => Accounted socket owed snapshot pending before →
        Accounted socket owed snapshot pending after where
  refl _ := id
  trans _ _ _ first second := second ∘ first
  interrupt _ _ execution accounted := accounted.grown (Grown.interrupt execution)
  deleteFd fd engine accounted := accounted.grown (Grown.deleteFd mux fd engine)
  addFd fd engine accounted := accounted.grown (Grown.addFd mux fd engine)
  dispatch timeOutMs engine accounted := accounted.grown (Grown.dispatch mux timeOutMs engine)
  fdCheck fd engine accounted := accounted.grown (Grown.fdCheck mux fd engine)
  connect _ _ _ listed execution accounted := accounted.callSocket listed.1 listed.2 execution
  disconnect _ _ _ listed _ _ := absurd rfl listed.1
  write _ _ _ listed execution accounted := accounted.callSocket listed.1 listed.2 execution
  read _ _ _ listed execution accounted := accounted.callSocket listed.1 listed.2 execution

/-- The snapshot may be forgotten, and replaced by sockets of `sockets_`. -/
theorem restart (accounted : Accounted socket owed snapshot pending engine)
    {fresh : List SocketPtr} (present : ∀ other ∈ fresh, other ∈ engine.sockets.values) :
    Accounted socket owed fresh pending engine :=
  ⟨present, accounted.balance, accounted.enough, accounted.quiet⟩

/-- The scan moves the disconnected sockets from `sockets_` to the pending ones. -/
theorem scanned {found : Scan} (accounted : Accounted socket owed [] [] before)
    (books : Scanned before [] found after) :
    Accounted socket owed [] found.disconnect.values after := by
  have counts := books.values.count_eq socket
  have balance := accounted.balance
  have enough := accounted.enough
  rw [List.append_nil, List.count_append] at counts
  rw [List.count_nil] at balance enough
  refine ⟨by simp, ?_, ?_, ?_⟩
  · rw [books.trace, ← balance, counts]
    omega
  · rw [books.trace]
    omega
  · rw [books.trace]
    exact accounted.quiet

/-- A round that found sockets leaves none pending. -/
theorem round {seen : List (Status × Nat × SocketPtr)} {found : Scan} {ret : Int}
    {awake scanned closed started : Engine σ τ} (accounted : Accounted socket owed [] [] before)
    (round : Round cls mux env seen found ret before awake scanned closed started after) :
    Accounted socket owed [] [] after := by
  have present : ∀ other ∈ found.startConnect.values ++ found.connected.values,
      other ∈ scanned.sockets.values := by
    intro other mem
    rcases List.mem_append.mp mem with started | connected
    · obtain ⟨entry, entry_mem, rfl⟩ := List.mem_map.mp started
      exact List.mem_map_of_mem (round.books.sifted.startConnect entry entry_mem).1
    · obtain ⟨entry, entry_mem, rfl⟩ := List.mem_map.mp connected
      exact List.mem_map_of_mem (round.books.sifted.connected entry entry_mem).1
  have locked := (accounted.grown (Grown.wake round.woken)).grown (Grown.lock .worker awake)
  have unlocked := ((locked.scanned round.books).restart present).grown
    (Grown.unlock .worker scanned)
  have after_close := unlocked.closeInvalid round.closing
  have keeps := follows cls mux env socket owed
    (found.startConnect.values ++ found.connected.values) []
  have after_start := keeps.startConnects
    (fun entry mem => ⟨by decide, List.mem_append_left _ (List.mem_map_of_mem mem)⟩)
    round.starting after_close
  have connected_listed : ∀ entry ∈ found.connected.entries,
      entry.2 ∈ found.startConnect.values ++ found.connected.values :=
    fun entry mem => List.mem_append_right _ (List.mem_map_of_mem mem)
  have served := keeps.dispatchReady
    (fun entry mem => ⟨⟨by decide, connected_listed entry mem⟩,
      ⟨by decide, connected_listed entry mem⟩⟩) round.serving after_start
  exact served.restart (by simp)

/-- A round of the worker keeps the books, and leaves no socket pending. -/
theorem readThread {ret : Int} (accounted : Accounted socket owed [] [] before)
    (execution : readThread cls mux env before = some (ret, after)) :
    Accounted socket owed [] [] after := by
  rcases readThread_cases execution with ⟨awake, woken, -, -, waited⟩ |
    ⟨seen, found, awake, scanned, closed, started, round⟩
  · have unlocked := (accounted.grown (Grown.wake woken)).grown (Grown.unlock .worker awake)
    exact unlocked.grown (Grown.waitForSockets waited)
  · exact accounted.round round

theorem rounds {count : Nat} (accounted : Accounted socket owed [] [] before)
    (execution : rounds cls mux env count before = some after) :
    Accounted socket owed [] [] after := by
  induction count generalizing before with
  | zero =>
      cases execution
      exact accounted
  | succ count ih =>
      simp only [Engine.rounds, Option.bind_eq_bind, Option.bind_eq_some_iff] at execution
      obtain ⟨⟨ret, middle⟩, round, execution⟩ := execution
      have after_round := accounted.readThread round
      split at execution
      · cases execution
        exact after_round
      · exact ih after_round execution

/-! ## `afterThread` -/

theorem closeAll {entries : List (Nat × SocketPtr)}
    (accounted : Accounted socket owed snapshot (entries.map Prod.snd) before)
    (execution : closeAll cls env entries before = some after) :
    Accounted socket owed snapshot [] after := by
  induction entries generalizing before with
  | nil =>
      cases execution
      exact accounted
  | cons entry entries ih =>
      simp only [Engine.closeAll, Option.bind_eq_bind, Option.bind_eq_some_iff] at execution
      obtain ⟨first, interrupted, second, interrupted', third, disconnected, rest⟩ := execution
      have closed : Grown first (first.store entry.2 (first.heap entry.2).close) :=
        Grown.of_same rfl rfl rfl
      have disturbed := accounted.grown
        ((Grown.interrupt interrupted).trans (closed.trans (Grown.interrupt interrupted')))
      exact ih (disturbed.realDisconnect disconnected) rest

/-- A socket that entered before the swap is then about to be disconnected, or was before. -/
theorem swapOut (accounted : Accounted socket 0 [] [] engine)
    (added : socket ∈ adds engine.trace) :
    Accounted socket 1 [] engine.swapOut.1.values engine.swapOut.2 := by
  have trace_eq : engine.swapOut.2.trace =
      engine.trace ++ [.lock .worker, .swapped, .unlock .worker] := by
    simp [Engine.swapOut, Engine.lock, Engine.unlock, Engine.record]
  have disconnects_eq : disconnects engine.swapOut.2.trace = disconnects engine.trace := by
    simp [trace_eq, disconnects, disconnectedSocket]
  have adds_eq : adds engine.swapOut.2.trace = adds engine.trace := by
    simp [trace_eq, adds, admitted, admittedEntry]
  have entered : 0 < (adds engine.trace).count socket := List.count_pos_iff.mpr added
  have balance : engine.sockets.values.count socket + (disconnects engine.trace).count socket =
      (adds engine.trace).count socket := by
    simpa using accounted.balance
  refine ⟨by simp, ?_, ?_, ?_⟩
  · rw [disconnects_eq, adds_eq, ← balance]
    show 0 + engine.sockets.values.count socket + _ = _
    rw [Nat.zero_add]
  · rw [disconnects_eq]
    show 1 ≤ engine.sockets.values.count socket + _
    omega
  · rw [adds_eq, trace_eq]
    intro once
    refine (accounted.quiet once).append ?_
    simp

end Accounted

/-- The part of a trace before `afterThread` takes the sockets out. -/
def beforeSwap (trace : List EngineEvent) : List EngineEvent := trace.takeWhile (· ≠ .swapped)

theorem beforeSwap_sublist (early late : List EngineEvent) :
    (beforeSwap (early ++ .swapped :: late)).Sublist early := by
  rw [beforeSwap]
  induction early with
  | nil => simp
  | cons event early ih =>
      rw [List.cons_append, List.takeWhile_cons]
      split
      · exact ih.cons_cons event
      · exact List.nil_sublist _

/-- When the worker has ended, the books of a socket that entered the engine before the swap are
closed. -/
theorem Accounted.of_thread {io : τ} {heap : SocketPtr → Socket σ} {count : Nat}
    {final : Engine σ τ}
    (execution : thread cls mux env count (Engine.construct io heap) = some final)
    {socket : SocketPtr} (entered : socket ∈ adds (beforeSwap final.trace)) :
    Accounted socket 1 [] [] final := by
  simp only [thread, afterThread, Option.bind_eq_bind, Option.bind_eq_some_iff] at execution
  obtain ⟨served, looped, swapped, interrupted, closed⟩ := execution
  have before_swap : Accounted socket 0 [] [] swapped :=
    ((Accounted.construct socket io heap).rounds looped).grown (Grown.interrupt interrupted)
  have ended_later : Progress swapped.swapOut.2 final :=
    (Progress.follows cls mux env).closeAll
      (fun _ _ => Progress.of_grown (Grown.of_same rfl rfl rfl)) (fun _ _ => trivial) closed
  obtain ⟨late, trace_eq⟩ := ended_later.trace
  have split_eq : final.trace = (swapped.trace ++ [.lock .worker]) ++
      .swapped :: (.unlock .worker :: late) := by
    rw [← trace_eq]
    simp [Engine.swapOut, Engine.lock, Engine.unlock, Engine.record]
  have added : socket ∈ adds swapped.trace := by
    rw [split_eq] at entered
    have earlier := (((beforeSwap_sublist _ _).filterMap admittedEntry).map Prod.snd).subset entered
    simpa [adds, admitted, admittedEntry] using earlier
  exact (before_swap.swapOut added).closeAll closed

/-- A socket that entered the engine once, before the swap, is in the end disconnected. -/
theorem Accounted.disconnects_count {socket : SocketPtr} {final : Engine σ τ}
    (books : Accounted socket 1 [] [] final) (once : (adds final.trace).count socket ≤ 1) :
    (disconnects final.trace).count socket = 1 := by
  have balance := books.balance
  have enough := books.enough
  rw [List.count_nil] at balance enough
  omega

/-- Whatever happens meanwhile, when the worker has ended every socket that entered the engine
before the swap, and entered it once, was disconnected exactly once and not called afterwards. -/
theorem disconnected_once (cls : SocketClass σ ι) (mux : IoMultiplexing τ) (env : Environment ι)
    (io : τ) (heap : SocketPtr → Socket σ) (count : Nat) (final : Engine σ τ)
    (execution : thread cls mux env count (construct io heap) = some final) (socket : SocketPtr)
    (once : (adds final.trace).count socket ≤ 1)
    (entered : socket ∈ adds (beforeSwap final.trace)) :
    (disconnects final.trace).count socket = 1 ∧ QuietAfter socket final.trace := by
  have books := Accounted.of_thread execution entered
  exact ⟨books.disconnects_count once, books.quiet once⟩

/-- Another thread adds a socket and starts its connection while the worker sleeps. -/
def addAndConnect : Environment WriteResult where
  others time :=
    if time = 0 then
      [.add 3 (.accepts 1), .call 3 (.setIpPort [49, 46, 50, 46, 51, 46, 52] 80),
        .call 3 (.connect 0 0)]
    else []
  callbacks _ := []
  connect _ := Socket.obligingKernel
  soError _ := .clear
  write _ := .accepts 0
  read _ := []
  drain _ := []

/-- A multiplexer that finds nothing. -/
def idleMux : IoMultiplexing Unit where
  addFd _ _ _ _ := (0, ())
  deleteFd _ _ := (0, ())
  dispatch _ _ _ := (0, ())
  sleep _ _ := (0, ())
  fdCheck _ _ := ((0, false, false), ())

theorem disconnected_once_addAndConnect :
    ∃ final : Engine (Transmission Unit) Unit,
      thread (Transmission.socketClass SocketHandler.sink) idleMux addAndConnect 1
        (construct () fun _ => Transmission.construct ()) = some final ∧
      (disconnects final.trace).count 3 = 1 ∧ QuietAfter 3 final.trace := by
  have traced : (thread (Transmission.socketClass SocketHandler.sink) idleMux addAndConnect 1
      (construct () fun _ => Transmission.construct ())).map Engine.trace =
      some [.lock .other, .added 1 3, .unlock .other, .lock .worker, .lock .worker,
        .unlock .worker, .called .connect 3, .lock .worker, .swapped, .unlock .worker,
        .called .disconnect 3] := rfl
  obtain ⟨final, execution, trace_eq⟩ := Option.map_eq_some_iff.mp traced
  refine ⟨final, execution,
    disconnected_once _ idleMux addAndConnect () _ 1 final execution 3 ?_ ?_⟩
  · rw [trace_eq]
    decide
  · rw [trace_eq]
    decide

end Engine
end NetworkBase
