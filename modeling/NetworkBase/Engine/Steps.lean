import NetworkBase.Engine.Engine

/-!
# What the steps of the engine do

Everything that happens outside the calls into sockets lets the map and the trace grow.  A relation
that each step of the worker satisfies holds over all its loops.
-/

namespace NetworkBase
namespace Engine

variable {σ ι τ : Type}

/-! ## Small facts -/

@[simp]
theorem heap_record (event : EngineEvent) (engine : Engine σ τ) :
    (engine.record event).heap = engine.heap := rfl

@[simp]
theorem heap_tick (engine : Engine σ τ) : engine.tick.heap = engine.heap := rfl

@[simp]
theorem heap_store_self (socket : SocketPtr) (next : Socket σ) (engine : Engine σ τ) :
    (engine.store socket next).heap socket = next := if_pos rfl

theorem heap_store_of_ne {socket other : SocketPtr} (differs : other ≠ socket) (next : Socket σ)
    (engine : Engine σ τ) : (engine.store socket next).heap other = engine.heap other :=
  if_neg differs

/-- `Query` takes the mutex and releases it. -/
theorem snd_query (thread : ThreadId) (fd : Nat) (engine : Engine σ τ) :
    (engine.query thread fd).2 = (engine.lock thread).unlock thread := by
  rw [query]
  split
  · rfl
  · rfl

/-! ## Rules for what others do -/

/-- A relation that holds from each state to the next while other threads and callbacks act. -/
structure Allows (cls : SocketClass σ ι) (rel : Engine σ τ → Engine σ τ → Prop) : Prop where
  refl : ∀ engine, rel engine engine
  trans : ∀ before middle after, rel before middle → rel middle after → rel before after
  act : ∀ thread action before after, act cls thread action before = some after → rel before after
  tick : ∀ engine : Engine σ τ, rel engine engine.tick

namespace Allows

variable {cls : SocketClass σ ι} {env : Environment ι} {rel : Engine σ τ → Engine σ τ → Prop}
  {before after : Engine σ τ}

theorem acts (allows : Allows cls rel) {thread : ThreadId} {actions : List UserAction}
    (execution : acts cls thread actions before = some after) : rel before after :=
  PartialRun.invariant (rel before)
    (fun action middle next held step =>
      allows.trans _ _ _ held (allows.act thread action middle next step))
    execution (allows.refl before)

theorem interrupt (allows : Allows cls rel)
    (execution : interrupt cls env before = some after) : rel before after := by
  rw [Engine.interrupt, Option.map_eq_some_iff] at execution
  obtain ⟨middle, acted, rfl⟩ := execution
  exact allows.trans _ _ _ (allows.acts acted) (allows.tick middle)

theorem interruptLocked (allows : Allows cls rel)
    (execution : interruptLocked cls env before = some after) : rel before after := by
  rw [Engine.interruptLocked, Option.map_eq_some_iff] at execution
  obtain ⟨middle, acted, rfl⟩ := execution
  exact allows.trans _ _ _ (allows.acts acted) (allows.tick middle)

/-- A call into a socket shows the call, changes the socket, and then its callbacks act. -/
theorem callSocket (allows : Allows cls rel)
    (stored : ∀ socket next (engine : Engine σ τ), rel engine (engine.store socket next))
    {call : RealCall} {method : Socket σ → Option (Socket σ)} {socket : SocketPtr}
    (execution : callSocket cls env call method socket before = some after) :
    rel (before.record (.called call socket)) after := by
  simp only [Engine.callSocket, Option.bind_eq_bind, Option.bind_eq_some_iff] at execution
  obtain ⟨next, -, middle, acted, finished⟩ := execution
  cases finished
  have called := stored socket next (before.record (.called call socket))
  exact allows.trans _ _ _ called (allows.trans _ _ _ (allows.acts acted) (allows.tick middle))

end Allows

section Time

variable {cls : SocketClass σ ι} {env : Environment ι} {before after : Engine σ τ}

theorem act_time {thread : ThreadId} {action : UserAction}
    (step : act cls thread action before = some after) : after.time = before.time := by
  cases action with
  | add socket wake =>
      cases step
      rfl
  | query fd =>
      cases step
      rw [snd_query]
      rfl
  | call socket call =>
      rw [act, Option.map_eq_some_iff] at step
      obtain ⟨object, -, rfl⟩ := step
      rfl

theorem acts_time {thread : ThreadId} {actions : List UserAction}
    (execution : acts cls thread actions before = some after) : after.time = before.time :=
  PartialRun.invariant (fun engine : Engine σ τ => engine.time = before.time)
    (fun _ _ _ same step => (act_time step).trans same) execution rfl

/-- Time goes on while other threads and callbacks act. -/
theorem allows_time (cls : SocketClass σ ι) :
    Allows cls fun (before after : Engine σ τ) => before.time ≤ after.time where
  refl _ := Nat.le_refl _
  trans _ _ _ := Nat.le_trans
  act _ _ _ _ step := (act_time step).ge
  tick _ := Nat.le_succ _

/-- A call into a socket takes one moment. -/
theorem callSocket_time {call : RealCall} {method : Socket σ → Option (Socket σ)}
    {socket : SocketPtr} (execution : callSocket cls env call method socket before = some after) :
    after.time = before.time + 1 := by
  simp only [callSocket, Option.bind_eq_bind, Option.bind_eq_some_iff] at execution
  obtain ⟨next, -, middle, acted, finished⟩ := execution
  cases finished
  have acted_time := acts_time acted
  exact congrArg Nat.succ acted_time

end Time

/-! ## The worker without sockets -/

/-- A relation that holds from each state of a waiting worker to the next. -/
theorem waitForSockets_keeps {cls : SocketClass σ ι} {mux : IoMultiplexing τ} {env : Environment ι}
    (rel : Engine σ τ → Engine σ τ → Prop)
    (trans : ∀ before middle after, rel before middle → rel middle after → rel before after)
    (interrupted : ∀ before after, interrupt cls env before = some after → rel before after)
    (dispatched : ∀ timeOutMs engine, rel engine (dispatch mux timeOutMs engine).2)
    (checked : ∀ fd engine, rel engine (fdCheck mux fd engine).2)
    (drained : ∀ reads (engine : Engine σ τ),
      rel engine { engine with pair := engine.pair.readable reads })
    {before after : Engine σ τ} {ret : Int}
    (execution : waitForSockets cls mux env before = some (ret, after)) : rel before after := by
  simp only [waitForSockets, Option.bind_eq_bind, Option.bind_eq_some_iff] at execution
  obtain ⟨first, early, second, late, execution⟩ := execution
  have waited : rel before second :=
    trans _ _ _ (interrupted _ _ early)
      (trans _ _ _ (dispatched kMaxSleepMs first) (interrupted _ _ late))
  split at execution
  · cases execution
    exact waited
  split at execution
  · cases execution
    exact waited
  have asked := trans _ _ _ waited (checked second.pair.getReadFd second)
  split at execution
  · cases execution
    exact asked
  split at execution
  · cases execution
    exact trans _ _ _ asked (drained _ _)
  · cases execution
    exact asked

/-! ## What happens outside the calls into sockets -/

/-- The entry an event puts into `sockets_`. -/
def admittedEntry : EngineEvent → Option (Nat × SocketPtr)
  | .added fd socket => some (fd, socket)
  | _ => none

/-- The entries that came into `sockets_`. -/
def admitted (trace : List EngineEvent) : List (Nat × SocketPtr) := trace.filterMap admittedEntry

/-- The event is no call into a socket. -/
def Passive (event : EngineEvent) : Prop := ∀ call socket, event ≠ .called call socket

@[simp]
theorem admitted_append (early late : List EngineEvent) :
    admitted (early ++ late) = admitted early ++ admitted late := List.filterMap_append

/-- From one state to the other no socket was called, and only new sockets entered `sockets_`, under
new numbers. -/
structure Grown (before after : Engine σ τ) : Prop where
  shown : ∃ events, after.trace = before.trace ++ events ∧ (∀ event ∈ events, Passive event) ∧
    after.sockets.entries = before.sockets.entries ++ admitted events ∧
    ∀ entry ∈ admitted events, before.fd < entry.1
  fd_le : before.fd ≤ after.fd

namespace Grown

/-- A step that leaves `sockets_` alone and shows passive events without an addition. -/
theorem of_events {before after : Engine σ τ} (sockets_eq : after.sockets = before.sockets)
    (fd_eq : after.fd = before.fd) {events : List EngineEvent}
    (trace_eq : after.trace = before.trace ++ events)
    (passive : ∀ event ∈ events, Passive event) (none_added : admitted events = []) :
    Grown before after := by
  refine ⟨⟨events, trace_eq, passive, ?_, by simp [none_added]⟩, Nat.le_of_eq fd_eq.symm⟩
  rw [sockets_eq, none_added, List.append_nil]

/-- A step that changes nothing the map and the trace show. -/
theorem of_same {before after : Engine σ τ} (sockets_eq : after.sockets = before.sockets)
    (fd_eq : after.fd = before.fd) (trace_eq : after.trace = before.trace) :
    Grown before after :=
  of_events sockets_eq fd_eq (trace_eq.trans (List.append_nil _).symm) (by simp) rfl

theorem refl (engine : Engine σ τ) : Grown engine engine := of_same rfl rfl rfl

theorem trans {before middle after : Engine σ τ} (first : Grown before middle)
    (second : Grown middle after) : Grown before after := by
  obtain ⟨⟨early, early_eq, early_passive, early_entries, early_new⟩, early_le⟩ := first
  obtain ⟨⟨late, late_eq, late_passive, late_entries, late_new⟩, late_le⟩ := second
  refine ⟨⟨early ++ late, by rw [late_eq, early_eq, List.append_assoc], ?_, ?_, ?_⟩,
    early_le.trans late_le⟩
  · intro event mem
    exact (List.mem_append.mp mem).elim (early_passive event) (late_passive event)
  · rw [late_entries, early_entries, admitted_append, List.append_assoc]
  · intro entry mem
    rw [admitted_append] at mem
    rcases List.mem_append.mp mem with new | newer
    · exact early_new entry new
    · exact early_le.trans_lt (late_new entry newer)

theorem record {event : EngineEvent} (engine : Engine σ τ) (passive : Passive event)
    (none_added : admittedEntry event = none) : Grown engine (engine.record event) := by
  refine of_events rfl rfl rfl ?_ (by simp [admitted, none_added])
  intro shown mem
  obtain rfl := List.mem_singleton.mp mem
  exact passive

theorem lock (thread : ThreadId) (engine : Engine σ τ) : Grown engine (engine.lock thread) :=
  record engine (by simp [Passive]) rfl

theorem unlock (thread : ThreadId) (engine : Engine σ τ) : Grown engine (engine.unlock thread) :=
  record engine (by simp [Passive]) rfl

theorem add (thread : ThreadId) (socket : SocketPtr) (wake : WriteResult)
    (engine : Engine σ τ) : Grown engine (engine.add thread socket wake).2 := by
  refine ⟨⟨[.lock thread, .added (engine.fd + 1) socket, .unlock thread], ?_, ?_, ?_, ?_⟩, ?_⟩
  · simp [Engine.add, insertNext, Engine.lock, Engine.unlock, Engine.record]
  · simp [Passive]
  · exact OrderedMap.entries_insert_of_lt
      (fun entry mem => Nat.lt_succ_of_le (engine.keys_le entry mem)) socket
  · simp [admitted, admittedEntry]
  · exact Nat.le_succ _

/-- Other threads and callbacks let the map grow. -/
theorem allows (cls : SocketClass σ ι) : Allows cls (Grown : Engine σ τ → Engine σ τ → Prop) where
  refl := refl
  trans _ _ _ := trans
  act thread action before after step := by
    cases action with
    | add socket wake =>
        cases step
        exact add thread socket wake before
    | query fd =>
        cases step
        rw [snd_query]
        exact (lock thread before).trans (unlock thread _)
    | call socket call =>
        rw [act, Option.map_eq_some_iff] at step
        obtain ⟨object, -, rfl⟩ := step
        exact of_same rfl rfl rfl
  tick _ := of_same rfl rfl rfl

theorem interrupt {cls : SocketClass σ ι} {env : Environment ι} {before after : Engine σ τ}
    (execution : interrupt cls env before = some after) : Grown before after :=
  (allows cls).interrupt execution

theorem deleteFd (mux : IoMultiplexing τ) (fd : Int) (engine : Engine σ τ) :
    Grown engine (deleteFd mux fd engine).2 :=
  (of_same rfl rfl rfl : Grown engine { engine with io := (mux.deleteFd fd engine.io).2 }).trans
    (record _ (by simp [Passive]) rfl)

theorem addFd (mux : IoMultiplexing τ) (fd : Int) (engine : Engine σ τ) :
    Grown engine (addFd mux fd engine).2 :=
  (of_same rfl rfl rfl : Grown engine
    { engine with io := (mux.addFd fd true true engine.io).2 }).trans
      (record _ (by simp [Passive]) rfl)

theorem dispatch (mux : IoMultiplexing τ) (timeOutMs : Nat) (engine : Engine σ τ) :
    Grown engine (dispatch mux timeOutMs engine).2 := of_same rfl rfl rfl

theorem fdCheck (mux : IoMultiplexing τ) (fd : Int) (engine : Engine σ τ) :
    Grown engine (fdCheck mux fd engine).2 := of_same rfl rfl rfl

theorem wake {cls : SocketClass σ ι} {mux : IoMultiplexing τ} {env : Environment ι}
    {before after : Engine σ τ} (execution : wake cls mux env before = some after) :
    Grown before after := by
  rw [Engine.wake, Option.bind_eq_bind, Option.bind_eq_some_iff] at execution
  obtain ⟨middle, interrupted, finished⟩ := execution
  cases finished
  have slept : Grown before (sleep mux before) := of_same rfl rfl rfl
  exact (slept.trans (interrupt interrupted)).trans (lock .worker middle)

theorem waitForSockets {cls : SocketClass σ ι} {mux : IoMultiplexing τ} {env : Environment ι}
    {before after : Engine σ τ} {ret : Int}
    (execution : waitForSockets cls mux env before = some (ret, after)) : Grown before after :=
  waitForSockets_keeps Grown (fun _ _ _ => trans) (fun _ _ => interrupt) (dispatch mux)
    (fdCheck mux) (fun _ _ => of_same rfl rfl rfl) execution

/-- The sockets in `sockets_` stay there. -/
theorem values_eq {before after : Engine σ τ} (grown : Grown before after) :
    ∃ events, after.trace = before.trace ++ events ∧ (∀ event ∈ events, Passive event) ∧
      after.sockets.values = before.sockets.values ++ (admitted events).map Prod.snd := by
  obtain ⟨events, trace_eq, passive, entries_eq, -⟩ := grown.shown
  exact ⟨events, trace_eq, passive, by rw [OrderedMap.values, entries_eq, List.map_append]; rfl⟩

end Grown

/-- A call into a socket shows the call and then what its callbacks do. -/
theorem grown_of_callSocket {cls : SocketClass σ ι} {env : Environment ι} {call : RealCall}
    {method : Socket σ → Option (Socket σ)} {socket : SocketPtr} {before after : Engine σ τ}
    (execution : callSocket cls env call method socket before = some after) :
    Grown (before.record (.called call socket)) after :=
  (Grown.allows cls).callSocket (fun _ _ _ => Grown.of_same rfl rfl rfl) execution

/-- An event that is shown while the registered descriptors stay as they are and no socket is
called. -/
def Booked : EngineEvent → Prop
  | .lock _ => True
  | .unlock _ => True
  | .added _ _ => True
  | _ => False

/-- What other threads and callbacks do leaves the registered descriptors alone. -/
structure Outside (before after : Engine σ τ) : Prop where
  io : after.io = before.io
  trace : ∃ events, after.trace = before.trace ++ events ∧ ∀ event ∈ events, Booked event

namespace Outside

theorem of_same {before after : Engine σ τ} (io_eq : after.io = before.io)
    (trace_eq : after.trace = before.trace) : Outside before after :=
  ⟨io_eq, [], trace_eq.trans (List.append_nil _).symm, fun _ mem => absurd mem List.not_mem_nil⟩

theorem trans {before middle after : Engine σ τ} (first : Outside before middle)
    (second : Outside middle after) : Outside before after := by
  obtain ⟨early, early_eq, early_booked⟩ := first.trace
  obtain ⟨late, late_eq, late_booked⟩ := second.trace
  refine ⟨second.io.trans first.io, early ++ late, ?_, ?_⟩
  · rw [late_eq, early_eq, List.append_assoc]
  · intro event mem
    exact (List.mem_append.mp mem).elim (early_booked event) (late_booked event)

theorem record {event : EngineEvent} (booked : Booked event) (engine : Engine σ τ) :
    Outside engine (engine.record event) :=
  ⟨rfl, [event], rfl, fun _ mem => List.mem_singleton.mp mem ▸ booked⟩

theorem lock (thread : ThreadId) (engine : Engine σ τ) : Outside engine (engine.lock thread) :=
  record (show Booked (.lock thread) from trivial) engine

theorem unlock (thread : ThreadId) (engine : Engine σ τ) :
    Outside engine (engine.unlock thread) :=
  record (show Booked (.unlock thread) from trivial) engine

/-- Other threads and callbacks leave the registered descriptors alone. -/
theorem allows (cls : SocketClass σ ι) :
    Allows cls (Outside : Engine σ τ → Engine σ τ → Prop) where
  refl _ := of_same rfl rfl
  trans _ _ _ := trans
  act thread action before after step := by
    cases action with
    | add socket wake =>
        cases step
        refine ⟨rfl, [.lock thread, .added (before.fd + 1) socket, .unlock thread], ?_, ?_⟩
        · simp [Engine.add, insertNext, Engine.lock, Engine.unlock, Engine.record]
        · simp [Booked]
    | query fd =>
        cases step
        rw [snd_query]
        exact (lock thread before).trans (unlock thread _)
    | call socket call =>
        rw [Engine.act, Option.map_eq_some_iff] at step
        obtain ⟨object, -, rfl⟩ := step
        exact of_same rfl rfl
  tick _ := of_same rfl rfl

theorem interrupt {cls : SocketClass σ ι} {env : Environment ι} {before after : Engine σ τ}
    (execution : interrupt cls env before = some after) : Outside before after :=
  (allows cls).interrupt execution

/-- Behind the call it shows, a call into a socket leaves the registered descriptors alone. -/
theorem callSocket {cls : SocketClass σ ι} {env : Environment ι} {call : RealCall}
    {method : Socket σ → Option (Socket σ)} {socket : SocketPtr} {before after : Engine σ τ}
    (execution : callSocket cls env call method socket before = some after) :
    Outside (before.record (.called call socket)) after :=
  (allows cls).callSocket (fun _ _ _ => of_same rfl rfl) execution

end Outside

/-! ## Rules for the loops of the worker -/

/-- A relation that holds from each state of the worker to the next, as long as it only makes the
listed calls and leaves the registered descriptors alone. -/
structure Serves (cls : SocketClass σ ι) (mux : IoMultiplexing τ) (env : Environment ι)
    (listed : RealCall → SocketPtr → Prop) (rel : Engine σ τ → Engine σ τ → Prop) : Prop where
  refl : ∀ engine, rel engine engine
  trans : ∀ before middle after, rel before middle → rel middle after → rel before after
  interrupt : ∀ before after, interrupt cls env before = some after → rel before after
  dispatch : ∀ timeOutMs engine, rel engine (dispatch mux timeOutMs engine).2
  fdCheck : ∀ fd engine, rel engine (fdCheck mux fd engine).2
  connect : ∀ socket before after, listed .connect socket →
    realConnect cls env socket before = some after → rel before after
  write : ∀ socket before after, listed .write socket →
    realWrite cls env socket before = some after → rel before after
  read : ∀ socket before after, listed .read socket →
    realRead cls env socket before = some after → rel before after

/-- A relation that holds from each state of the worker to the next, as long as it only makes the
listed calls and registers no descriptor. -/
structure Attends (cls : SocketClass σ ι) (mux : IoMultiplexing τ) (env : Environment ι)
    (listed : RealCall → SocketPtr → Prop) (rel : Engine σ τ → Engine σ τ → Prop) : Prop
    extends Serves cls mux env listed rel where
  deleteFd : ∀ fd engine, rel engine (deleteFd mux fd engine).2
  disconnect : ∀ socket before after, listed .disconnect socket →
    realDisconnect cls env socket before = some after → rel before after

/-- A relation that holds from each state of the worker to the next, as long as it only makes the
listed calls. -/
structure Follows (cls : SocketClass σ ι) (mux : IoMultiplexing τ) (env : Environment ι)
    (listed : RealCall → SocketPtr → Prop) (rel : Engine σ τ → Engine σ τ → Prop) : Prop
    extends Attends cls mux env listed rel where
  addFd : ∀ fd engine, rel engine (addFd mux fd engine).2

namespace Serves

variable {cls : SocketClass σ ι} {mux : IoMultiplexing τ} {env : Environment ι}
  {listed : RealCall → SocketPtr → Prop} {rel : Engine σ τ → Engine σ τ → Prop}
  {entries : List (Nat × SocketPtr)} {before after : Engine σ τ} {ret : Int}

theorem startConnects (follows : Serves cls mux env listed rel)
    (all : ∀ entry ∈ entries, listed .connect entry.2)
    (execution : startConnects cls env entries before = some after) : rel before after := by
  induction entries generalizing before with
  | nil =>
      obtain rfl := Option.some.inj execution
      exact follows.refl before
  | cons entry entries ih =>
      simp only [Engine.startConnects, Option.bind_eq_bind, Option.bind_eq_some_iff] at execution
      obtain ⟨first, interrupted, second, connected, rest⟩ := execution
      obtain ⟨head, tail⟩ := List.forall_mem_cons.mp all
      have disturbed := follows.interrupt before first interrupted
      have called := follows.connect _ _ _ head connected
      exact follows.trans _ _ _ disturbed (follows.trans _ _ _ called (ih tail rest))

theorem whenReady (follows : Serves cls mux env listed rel) {ready : Bool}
    {call : Engine σ τ → Option (Engine σ τ)}
    (keeps : ∀ before after, call before = some after → rel before after)
    (execution : whenReady ready call before = some after) : rel before after := by
  cases ready with
  | false =>
      cases execution
      exact follows.refl before
  | true => exact keeps before after execution

theorem serveReady (follows : Serves cls mux env listed rel)
    (all : ∀ entry ∈ entries, listed .write entry.2 ∧ listed .read entry.2)
    (execution : serveReady cls mux env entries before = some (ret, after)) : rel before after := by
  induction entries generalizing before with
  | nil =>
      obtain ⟨-, rfl⟩ := Prod.mk.inj (Option.some.inj execution)
      exact follows.refl before
  | cons entry entries ih =>
      simp only [Engine.serveReady, Option.bind_eq_bind, Option.bind_eq_some_iff] at execution
      obtain ⟨first, interrupted, execution⟩ := execution
      obtain ⟨⟨writes, reads⟩, tail⟩ := List.forall_mem_cons.mp all
      have checked := follows.trans _ _ _ (follows.interrupt before first interrupted)
        (follows.fdCheck (first.heap entry.2).fd first)
      split at execution
      · cases execution
        exact checked
      · simp only [Option.bind_eq_some_iff] at execution
        obtain ⟨second, written, third, interrupted', fourth, read, rest⟩ := execution
        have wrote := follows.trans _ _ _ checked
          (follows.whenReady (fun _ _ => follows.write _ _ _ writes) written)
        have disturbed := follows.trans _ _ _ wrote (follows.interrupt second third interrupted')
        have served := follows.trans _ _ _ disturbed
          (follows.whenReady (fun _ _ => follows.read _ _ _ reads) read)
        exact follows.trans _ _ _ served (ih tail rest)

/-- The part of `readThread` after the dispatch. -/
theorem dispatchReady (follows : Serves cls mux env listed rel)
    (all : ∀ entry ∈ entries, listed .write entry.2 ∧ listed .read entry.2)
    (execution : dispatchReady cls mux env entries before = some (ret, after)) :
    rel before after := by
  have dispatched := follows.dispatch kLoopTimeIntervalMs before
  simp only [Engine.dispatchReady] at execution
  split at execution
  · cases execution
    exact follows.refl before
  · split at execution
    · cases execution
      exact dispatched
    · split at execution
      · cases execution
        exact dispatched
      · exact follows.trans _ _ _ dispatched (follows.serveReady all execution)

end Serves

namespace Attends

variable {cls : SocketClass σ ι} {mux : IoMultiplexing τ} {env : Environment ι}
  {listed : RealCall → SocketPtr → Prop} {rel : Engine σ τ → Engine σ τ → Prop}
  {entries : List (Nat × SocketPtr)} {before after : Engine σ τ} {ret : Int}

theorem closeInvalid (follows : Attends cls mux env listed rel)
    (all : ∀ entry ∈ entries, listed .disconnect entry.2)
    (execution : closeInvalid cls mux env entries before = some after) : rel before after := by
  induction entries generalizing before with
  | nil =>
      obtain rfl := Option.some.inj execution
      exact follows.refl before
  | cons entry entries ih =>
      simp only [Engine.closeInvalid, Option.bind_eq_bind, Option.bind_eq_some_iff] at execution
      obtain ⟨first, interrupted, second, disconnected, rest⟩ := execution
      obtain ⟨head, tail⟩ := List.forall_mem_cons.mp all
      have disturbed := follows.interrupt before first interrupted
      have deleted := follows.deleteFd (if (first.heap entry.2).fd < 0 then 1 else 0) first
      have called := follows.disconnect _ _ _ head disconnected
      exact follows.trans _ _ _ disturbed
        (follows.trans _ _ _ deleted (follows.trans _ _ _ called (ih tail rest)))

/-- Without connecting sockets, all that follows the scan only attends to sockets. -/
theorem serve (follows : Attends cls mux env listed rel) {found : Scan}
    (none_connecting : found.connecting.entries = [])
    (disconnects : ∀ entry ∈ found.disconnect.entries, listed .disconnect entry.2)
    (connects : ∀ entry ∈ found.startConnect.entries, listed .connect entry.2)
    (ready : ∀ entry ∈ found.connected.entries, listed .write entry.2 ∧ listed .read entry.2)
    (execution : serve cls mux env found before = some (ret, after)) : rel before after := by
  simp only [Engine.serve, none_connecting, Engine.checkConnecting, Option.bind_eq_bind,
    Option.bind_eq_some_iff, Option.bind_some] at execution
  obtain ⟨first, closed, second, started, execution⟩ := execution
  have invalid := follows.closeInvalid disconnects closed
  have starts := follows.trans _ _ _ invalid (follows.startConnects connects started)
  exact follows.trans _ _ _ starts (follows.dispatchReady ready execution)

/-- The loop of `afterThread` also closes each socket. -/
theorem closeAll (follows : Attends cls mux env listed rel)
    (closes : ∀ socket (engine : Engine σ τ),
      rel engine (engine.store socket (engine.heap socket).close))
    (all : ∀ entry ∈ entries, listed .disconnect entry.2)
    (execution : closeAll cls env entries before = some after) : rel before after := by
  induction entries generalizing before with
  | nil =>
      obtain rfl := Option.some.inj execution
      exact follows.refl before
  | cons entry entries ih =>
      simp only [Engine.closeAll, Option.bind_eq_bind, Option.bind_eq_some_iff] at execution
      obtain ⟨first, interrupted, second, interrupted', third, disconnected, rest⟩ := execution
      obtain ⟨head, tail⟩ := List.forall_mem_cons.mp all
      have disturbed := follows.trans _ _ _ (follows.interrupt before first interrupted)
        (closes entry.2 first)
      have again := follows.trans _ _ _ disturbed (follows.interrupt _ second interrupted')
      have called := follows.disconnect _ _ _ head disconnected
      exact follows.trans _ _ _ again (follows.trans _ _ _ called (ih tail rest))

end Attends

namespace Follows

variable {cls : SocketClass σ ι} {mux : IoMultiplexing τ} {env : Environment ι}
  {listed : RealCall → SocketPtr → Prop} {rel : Engine σ τ → Engine σ τ → Prop}
  {entries : List (Nat × SocketPtr)} {before after : Engine σ τ} {ret : Int}

theorem checkConnecting (follows : Follows cls mux env listed rel)
    (all : ∀ entry ∈ entries, listed .disconnect entry.2) {connected joined : SocketMap}
    (execution : checkConnecting cls mux env entries connected before = some (joined, after)) :
    rel before after := by
  induction entries generalizing connected before with
  | nil =>
      obtain ⟨-, rfl⟩ := Prod.mk.inj (Option.some.inj execution)
      exact follows.refl before
  | cons entry entries ih =>
      simp only [Engine.checkConnecting, Option.bind_eq_bind, Option.bind_eq_some_iff] at execution
      obtain ⟨first, interrupted, execution⟩ := execution
      obtain ⟨head, tail⟩ := List.forall_mem_cons.mp all
      have disturbed := follows.interrupt before first interrupted
      split at execution
      · exact follows.trans _ _ _ disturbed (ih tail execution)
      · have registered := follows.trans _ _ _ disturbed
          (follows.addFd (first.heap entry.2).fd first)
        split at execution
        · simp only [Option.bind_eq_some_iff] at execution
          obtain ⟨second, disconnected, rest⟩ := execution
          have called := follows.disconnect _ _ _ head disconnected
          exact follows.trans _ _ _ registered (follows.trans _ _ _ called (ih tail rest))
        · exact follows.trans _ _ _ registered (ih tail execution)

/-- A relation that is kept whatever is called holds over all that follows the scan. -/
theorem serve (follows : Follows cls mux env listed rel) (every : ∀ call socket, listed call socket)
    {found : Scan} (execution : serve cls mux env found before = some (ret, after)) :
    rel before after := by
  simp only [Engine.serve, Option.bind_eq_bind, Option.bind_eq_some_iff] at execution
  obtain ⟨first, closed, second, started, ⟨joined, third⟩, checked, execution⟩ := execution
  have invalid := follows.closeInvalid (fun _ _ => every _ _) closed
  have starts := follows.trans _ _ _ invalid
    (follows.startConnects (fun _ _ => every _ _) started)
  have prepared := follows.trans _ _ _ starts
    (follows.checkConnecting (fun _ _ => every _ _) checked)
  exact follows.trans _ _ _ prepared
    (follows.dispatchReady (fun _ _ => ⟨every _ _, every _ _⟩) execution)

end Follows

/-- After the scan and in `afterThread` the worker only adds to the trace, and other threads add
sockets under new numbers. -/
structure Progress (before after : Engine σ τ) : Prop where
  trace : before.trace <+: after.trace
  entries : ∃ fresh, after.sockets.entries = before.sockets.entries ++ fresh ∧
    ∀ entry ∈ fresh, before.fd < entry.1
  fd_le : before.fd ≤ after.fd

namespace Progress

theorem of_grown {before after : Engine σ τ} (grown : Grown before after) :
    Progress before after := by
  obtain ⟨events, trace_eq, -, entries_eq, new⟩ := grown.shown
  exact ⟨⟨events, trace_eq.symm⟩, ⟨_, entries_eq, new⟩, grown.fd_le⟩

theorem trans {before middle after : Engine σ τ} (first : Progress before middle)
    (second : Progress middle after) : Progress before after := by
  obtain ⟨early, early_eq, early_new⟩ := first.entries
  obtain ⟨late, late_eq, late_new⟩ := second.entries
  refine ⟨first.trace.trans second.trace, ⟨early ++ late, ?_, ?_⟩, first.fd_le.trans second.fd_le⟩
  · rw [late_eq, early_eq, List.append_assoc]
  · intro entry mem
    rcases List.mem_append.mp mem with new | newer
    · exact early_new entry new
    · exact first.fd_le.trans_lt (late_new entry newer)

theorem record (event : EngineEvent) (engine : Engine σ τ) :
    Progress engine (engine.record event) :=
  ⟨List.prefix_append _ _, ⟨[], (List.append_nil _).symm, by simp⟩, Nat.le_refl _⟩

theorem called {cls : SocketClass σ ι} {env : Environment ι} {call : RealCall}
    {method : Socket σ → Option (Socket σ)} {socket : SocketPtr} {before after : Engine σ τ}
    (execution : callSocket cls env call method socket before = some after) :
    Progress before after :=
  (record (.called call socket) before).trans (of_grown (grown_of_callSocket execution))

/-- Whatever the worker calls, it makes progress. -/
theorem follows (cls : SocketClass σ ι) (mux : IoMultiplexing τ) (env : Environment ι) :
    Follows cls mux env (fun _ _ => True) (Progress : Engine σ τ → Engine σ τ → Prop) where
  refl engine := of_grown (Grown.refl engine)
  trans _ _ _ := trans
  interrupt _ _ execution := of_grown (Grown.interrupt execution)
  deleteFd fd engine := of_grown (Grown.deleteFd mux fd engine)
  addFd fd engine := of_grown (Grown.addFd mux fd engine)
  dispatch timeOutMs engine := of_grown (Grown.dispatch mux timeOutMs engine)
  fdCheck fd engine := of_grown (Grown.fdCheck mux fd engine)
  connect _ _ _ _ execution := called execution
  disconnect _ _ _ _ execution := called execution
  write _ _ _ _ execution := called execution
  read _ _ _ _ execution := called execution

end Progress

end Engine
end NetworkBase
