import NetworkBase.Engine.Scan
import NetworkBase.Engine.WakeUp
import NetworkBase.Library.Mutex

/-!
# The engine behind its mutex

The methods of the engine cut at the statements that lock and unlock `mutex_`, for a mutex that
blocks, also the thread it belongs to.  The worker runs `Thread::thread` from its loop on; any
number of other threads call `Add`, `Query`, `Stop` and the public methods of sockets.  The turns of
all threads interleave in any order.

What follows the scan of `sockets_` is one step here, as no run gets there.
-/

namespace NetworkBase
namespace Engine

open Mutex (Statement Owned Stuck)

/-- What a call of `Add` or `Query` returns. -/
inductive CallResult
  | added (fd : Nat)
  | found (socket : Option SocketPtr)
  deriving DecidableEq

/-- A place inside `Add` or `Query`. -/
inductive CallPlace
  | addLocks (socket : SocketPtr) (wake : WriteResult)
  | addInserts (socket : SocketPtr) (wake : WriteResult)
  | addUnlocks (fd : Nat) (wake : WriteResult)
  | addWakes (fd : Nat) (wake : WriteResult)
  | queryLocks (fd : Nat)
  | queryFinds (fd : Nat)
  | queryUnlocks (found : Option SocketPtr)

/-- A place of the worker. -/
inductive WorkerPlace
  /-- In front of `while (running_)`. -/
  | loop
  | sleeps
  | locks
  /-- In front of `sockets_.empty()`. -/
  | checks
  | unlocksEmpty
  | dispatches
  | polls (ret : Int)
  | drains
  /-- In front of the second lock of `readThread`. -/
  | relocks
  | scans
  | unlocksScanned (found : Option Scan)
  | serves (found : Scan)
  | returned (ret : Int)
  /-- In front of the lock of `afterThread`. -/
  | leaves
  | swaps
  | unlocksSwapped (sockets : List (Nat × SocketPtr))
  | closes (sockets : List (Nat × SocketPtr))
  | disconnects (socket : SocketPtr) (rest : List (Nat × SocketPtr))
  /-- In a callback of a disconnected socket, maybe inside a call of the engine. -/
  | callback (call : Option CallPlace) (rest : List (Nat × SocketPtr))
  | quits
  | ended

/-- A place of another thread. -/
inductive UserPlace
  | outside
  | calls (place : CallPlace)
  | stopWakes (wake : WriteResult)
  | stopHalts
  /-- In front of `while (!quit_)`. -/
  | stopWaits

/-- A place of a thread. -/
inductive Place
  | worker (place : WorkerPlace)
  | user (place : UserPlace)

/-- What a thread does on its own account where it has a choice. -/
inductive Input
  | goOn
  | act (action : UserAction)
  | stop (wake : WriteResult)

/-- What the threads share. -/
structure Shared (σ τ : Type) where
  engine : Engine σ τ
  running : Bool
  quit : Bool

variable {σ ι τ : Type}

/-- Change the engine. -/
def Shared.change (act : Engine σ τ → Engine σ τ) (shared : Shared σ τ) : Shared σ τ :=
  { shared with engine := act shared.engine }

/-- `Add` and `Query`, statement by statement, up to what they return. -/
def callProgram (thread : ThreadId) :
    CallPlace → Statement (Shared σ τ) Input (CallPlace ⊕ CallResult)
  | .addLocks socket wake => .lock (.inl (.addInserts socket wake)) (Shared.change (lock thread))
  | .addInserts socket wake => .work fun _ shared =>
      let engine := shared.engine.insertNext socket
      some (.inl (.addUnlocks engine.fd wake),
        { shared with engine := engine.record (.added engine.fd socket) })
  | .addUnlocks fd wake => .unlock (.inl (.addWakes fd wake)) (Shared.change (unlock thread))
  | .addWakes fd wake => .work fun _ shared =>
      some (.inr (.added fd), shared.change (beforeStop wake))
  | .queryLocks fd => .lock (.inl (.queryFinds fd)) (Shared.change (lock thread))
  | .queryFinds fd => .work fun _ shared =>
      some (.inl (.queryUnlocks (shared.engine.sockets.find fd)), shared)
  | .queryUnlocks found => .unlock (.inr (.found found)) (Shared.change (unlock thread))

/-- Where a thread goes with an action: into `Add` or `Query`, or past a public method of a socket,
which does not take the mutex. -/
def begin (cls : SocketClass σ ι) (thread : ThreadId) (action : UserAction) (shared : Shared σ τ) :
    Option (Option CallPlace × Shared σ τ) :=
  match action with
  | .add socket wake => some (some (.addLocks socket wake), shared)
  | .query fd => some (some (.queryLocks fd), shared)
  | .call socket call =>
      (act cls thread (.call socket call) shared.engine).map fun engine =>
        (none, { shared with engine })

/-- Another thread: `Add`, `Query`, `Thread::Stop` and the public methods of sockets. -/
def userProgram (cls : SocketClass σ ι) : UserPlace → Statement (Shared σ τ) Input UserPlace
  | .outside => .work fun input shared =>
      match input with
      | .goOn => none
      | .act action => (begin cls .other action shared).map fun (place, shared) =>
          (place.elim .outside .calls, shared)
      | .stop wake => some (if shared.quit then .outside else .stopWakes wake, shared)
  | .calls place => (callProgram .other place).map (Sum.elim .calls fun _ => .outside)
  | .stopWakes wake => .work fun _ shared => some (.stopHalts, shared.change (beforeStop wake))
  | .stopHalts => .work fun _ shared => some (.stopWaits, { shared with running := false })
  | .stopWaits => .work fun _ shared =>
      some (if ¬shared.quit then .stopWaits else .outside, shared)

section Worker

variable (cls : SocketClass σ ι) (mux : IoMultiplexing τ) (env : Environment ι)

/-- A method of the worker that returns. -/
def working (method : Engine σ τ → Option (WorkerPlace × Engine σ τ)) :
    Statement (Shared σ τ) Input WorkerPlace :=
  .work fun _ shared => (method shared.engine).map fun (place, engine) =>
    (place, { shared with engine })

/-- `io_->Sleep`, after which other threads act. -/
def sleepFirst (engine : Engine σ τ) : Option (WorkerPlace × Engine σ τ) :=
  some (.locks, tick (sleep mux engine))

/-- `sockets_.empty()`. -/
def check (engine : Engine σ τ) : Option (WorkerPlace × Engine σ τ) :=
  some (if engine.sockets.entries.isEmpty then .unlocksEmpty else .relocks, engine)

/-- The dispatch of a worker without sockets, before and after which other threads act. -/
def dispatchLong (engine : Engine σ τ) : Option (WorkerPlace × Engine σ τ) :=
  let (ret, engine) := dispatch mux kMaxSleepMs (tick engine)
  some (.polls ret, tick engine)

/-- What the worker makes of that dispatch. -/
def poll (ret : Int) (engine : Engine σ τ) : Option (WorkerPlace × Engine σ τ) :=
  if ret < 0 then
    some (.returned (-1), engine)
  else if ret = 0 then
    some (.returned 0, engine)
  else
    let ((checked, read, _), engine) := fdCheck mux engine.pair.getReadFd engine
    if checked < 0 then some (.returned (-1), engine)
    else some (if read then .drains else .returned 0, engine)

/-- `pair_->Readable`. -/
def drainPair (engine : Engine σ τ) : Option (WorkerPlace × Engine σ τ) :=
  some (.returned 0, { engine with pair := engine.pair.readable (env.drain engine.time) })

/-- `Close` of a socket in `afterThread`. -/
def closeFirst (socket : SocketPtr) (rest : List (Nat × SocketPtr)) (engine : Engine σ τ) :
    Option (WorkerPlace × Engine σ τ) :=
  let engine := tick engine
  some (.disconnects socket rest, engine.store socket (engine.heap socket).close)

/-- `RealDisconnect` of a socket in `afterThread`. -/
def disconnectFirst (socket : SocketPtr) (rest : List (Nat × SocketPtr)) (engine : Engine σ τ) :
    Option (WorkerPlace × Engine σ τ) :=
  let engine := (tick engine).record (.called .disconnect socket)
  (Socket.realDisconnect cls (engine.heap socket)).map fun next =>
    (.callback none rest, engine.store socket next)

/-- `sockets_.swap`. -/
def swapFirst (engine : Engine σ τ) : Option (WorkerPlace × Engine σ τ) :=
  let swapped :=
    { engine with sockets := .empty, keys_le := fun _ mem => absurd mem List.not_mem_nil }
  some (.unlocksSwapped engine.sockets.entries, swapped.record .swapped)

/-- The worker: `Thread::thread` over `readThread` and `afterThread`. -/
def workerProgram : WorkerPlace → Statement (Shared σ τ) Input WorkerPlace
  | .loop => .work fun _ shared =>
      some (if shared.running then .sleeps else .leaves, shared.change tick)
  | .sleeps => working (sleepFirst mux)
  | .locks => .lock .checks (Shared.change (lock .worker))
  | .checks => working check
  | .unlocksEmpty => .unlock .dispatches (Shared.change (unlock .worker))
  | .dispatches => working (dispatchLong mux)
  | .polls ret => working (poll mux ret)
  | .drains => working (drainPair env)
  | .relocks => .lock .scans (Shared.change (lock .worker))
  | .scans => working fun engine =>
      (scan cls env engine.sockets.entries ⟨.empty, .empty, .empty, .empty⟩ engine).map
        fun (matched, found, engine) =>
          (.unlocksScanned (if matched then some found else none), engine)
  | .unlocksScanned found =>
      .unlock (found.elim (.returned (-1)) .serves) (Shared.change (unlock .worker))
  | .serves found => working fun engine =>
      (serve cls mux env found engine).map fun (ret, engine) => (.returned ret, engine)
  | .returned ret => .work fun _ shared =>
      some (.loop, if ret < 0 then { shared with running := false } else shared)
  | .leaves => .lock .swaps (Shared.change (lock .worker))
  | .swaps => working swapFirst
  | .unlocksSwapped sockets => .unlock (.closes sockets) (Shared.change (unlock .worker))
  | .closes [] => working fun engine => some (.quits, engine)
  | .closes ((_, socket) :: rest) => working (closeFirst socket rest)
  | .disconnects socket rest => working (disconnectFirst cls socket rest)
  | .callback none rest => .work fun input shared =>
      match input with
      | .act action => (begin cls .worker action shared).map fun (place, shared) =>
          (.callback place rest, shared)
      | _ => some (.closes rest, shared.change tick)
  | .callback (some place) rest =>
      (callProgram .worker place).map fun next => .callback next.getLeft? rest
  | .quits => .work fun _ shared => some (.ended, { shared with quit := true })
  | .ended => .work fun _ _ => none

/-- The program of all threads. -/
def program : Mutex.Program (Shared σ τ) Input Place
  | .worker place => (workerProgram cls mux env place).map .worker
  | .user place => (userProgram cls place).map .user

end Worker

/-- The threads when `Start` has spawned the worker: it is in front of its loop, and the others are
outside. -/
def spawned {θ : Type} [DecidableEq θ] (worker : θ) (engine : Engine σ τ) :
    Mutex.World (Shared σ τ) Place θ where
  shared := { engine, running := true, quit := false }
  owner := none
  place thread := if thread = worker then .worker .loop else .user .outside

/-! ## A thread alone

Between a lock and its unlock, and where no other thread takes a turn, the statements make up the
methods of the engine. -/

section Alone

open Mutex (Alone World)

variable {θ : Type} [DecidableEq θ] {cls : SocketClass σ ι} {mux : IoMultiplexing τ}
  {env : Environment ι} {worker : θ} {world final : World (Shared σ τ) Place θ}

/-- A statement of the worker, and then others. -/
theorem alone_worker {place next : WorkerPlace} {shared : Shared σ τ} {owner : Option θ}
    (stands : world.place worker = .worker place) (input : Input)
    (performed : (workerProgram cls mux env place).perform worker input world.owner world.shared =
      some (next, shared, owner))
    (rest : Alone (program cls mux env) worker (world.move worker (.worker next) shared owner)
      final) : Alone (program cls mux env) worker world final := by
  refine Alone.head input ?_ rest
  rw [stands]
  change ((workerProgram cls mux env place).map Place.worker).perform _ _ _ _ = _
  rw [Statement.perform_map, performed]
  rfl

/-- A method of the worker that returns, and then other statements. -/
theorem alone_working (method : Engine σ τ → Option (WorkerPlace × Engine σ τ))
    {place next : WorkerPlace} {engine : Engine σ τ} (stands : world.place worker = .worker place)
    (works : workerProgram cls mux env place = working method)
    (runs : method world.shared.engine = some (next, engine))
    (rest : Alone (program cls mux env) worker
      (world.move worker (.worker next) { world.shared with engine } world.owner) final) :
    Alone (program cls mux env) worker world final := by
  refine alone_worker stands .goOn ?_ rest
  rw [works, working, Statement.perform, runs]
  rfl

/-- A statement of another thread, and then others. -/
theorem alone_user {thread : θ} {place next : UserPlace} {shared : Shared σ τ} {owner : Option θ}
    (stands : world.place thread = .user place) (input : Input)
    (performed : (userProgram cls place).perform thread input world.owner world.shared =
      some (next, shared, owner))
    (rest : Alone (program cls mux env) thread (world.move thread (.user next) shared owner)
      final) : Alone (program cls mux env) thread world final := by
  refine Alone.head input ?_ rest
  rw [stands]
  change ((userProgram cls place).map Place.user).perform _ _ _ _ = _
  rw [Statement.perform_map, performed]
  rfl

/-- `Add` of another thread. -/
theorem add_alone {thread : θ} (outside : world.place thread = .user .outside)
    (free : world.owner = none) (socket : SocketPtr) (wake : WriteResult) :
    Alone (program cls mux env) thread world (world.move thread (.user .outside)
      { world.shared with engine := (world.shared.engine.add .other socket wake).2 } none) := by
  refine alone_user outside (.act (.add socket wake)) rfl ?_
  refine alone_user (World.move_place_self ..) .goOn (if_pos free) ?_
  refine alone_user (World.move_place_self ..) .goOn rfl ?_
  refine alone_user (World.move_place_self ..) .goOn (if_pos rfl) ?_
  refine alone_user (World.move_place_self ..) .goOn rfl ?_
  simp only [World.move_move]
  exact .refl _

/-- `Query` of another thread. -/
theorem query_alone {thread : θ} (outside : world.place thread = .user .outside)
    (free : world.owner = none) (fd : Nat) :
    Alone (program cls mux env) thread world (world.move thread (.user .outside)
      { world.shared with engine := (world.shared.engine.query .other fd).2 } none) := by
  refine alone_user outside (.act (.query fd)) rfl ?_
  refine alone_user (World.move_place_self ..) .goOn (if_pos free) ?_
  refine alone_user (World.move_place_self ..) .goOn rfl ?_
  refine alone_user (World.move_place_self ..) .goOn (if_pos rfl) ?_
  simp only [World.move_move]
  rw [snd_query]
  exact .refl _

theorem interrupt_of_quiet {engine : Engine σ τ} (quiet : env.others engine.time = []) :
    interrupt cls env engine = some (tick engine) := by
  rw [interrupt, quiet]
  rfl

/-- The worker comes to its first lock and passes it. -/
theorem checks_alone (quiet : ∀ time, env.others time = [])
    (stands : world.place worker = .worker .sleeps) (free : world.owner = none)
    {engine : Engine σ τ} (execution : wake cls mux env world.shared.engine = some engine)
    (rest : Alone (program cls mux env) worker (world.move worker (.worker .checks)
      { world.shared with engine } (some worker)) final) :
    Alone (program cls mux env) worker world final := by
  rw [wake, interrupt_of_quiet (quiet _)] at execution
  cases execution
  refine alone_working (sleepFirst mux) stands rfl rfl ?_
  refine alone_worker (World.move_place_self ..) .goOn (if_pos free) ?_
  rw [World.move_move]
  exact rest

/-- A round of the worker that finds a socket comes as far as the second lock. -/
theorem readThread_alone_filled (quiet : ∀ time, env.others time = [])
    (stands : world.place worker = .worker .sleeps) (free : world.owner = none)
    {engine : Engine σ τ} (execution : wake cls mux env world.shared.engine = some engine)
    (filled : engine.sockets.entries ≠ []) :
    Alone (program cls mux env) worker world (world.move worker (.worker .relocks)
      { world.shared with engine } (some worker)) := by
  refine checks_alone quiet stands free execution ?_
  have found : check engine = some (.relocks, engine) := by
    rw [check, if_neg fun empty => filled (List.isEmpty_iff.mp empty)]
  refine alone_working check (World.move_place_self ..) rfl found ?_
  rw [World.move_move]
  exact .refl _

/-- What `waitForSockets` consists of. -/
theorem waitForSockets_cases (quiet : ∀ time, env.others time = []) {before engine : Engine σ τ}
    {ret : Int} (execution : waitForSockets cls mux env before = some (ret, engine)) :
    ∃ code middle, dispatchLong mux before = some (.polls code, middle) ∧
      (poll mux code middle = some (.returned ret, engine) ∨
        ∃ last, poll mux code middle = some (.drains, last) ∧
          drainPair env last = some (.returned ret, engine)) := by
  rw [waitForSockets, interrupt_of_quiet (quiet _), Option.bind_eq_bind, Option.bind_some]
    at execution
  simp only [interrupt_of_quiet (quiet _), Option.bind_some] at execution
  refine ⟨(dispatch mux kMaxSleepMs (tick before)).1,
    tick (dispatch mux kMaxSleepMs (tick before)).2, rfl, ?_⟩
  generalize (dispatch mux kMaxSleepMs (tick before)).1 = code at execution ⊢
  generalize tick (dispatch mux kMaxSleepMs (tick before)).2 = middle at execution ⊢
  simp only [poll]
  generalize fdCheck mux middle.pair.getReadFd middle = checked at execution ⊢
  split_ifs at execution ⊢ with failed elapsed unchecked readable
  · cases execution
    exact .inl rfl
  · cases execution
    exact .inl rfl
  · cases execution
    exact .inl rfl
  · cases execution
    exact .inr ⟨_, rfl, rfl⟩
  · cases execution
    exact .inl rfl

/-- The worker waits for sockets. -/
theorem waitForSockets_alone (quiet : ∀ time, env.others time = [])
    (stands : world.place worker = .worker .dispatches) {ret : Int} {engine : Engine σ τ}
    (execution : waitForSockets cls mux env world.shared.engine = some (ret, engine)) :
    Alone (program cls mux env) worker world (world.move worker (.worker (.returned ret))
      { world.shared with engine } world.owner) := by
  obtain ⟨code, middle, dispatched, polled | ⟨last, polled, drained⟩⟩ :=
    waitForSockets_cases quiet execution
  · refine alone_working (dispatchLong mux) stands rfl dispatched ?_
    refine alone_working (poll mux code) (World.move_place_self ..) rfl polled ?_
    rw [World.move_move]
    exact .refl _
  · refine alone_working (dispatchLong mux) stands rfl dispatched ?_
    refine alone_working (poll mux code) (World.move_place_self ..) rfl polled ?_
    refine alone_working (drainPair env) (World.move_place_self ..) rfl drained ?_
    rw [World.move_move, World.move_move]
    exact .refl _

/-- A round of the worker that finds no socket. -/
theorem readThread_alone (quiet : ∀ time, env.others time = [])
    (stands : world.place worker = .worker .sleeps) (free : world.owner = none)
    (empty : world.shared.engine.sockets.entries = []) {ret : Int} {engine : Engine σ τ}
    (execution : readThread cls mux env world.shared.engine = some (ret, engine)) :
    Alone (program cls mux env) worker world (world.move worker (.worker (.returned ret))
      { world.shared with engine } none) := by
  have woken : wake cls mux env world.shared.engine =
      some ((tick (sleep mux world.shared.engine)).lock .worker) := by
    rw [wake, interrupt_of_quiet (quiet _)]
    rfl
  have nothing : ((tick (sleep mux world.shared.engine)).lock .worker).sockets.entries.isEmpty =
      true := List.isEmpty_iff.mpr empty
  have found : check ((tick (sleep mux world.shared.engine)).lock .worker) =
      some (.unlocksEmpty, (tick (sleep mux world.shared.engine)).lock .worker) := by
    rw [check, if_pos nothing]
  rw [readThread, woken, Option.bind_eq_bind, Option.bind_some, if_pos nothing] at execution
  refine checks_alone quiet stands free woken ?_
  refine alone_working check (World.move_place_self ..) rfl found ?_
  refine alone_worker (World.move_place_self ..) .goOn (if_pos rfl) ?_
  simp only [World.move_move]
  have waited : Alone (program cls mux env) worker (world.move worker (.worker .dispatches)
      { world.shared with
        engine := ((tick (sleep mux world.shared.engine)).lock .worker).unlock .worker } none)
      ((world.move worker (.worker .dispatches)
        { world.shared with
          engine := ((tick (sleep mux world.shared.engine)).lock .worker).unlock .worker }
        none).move worker (.worker (.returned ret)) { world.shared with engine } none) :=
    waitForSockets_alone quiet (World.move_place_self ..) execution
  rw [World.move_move] at waited
  exact waited

/-- The loop of `afterThread`. -/
theorem closeAll_alone (quiet : ∀ time, env.others time = [])
    (uncalled : ∀ time, env.callbacks time = []) {sockets : List (Nat × SocketPtr)}
    (stands : world.place worker = .worker (.closes sockets)) {engine : Engine σ τ}
    (execution : closeAll cls env sockets world.shared.engine = some engine) :
    Alone (program cls mux env) worker world (world.move worker (.worker .quits)
      { world.shared with engine } world.owner) := by
  induction sockets generalizing world with
  | nil =>
      cases execution
      exact alone_worker stands .goOn rfl (.refl _)
  | cons entry rest ih =>
      obtain ⟨fd, socket⟩ := entry
      rw [closeAll, interrupt_of_quiet (quiet _), Option.bind_eq_bind, Option.bind_some,
        interrupt_of_quiet (quiet _), Option.bind_some, Option.bind_eq_some_iff] at execution
      obtain ⟨middle, disconnected, execution⟩ := execution
      rw [realDisconnect, callSocket, Option.bind_eq_bind, Option.bind_eq_some_iff] at disconnected
      obtain ⟨next, told, finished⟩ := disconnected
      rw [uncalled] at finished
      have middle_eq := Option.some.inj finished
      have there : (world.move worker (Place.worker (.closes rest))
          { world.shared with engine := middle } world.owner).place worker =
            .worker (.closes rest) := World.move_place_self ..
      have later := ih there execution
      rw [World.move_move] at later
      refine alone_working (closeFirst socket rest) stands rfl rfl ?_
      refine alone_working (disconnectFirst cls socket rest) (World.move_place_self ..) rfl
        (congrArg (Option.map _) told) ?_
      refine alone_worker (World.move_place_self ..) .goOn rfl ?_
      simp only [World.move_move]
      rw [← middle_eq] at later
      exact later

/-- The end of a worker that was halted. -/
theorem afterThread_alone (quiet : ∀ time, env.others time = [])
    (uncalled : ∀ time, env.callbacks time = []) (stands : world.place worker = .worker .loop)
    (free : world.owner = none) (halted : world.shared.running = false) {engine : Engine σ τ}
    (execution : afterThread cls env world.shared.engine = some engine) :
    Alone (program cls mux env) worker world (world.move worker (.worker .quits)
      { world.shared with engine } none) := by
  rw [afterThread, interrupt_of_quiet (quiet _), Option.bind_eq_bind, Option.bind_some]
    at execution
  have leaves : (workerProgram cls mux env .loop).perform worker .goOn world.owner world.shared =
      some (.leaves, world.shared.change tick, world.owner) := by
    simp only [workerProgram, Statement.perform, halted]
    rfl
  have there : (world.move worker (Place.worker (.closes world.shared.engine.sockets.entries))
      { world.shared with engine := (tick world.shared.engine).swapOut.2 } none).place worker =
        .worker (.closes world.shared.engine.sockets.entries) := World.move_place_self ..
  have later : Alone (program cls mux env) worker _ _ :=
    closeAll_alone quiet uncalled there execution
  rw [World.move_move] at later
  refine alone_worker stands .goOn leaves ?_
  refine alone_worker (World.move_place_self ..) .goOn (if_pos free) ?_
  refine alone_working swapFirst (World.move_place_self ..) rfl rfl ?_
  refine alone_worker (World.move_place_self ..) .goOn (if_pos rfl) ?_
  simp only [World.move_move]
  exact later

end Alone

/-! ## Who holds the mutex -/

/-- Inside the critical section of `Add` or `Query`. -/
def CallPlace.holds : CallPlace → Bool
  | .addInserts _ _ | .addUnlocks _ _ | .queryFinds _ | .queryUnlocks _ => true
  | _ => false

/-- Inside a critical section of the worker, or of a call its callbacks make. -/
def WorkerPlace.holds : WorkerPlace → Bool
  | .checks | .unlocksEmpty | .relocks | .scans | .unlocksScanned _ => true
  | .swaps | .unlocksSwapped _ => true
  | .callback (some place) _ => place.holds
  | _ => false

/-- Inside a critical section of another thread. -/
def UserPlace.holds : UserPlace → Bool
  | .calls place => place.holds
  | _ => false

/-- Inside a critical section. -/
def Place.holds : Place → Bool
  | .worker place => place.holds
  | .user place => place.holds

theorem callProgram_annotated (thread : ThreadId) (place : CallPlace) :
    (callProgram thread place : Statement (Shared σ τ) Input _).Annotated
      (Sum.elim CallPlace.holds fun _ => false) place.holds := by
  cases place with
  | addLocks socket wake => rfl
  | addUnlocks fd wake => exact ⟨rfl, rfl⟩
  | queryLocks fd => rfl
  | queryUnlocks found => exact ⟨rfl, rfl⟩
  | _ =>
      intro input before next after runs
      cases runs
      rfl

/-- A call inside a larger program. -/
theorem callProgram_map_annotated {κ : Type} (thread : ThreadId) (place : CallPlace)
    {rename : CallPlace ⊕ CallResult → κ} {holds : κ → Bool}
    (inside : ∀ next, holds (rename (.inl next)) = next.holds)
    (outside : ∀ result, holds (rename (.inr result)) = false) :
    ((callProgram thread place : Statement (Shared σ τ) Input _).map rename).Annotated holds
      place.holds := by
  apply Statement.Annotated.map
  have same : (fun next => holds (rename next)) = Sum.elim CallPlace.holds fun _ => false := by
    funext next
    cases next with
    | inl place => exact inside place
    | inr result => exact outside result
  rw [same]
  exact callProgram_annotated thread place

/-- Where a call begins, its thread does not hold the mutex yet. -/
theorem begin_outside {cls : SocketClass σ ι} {thread : ThreadId} {action : UserAction}
    {before after : Shared σ τ} {place : Option CallPlace}
    (begins : begin cls thread action before = some (place, after)) :
    ∀ found ∈ place, found.holds = false := by
  cases action with
  | add socket wake =>
      cases begins
      exact fun found mem => Option.mem_some_iff.mp mem ▸ rfl
  | query fd =>
      cases begins
      exact fun found mem => Option.mem_some_iff.mp mem ▸ rfl
  | call socket call =>
      obtain ⟨engine, -, same⟩ := Option.map_eq_some_iff.mp begins
      cases same
      exact fun found mem => absurd mem (Option.not_mem_none found)

theorem userProgram_annotated (cls : SocketClass σ ι) :
    Mutex.Annotated (userProgram cls : UserPlace → Statement (Shared σ τ) Input UserPlace)
      UserPlace.holds := by
  intro place
  cases place with
  | outside =>
      intro input before next after runs
      cases input with
      | goOn => cases runs
      | stop wake =>
          cases runs
          split
          · rfl
          · rfl
      | act action =>
          obtain ⟨⟨call, shared⟩, begins, same⟩ := Option.map_eq_some_iff.mp runs
          cases same
          cases call with
          | none => rfl
          | some found => exact begin_outside begins found rfl
  | calls call => exact callProgram_map_annotated .other call (fun _ => rfl) fun _ => rfl
  | stopWaits =>
      intro input before next after runs
      cases runs
      split
      · rfl
      · rfl
  | _ =>
      intro input before next after runs
      cases runs
      rfl

section Worker

variable (cls : SocketClass σ ι) (mux : IoMultiplexing τ) (env : Environment ι)

/-- A method that returns to places outside the critical sections, or stays inside. -/
theorem working_annotated {here : Bool}
    {method : Engine σ τ → Option (WorkerPlace × Engine σ τ)}
    (leads : ∀ before next after, method before = some (next, after) → next.holds = here) :
    (working method).Annotated WorkerPlace.holds here := by
  intro input before next after runs
  obtain ⟨⟨place, engine⟩, ran, same⟩ := Option.map_eq_some_iff.mp runs
  cases same
  exact leads before.engine next engine ran

theorem workerProgram_annotated :
    Mutex.Annotated (workerProgram cls mux env) WorkerPlace.holds := by
  intro place
  cases place with
  | loop =>
      intro input before next after runs
      cases runs
      split
      · rfl
      · rfl
  | locks => rfl
  | relocks => rfl
  | leaves => rfl
  | unlocksEmpty => exact ⟨rfl, rfl⟩
  | unlocksSwapped sockets => exact ⟨rfl, rfl⟩
  | unlocksScanned found => cases found <;> exact ⟨rfl, rfl⟩
  | checks =>
      rw [workerProgram]
      apply working_annotated
      intro before next after runs
      cases runs
      split
      · rfl
      · rfl
  | polls ret =>
      rw [workerProgram]
      apply working_annotated
      intro before next after runs
      simp only [poll] at runs
      split_ifs at runs <;> cases runs <;> rfl
  | scans =>
      rw [workerProgram]
      apply working_annotated
      intro before next after runs
      obtain ⟨⟨matched, found, engine⟩, -, same⟩ := Option.map_eq_some_iff.mp runs
      cases same
      rfl
  | serves found =>
      rw [workerProgram]
      apply working_annotated
      intro before next after runs
      obtain ⟨⟨ret, engine⟩, -, same⟩ := Option.map_eq_some_iff.mp runs
      cases same
      rfl
  | returned ret =>
      intro input before next after runs
      cases runs
      rfl
  | closes sockets =>
      cases sockets with
      | nil =>
          rw [workerProgram]
          apply working_annotated
          intro before next after runs
          cases runs
          rfl
      | cons entry rest =>
          rw [workerProgram]
          apply working_annotated
          intro before next after runs
          cases runs
          rfl
  | disconnects socket rest =>
      rw [workerProgram]
      apply working_annotated
      intro before next after runs
      obtain ⟨object, -, same⟩ := Option.map_eq_some_iff.mp runs
      cases same
      rfl
  | callback call rest =>
      cases call with
      | none =>
          intro input before next after runs
          cases input with
          | act action =>
              obtain ⟨⟨call, shared⟩, begins, same⟩ := Option.map_eq_some_iff.mp runs
              cases same
              cases call with
              | none => rfl
              | some found => exact begin_outside begins found rfl
          | _ =>
              cases runs
              rfl
      | some call => exact callProgram_map_annotated .worker call (fun _ => rfl) fun _ => rfl
  | quits =>
      intro input before next after runs
      cases runs
      rfl
  | ended =>
      intro input before next after runs
      cases runs
  | _ =>
      rw [workerProgram]
      apply working_annotated
      intro before next after runs
      cases runs
      rfl

/-- Every place says rightly whether a thread there holds the mutex. -/
theorem program_annotated : Mutex.Annotated (program cls mux env) Place.holds := by
  intro place
  cases place with
  | worker place =>
      apply Statement.Annotated.map
      exact workerProgram_annotated cls mux env place
  | user place =>
      apply Statement.Annotated.map
      exact userProgram_annotated cls place

end Worker

end Engine
end NetworkBase
